import Hearth.Execution.Batch
import Hearth.Proofs.Process.Delivery
import Mathlib.Data.Set.Insert

/-!
# Hearth.Proofs.Execution.Troupe

Devices whose answers depend on how often they were called before, and on nothing else.

## Main definitions

* `Troupe`: a link to devices, the calls that every device has had, and its answer to each call.
* `Troupe.terms`: the terms on which a process deals with some of the devices.
* `Troupe.Scripted`: the devices do answer like that, without ever crashing.

## Main result

`Batch.attempt_delivers`: what becomes of one attempt at a command.
-/

namespace Hearth

/-- What a device answers to a call, and after how many milliseconds. One that does not answer takes
longer than any limit. -/
structure Response where
  after : Nat
  answer : Except Failure CommandOutcome
deriving Inhabited

namespace Response

/-- The milliseconds that an attempt takes. -/
def millis (timeout : Duration) (r : Response) : Nat := min r.after timeout.millisUp

/-- What an attempt amounts to: an answer that takes longer than the device has is none. -/
def verdict (timeout : Duration) (r : Response) : Except Failure Unit :=
  Batch.verdict timeout (if r.after ≤ timeout.millisUp then some r.answer else none)

end Response

structure Troupe (σ : Type) extends DeviceLink σ where
  /-- The instants at which a device was called, in order. -/
  calls : σ → DeviceId → List Nat
  /-- The response of a device that was called so often before. -/
  response : DeviceId → Nat → Response
  /-- What the state has to be like for the devices to respond like that. -/
  Valid : σ → Prop

namespace Troupe

variable {σ : Type}

/-- Between two states some devices were not called, and no device has appeared or vanished. -/
structure Spares (troupe : Troupe σ) (spared : Set DeviceId) (s s' : σ) : Prop where
  calls : ∀ id ∈ spared, troupe.calls s' id = troupe.calls s id
  known : ∀ id, (troupe.lookup s' id).isSome = (troupe.lookup s id).isSome
  valid : troupe.Valid s → troupe.Valid s'

section

variable {troupe : Troupe σ} {spared : Set DeviceId} {s s' s'' : σ}

theorem Spares.refl (s : σ) : troupe.Spares spared s s := ⟨fun _ _ => rfl, fun _ => rfl, id⟩

theorem Spares.trans (first : troupe.Spares spared s s') (second : troupe.Spares spared s' s'') :
    troupe.Spares spared s s'' where
  calls id member := (second.calls id member).trans (first.calls id member)
  known id := (second.known id).trans (first.known id)
  valid := second.valid ∘ first.valid

theorem Spares.mono {fewer : Set DeviceId} (subset : fewer ⊆ spared)
    (spares : troupe.Spares spared s s') : troupe.Spares fewer s s' :=
  { spares with calls := fun id member => spares.calls id (subset member) }

end

/-- The process has `mine` to itself, and calls no devices but `called`. -/
def terms (troupe : Troupe σ) (mine called : Set DeviceId) : Terms σ where
  others := troupe.Spares mine
  own := troupe.Spares calledᶜ
  others_refl := .refl
  others_trans := .trans
  own_refl := .refl
  own_trans := .trans

/-- A process may be given more devices to itself, and more devices that it may call. -/
theorem delivers_mono {troupe : Troupe σ} {mine mine' called called' : Set DeviceId} {α : Type}
    {W : σ → Prop} {Q : α → Nat → σ → Prop} {p : Process σ α} {now : Nat} {s : σ}
    (more : mine ⊆ mine') (further : called ⊆ called')
    (delivers : p.Delivers (troupe.terms mine called) W Q now s) :
    p.Delivers (troupe.terms mine' called') W Q now s :=
  delivers.mono (fun _ _ spares => spares.mono more)
    (fun _ _ spares => spares.mono fun _ outside inside => outside (further inside))
    (fun _ => id) fun _ _ _ => id

variable (troupe : Troupe σ)

/-- A device has been called at these instants. -/
structure Called (id : DeviceId) (instants : List Nat) (s : σ) : Prop where
  valid : troupe.Valid s
  calls : troupe.calls s id = instants

/-- A device notes a call at once and responds to it by its number, whatever the command, whatever
goes on with the other devices, and without a crash. -/
structure Scripted : Prop where
  id_of_lookup : ∀ {s id d}, troupe.Valid s → troupe.lookup s id = some d → d.id = id
  delivers : ∀ (d : Device) (command : Command) {past : List Nat} (now : Nat) {s : σ},
    troupe.Called d.id past s →
    (troupe.send d command).Delivers (troupe.terms {d.id} {d.id})
      (troupe.Called d.id (past ++ [now]))
      (fun answer t s' => answer = (troupe.response d.id past.length).answer ∧
        t = now + (troupe.response d.id past.length).after ∧
        troupe.Called d.id (past ++ [now]) s') now s

variable {troupe}

theorem Called.spared {id : DeviceId} {instants : List Nat} {mine : Set DeviceId} {s s' : σ}
    (called : troupe.Called id instants s) (member : id ∈ mine) (spares : troupe.Spares mine s s') :
    troupe.Called id instants s' :=
  ⟨spares.valid called.valid, (spares.calls id member).trans called.calls⟩

end Troupe

namespace Batch

variable {σ : Type} {troupe : Troupe σ}

/-- An attempt is one call. It takes no longer than the device has, and comes to nothing if the
device takes longer. -/
theorem attempt_delivers (scripted : troupe.Scripted) (d : Device) (command : Command)
    (timeout : Duration) {past : List Nat} (now : Nat) {s : σ}
    (called : troupe.Called d.id past s) :
    (attempt troupe.toDeviceLink d command timeout).Delivers (troupe.terms {d.id} {d.id})
      (fun _ => True)
      (fun verdict t s' => verdict = (troupe.response d.id past.length).verdict timeout ∧
        t = now + (troupe.response d.id past.length).millis timeout ∧
        troupe.Called d.id (past ++ [now]) s') now s := by
  -- The call is noted before the wait, so it counts even if the answer comes too late.
  have sent := scripted.delivers d (resolve d command) now called
  have raced := sent.limited timeout fun s s' spares called =>
    called.spared (Set.mem_singleton d.id) spares
  refine (raced.mono (fun _ _ => id) (fun _ _ => id) (fun _ _ => trivial) fun _ _ _ => id).bind ?_
  intro answer t s' ended
  refine .pure ?_
  generalize troupe.response d.id past.length = r at ended ⊢
  cases answer with
  | some answer =>
    obtain ⟨inTime, rfl, rfl, called⟩ := ended
    have short : r.after ≤ timeout.millisUp := Nat.le_of_add_le_add_left inTime
    exact ⟨by rw [Response.verdict, if_pos short], by rw [Response.millis, Nat.min_eq_left short],
      called⟩
  | none =>
    obtain ⟨rfl, called, _, _, _, later, -, rfl, -⟩ := ended
    have long : timeout.millisUp < r.after := Nat.lt_of_add_lt_add_left later
    exact ⟨by rw [Response.verdict, if_neg (Nat.not_le_of_lt long)],
      by rw [Response.millis, Nat.min_eq_right (Nat.le_of_lt long)], called⟩

end Batch

end Hearth

import Hearth.Proofs.Execution.Troupe
import Hearth.Proofs.Fleet.Announcements
import Hearth.Proofs.Table
import Hearth.Rehearsal.Basic

/-!
# Hearth.Proofs.Execution.Rehearsed

The stand-ins for devices keep to their script: what a stand-in replies depends on how often it was
called before.

## Main result

`Rehearsal.scripted`: the stand-ins of a script without crashes are a scripted troupe.
-/

namespace Hearth

/-! ### Scripts -/

namespace Script

/-- The reply of a stand-in that has been called so often before. -/
def nth (s : Script) (name : String) (k : Nat) : Reply :=
  let replies := (s.replies.get? name).getD []
  (replies[min k (replies.length - 1)]?).getD .ready

theorem fst_take (s : Script) (name : String) : (s.take name).1 = s.nth name 0 := by
  unfold take nth
  match s.replies.get? name with
  | none => rfl
  | some [] => rfl
  | some [reply] => rfl
  | some (reply :: next :: rest) => simp

/-- What is left of a script after a reply goes on with the next one. -/
theorem nth_take (s : Script) (name other : String) (k : Nat) :
    (s.take name).2.nth other k = if other = name then s.nth name (k + 1) else s.nth other k := by
  unfold take
  by_cases same : other = name
  · subst same
    simp only [if_true]
    cases found : s.replies.get? other with
    | none => simp [nth, found]
    | some replies =>
      match replies with
      | [] => simp [nth, found]
      | [reply] => simp [nth, found]
      | reply :: next :: rest => simp [nth, found, Table.get?_insert_self]
  · simp only [if_neg same]
    match s.replies.get? name with
    | none => rfl
    | some [] => rfl
    | some [reply] => rfl
    | some (reply :: next :: rest) => simp [nth, Table.get?_insert_ne _ _ same]

/-- No reply of a script without crashes crashes. -/
theorem crash_nth {s : Script}
    (calm : ∀ entry ∈ s.replies.entries, ∀ reply ∈ entry.2, reply.crash = none) (name : String)
    (k : Nat) : (s.nth name k).crash = none := by
  unfold nth
  cases found : s.replies.get? name with
  | none => rfl
  | some replies =>
    have calm := calm _ (Table.mem_of_get? found)
    dsimp only [Option.getD_some]
    cases reply : replies[min k (replies.length - 1)]? with
    | none => rfl
    | some reply => exact calm _ (List.mem_of_getElem? ‹_›)

end Script

theorem Registry.get?_setValue (r : Registry) (now : Instant) (id other : DeviceId)
    (value : DeviceValue) :
    (r.setValue now id value).2.get? other =
      if other = id then (r.get? id).map fun d => { d with value, updatedAt := now }
      else r.get? other := by
  unfold setValue
  cases found : r.get? id with
  | none =>
    by_cases same : other = id
    · simp [same, found]
    · simp [same]
  | some d => exact Table.get?_insert _ _ _ _

/-- A registry that is made from a list knows every device under its own name. -/
theorem Registry.id_of_get?_ofList {devices : List Device} {id : DeviceId} {d : Device}
    (found : (ofList devices).get? id = some d) : d.id = id := by
  rw [ofList_eq_foldl, get?_foldl_upsert] at found
  have known : devices.reverse.find? (fun d => d.id = id) = some d := by
    simpa [Registry.get?, Table.get?_empty] using found
  simpa using List.find?_some known

theorem Reply.perform_delivers {σ : Type} {terms : Terms σ} {W : σ → Prop} {now : Nat} {s : σ}
    {reply : Reply} (calm : reply.crash = none) (kept : W s) :
    reply.perform.Delivers terms W (fun outcome t s' =>
      outcome = (match reply.failure with
        | some failure => .error failure
        | none => .ok ()) ∧
      t = now + reply.delay.waitMillis ∧ terms.others s s') now s := by
  refine (Process.Delivers.sleep reply.delay kept).bind ?_
  rintro _ t s' ⟨rfl, changed⟩
  cases failure : reply.failure with
  | none =>
    rw [calm]
    exact .pure ⟨rfl, rfl, changed⟩
  | some failure =>
    rw [calm]
    exact .pure ⟨rfl, rfl, changed⟩

namespace Rehearsal

/-! ### The journal -/

/-- The instant of an entry, if it is a call of the device. -/
def callOf? (id : DeviceId) (entry : JournalEntry) : Option Nat :=
  match entry.sight with
  | .commanded device _ _ => if device = id then some entry.time else none
  | _ => none

def calls (r : Rehearsal) (id : DeviceId) : List Nat := r.journal.filterMap (callOf? id)

theorem calls_note (d : DeviceId) (command : Command) (seen : DeviceValue) (now : Nat)
    (r : Rehearsal) (id : DeviceId) :
    (note (.commanded d command seen) now r).calls id =
      if d = id then r.calls id ++ [now] else r.calls id := by
  by_cases same : d = id
  · simp [calls, note, callOf?, same]
  · simp [calls, note, callOf?, same]

/-! ### The troupe -/

/-- What a reply amounts to. -/
def response (reply : Reply) : Response where
  after := reply.delay.waitMillis
  answer :=
    match reply.failure with
    | some failure => .error failure
    | none => .ok (outcome reply.refusal)

/-- The registry knows every device under its own name, and the script goes on after the replies that
were given. -/
structure OnScript (stamp : Nat → Instant) (script : Script) (r : Rehearsal) : Prop where
  named : ∀ id d, (host stamp).lookup r id = some d → d.id = id
  replies : ∀ (id : DeviceId) k, r.script.nth id.name k = script.nth id.name ((r.calls id).length + k)

def troupe (stamp : Nat → Instant) (prompt : Bool) (script : Script) : Troupe Rehearsal where
  toDeviceLink := link stamp prompt
  calls := calls
  response id k := response (script.nth id.name k)
  Valid := OnScript stamp script

variable (stamp : Nat → Instant) (prompt : Bool) (script : Script)

theorem lookup_switch (d : Device) (command : Command) (now : Nat) (r : Rehearsal) (id : DeviceId) :
    ((host stamp).lookup (switch stamp d command now r) id).map Device.id =
      ((host stamp).lookup r id).map Device.id := by
  have recorded (on : Bool) : ((host stamp).lookup ((host stamp).registry.modify
      (fun g => (g.setValue (stamp now) d.id (.bool on)).2) r) id).map Device.id =
      ((host stamp).lookup r id).map Device.id := by
    unfold HouseholdHost.lookup
    rw [Field.get_modify, Registry.get?_setValue]
    split
    · next same => rw [same, Option.map_map]; rfl
    · rfl
  cases command with
  | turnOn => exact recorded true
  | turnOff => exact recorded false
  | _ => rfl

/-- A switch that the registry hears of is no call, and does not touch the script. -/
theorem spares_switch (d : Device) (command : Command) (now : Nat) (r : Rehearsal)
    (spared : Set DeviceId) :
    (troupe stamp prompt script).Spares spared r (switch stamp d command now r) := by
  have journal : (switch stamp d command now r).journal = r.journal := by cases command <;> rfl
  have remaining : (switch stamp d command now r).script = r.script := by cases command <;> rfl
  have calls (id : DeviceId) : (switch stamp d command now r).calls id = r.calls id := by
    rw [Rehearsal.calls, journal]
    rfl
  refine ⟨fun id _ => calls id, fun id => ?_, fun valid => ⟨fun id known found => ?_, fun id k => ?_⟩⟩
  · have same := congrArg Option.isSome (lookup_switch stamp d command now r id)
    rwa [Option.isSome_map, Option.isSome_map] at same
  · have same := lookup_switch stamp d command now r id
    rw [found] at same
    obtain ⟨before, found, same⟩ := Option.map_eq_some_iff.1 same.symm
    exact same.symm.trans (valid.named id before found)
  · rw [remaining, calls]
    exact valid.replies id k

/-- Taking down a call of a device and taking its reply. -/
theorem spares_cue (d : Device) (command : Command) (now : Nat) (r : Rehearsal) :
    let r' := { note (.commanded d.id command d.value) now r with script := (r.script.take d.id.name).2 }
    (troupe stamp prompt script).Spares {d.id}ᶜ r r' ∧ r'.calls d.id = r.calls d.id ++ [now] := by
  intro r'
  have calls (id : DeviceId) : r'.calls id = if d.id = id then r.calls id ++ [now] else r.calls id :=
    calls_note d.id command d.value now r id
  refine ⟨⟨fun id other => ?_, fun id => rfl, fun valid => ⟨valid.named, fun id k => ?_⟩⟩, ?_⟩
  · exact (calls id).trans (if_neg (Ne.symm other))
  · show (r.script.take d.id.name).2.nth id.name k = _
    rw [Script.nth_take, calls]
    by_cases same : d.id = id
    · rw [same, if_pos rfl, if_pos rfl, valid.replies, List.length_append, List.length_singleton]
      congr 1
      omega
    · -- Scripts go by names, and so do devices: another device has a script of its own.
      have other : id.name ≠ d.id.name := fun name => same (congrArg DeviceId.mk name.symm)
      rw [if_neg other, if_neg same]
      exact valid.replies id k
  · exact (calls d.id).trans (if_pos rfl)

variable {stamp prompt script}

theorem cue_delivers {W : Rehearsal → Prop} (d : Device) (command : Command) {past : List Nat}
    {now : Nat} {r : Rehearsal} (called : (troupe stamp prompt script).Called d.id past r) :
    (cue (.commanded d.id command d.value) d.id.name).Delivers
      ((troupe stamp prompt script).terms {d.id} {d.id}) W
      (fun reply t r' => reply = script.nth d.id.name past.length ∧ t = now ∧
        (troupe stamp prompt script).Called d.id (past ++ [now]) r') now r := by
  obtain ⟨spares, noted⟩ := spares_cue stamp prompt script d command now r
  refine .step spares ⟨?_, rfl, spares.valid called.valid, ?_⟩
  · show (r.script.take d.id.name).1 = _
    rw [Script.fst_take, called.valid.replies d.id 0, Nat.add_zero]
    exact congrArg (fun calls => script.nth d.id.name (List.length calls)) called.calls
  · exact noted.trans (congrArg (· ++ [now]) called.calls)

theorem scripted (calm : ∀ name k, (script.nth name k).crash = none) :
    (troupe stamp prompt script).Scripted := by
  refine ⟨fun valid found => valid.named _ _ found, ?_⟩
  intro d command past now r called
  refine (cue_delivers d command called).bind ?_
  rintro _ _ r ⟨rfl, rfl, called⟩
  refine (Reply.perform_delivers (calm _ _) called).bind ?_
  rintro _ _ r' ⟨rfl, rfl, spares⟩
  have called := called.spared (Set.mem_singleton d.id) spares
  show Process.Delivers _ _ (fun answer t s' =>
    answer = (response (script.nth d.id.name past.length)).answer ∧ _ ∧ _) _ _ _
  cases failure : (script.nth d.id.name past.length).failure with
  | some failure =>
    refine .pure ⟨?_, rfl, called⟩
    rw [response, failure]
  | none =>
    have answer : (response (script.nth d.id.name past.length)).answer =
        .ok (outcome (script.nth d.id.name past.length).refusal) := by
      rw [response, failure]
    dsimp only
    split
    · have switched := spares_switch stamp prompt script d command
      refine (Process.Delivers.change (switched _ r' _)).bind ?_
      rintro _ _ _ ⟨rfl, rfl⟩
      exact .pure ⟨answer.symm, rfl, called.spared (Set.mem_singleton d.id) (switched _ r' _)⟩
    · exact .pure ⟨answer.symm, rfl, called⟩

/-- A rehearsal begins on script. -/
theorem onScript_create (stamp : Nat → Instant) (script : Script) {house : Household}
    (named : ∀ id d, house.registry.get? id = some d → d.id = id) :
    OnScript stamp script (create house script) where
  named := named
  replies id k := congrArg (script.nth id.name) (Nat.zero_add k).symm

/-! ### A lamp and a fan -/

def busy : Reply := { Reply.ready with failure := some (.device "busy" true) }

/-- The lamp is busy twice, and the fan refuses. -/
def busyTwice : Script :=
  .ofList [("lamp", [busy, busy, .ready]), ("fan", [{ Reply.ready with refusal := some none }])]

def lampAndFan : Rehearsal :=
  let lamp : Device := ⟨⟨"lamp"⟩, "Lamp", .light, true, .bool false, default⟩
  let fan : Device := ⟨⟨"fan"⟩, "Fan", .switch, true, .bool false, default⟩
  .create (.create default (.ofList [lamp, fan]) .empty default) busyTwice

def lampAndFanTroupe : Troupe Rehearsal := troupe (fun _ => default) false busyTwice

theorem scripted_lampAndFan : lampAndFanTroupe.Scripted :=
  scripted (Script.crash_nth (by decide +kernel))

theorem valid_lampAndFan : lampAndFanTroupe.Valid lampAndFan :=
  onScript_create _ _ fun _ _ found => Registry.id_of_get?_ofList found

end Rehearsal

end Hearth

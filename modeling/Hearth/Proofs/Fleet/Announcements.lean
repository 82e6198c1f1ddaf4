import Hearth.Fleet.Basic
import Hearth.Proofs.Channel
import Hearth.Registry

/-!
# Hearth.Proofs.Fleet.Announcements

What a fleet announces, and what becomes of a registry into which snapshots of devices are entered one
after another.

## Main definitions

`Registry.latest?`: the latest snapshot of a device among some.
`Fleet.Sorted`: a fleet that has every device once.
`FleetEvent`: what can happen to a fleet.

## Main results

`Registry.get?_foldl_upsert_unlost`: what becomes of a registry that some snapshots do not reach.
`Fleet.Sorted.get?_ofList_devices`: a registry made from all snapshots of a fleet.
`FleetEvent.quiet_or_announced`: a device does not change without an announcement.
-/

namespace Hearth

/-! ### Devices entered one after another -/

/-- A search in what a filter leaves finds the same, unless the filter drops what is found. -/
theorem find?_filter_of_kept {α : Type} {keep isWanted : α → Bool} {l : List α}
    (kept : ∀ x ∈ l.find? isWanted, keep x = true) :
    (l.filter keep).find? isWanted = l.find? isWanted := by
  induction l with
  | nil => rfl
  | cons x rest ih =>
    by_cases found : isWanted x = true
    · have keeps : keep x = true := kept x (by simp [found])
      simp [keeps, found]
    · have later := ih (by simpa [found] using kept)
      cases keeps : keep x <;> simp [keeps, found, later]

namespace Registry

/-- The latest snapshot of a device among some, and its number. -/
def latest? (id : DeviceId) (devices : List Device) : Option (Device × Nat) :=
  devices.zipIdx.reverse.find? fun e => e.1.id = id

theorem get?_foldl_upsert (devices : List Device) (r : Registry) (id : DeviceId) :
    (devices.foldl upsert r).get? id = (devices.reverse.find? (·.id = id)).or (r.get? id) := by
  induction devices generalizing r with
  | nil => rfl
  | cons d rest ih =>
    rw [List.foldl_cons, ih, get?_upsert, List.reverse_cons, List.find?_append]
    by_cases here : id = d.id
    · simp [← here]
    · simp [here, Ne.symm here]

/-- When some snapshots are lost, a device still gets the entry that it would get without a loss, as
long as its own latest snapshot is not lost. -/
theorem get?_foldl_upsert_unlost {devices : List Device} {lost : List Nat} {id : DeviceId}
    (heard : ∀ e ∈ latest? id devices, e.2 ∉ lost) (r : Registry) :
    ((Channel.unlost lost devices).foldl upsert r).get? id = (devices.foldl upsert r).get? id := by
  have search (es : List (Device × Nat)) : (es.map Prod.fst).reverse.find? (·.id = id) =
      (es.reverse.find? fun e => e.1.id = id).map Prod.fst := by
    rw [← List.map_reverse, List.find?_map]
    rfl
  have whole := search devices.zipIdx
  rw [List.zipIdx_map_fst] at whole
  have kept : ∀ e ∈ latest? id devices, (!lost.contains e.2) = true := by simpa using heard
  rw [get?_foldl_upsert, get?_foldl_upsert, Channel.unlost, search, whole, ← List.filter_reverse,
    find?_filter_of_kept kept]

theorem ofList_eq_foldl (devices : List Device) :
    ofList devices = devices.foldl upsert ⟨.empty⟩ := by
  have entered (t : Table DeviceId Device) :
      (⟨(devices.map fun d => (d.id, d)).foldl (fun t (id, d) => t.insert id d) t⟩ : Registry) =
        devices.foldl upsert ⟨t⟩ := by
    induction devices generalizing t with
    | nil => rfl
    | cons d rest ih => exact ih _
  exact entered .empty

end Registry

namespace Fleet

/-! ### Every device once -/

/-- The appliances stand in the order of their identifiers, each once. -/
def Sorted (f : Fleet) : Prop := f.appliances.Pairwise fun a b => a.id.name < b.id.name

theorem mem_insertInto {a b : Appliance} {appliances : List Appliance}
    (member : b ∈ insertInto a appliances) : b = a ∨ b ∈ appliances := by
  induction appliances with
  | nil => simpa [insertInto] using member
  | cons c rest ih =>
    unfold insertInto at member
    split at member
    · rcases List.mem_cons.1 member with rfl | later
      · exact .inl rfl
      · exact .inr (List.mem_cons_of_mem _ later)
    · split at member
      · exact List.mem_cons.1 member
      · rcases List.mem_cons.1 member with rfl | later
        · exact .inr List.mem_cons_self
        · exact (ih later).imp id (List.mem_cons_of_mem _)

theorem Sorted.add {f : Fleet} (sorted : f.Sorted) (a : Appliance) : (f.add a).Sorted := by
  obtain ⟨appliances, unreachable, latency, updates⟩ := f
  simp only [Sorted, Fleet.add] at sorted ⊢
  induction appliances with
  | nil => exact List.pairwise_singleton _ _
  | cons b rest ih =>
    obtain ⟨first, sorted⟩ := List.pairwise_cons.1 sorted
    unfold insertInto
    split
    · next same => exact List.pairwise_cons.2 ⟨fun c later => same ▸ first c later, sorted⟩
    · next other =>
      split
      · next before =>
        -- What comes behind the first appliance comes behind the new one, too.
        refine List.pairwise_cons.2 ⟨?_, List.pairwise_cons.2 ⟨first, sorted⟩⟩
        intro c later
        rcases List.mem_cons.1 later with rfl | later
        · exact before
        · exact String.lt_trans before (first c later)
      · next behind =>
        -- The new appliance comes behind the first one, since it has another name.
        refine List.pairwise_cons.2 ⟨?_, ih sorted⟩
        intro c later
        rcases mem_insertInto later with rfl | later
        · have different : b.id.name ≠ c.id.name := fun same => other (congrArg DeviceId.mk same.symm)
          exact Std.lt_of_le_of_ne (String.not_lt.1 behind) different
        · exact first c later

theorem sorted_ofList (appliances : List Appliance) : (ofList appliances).Sorted := by
  have added (f : Fleet) (sorted : f.Sorted) : (appliances.foldl add f).Sorted := by
    induction appliances generalizing f with
    | nil => exact sorted
    | cons a rest ih => exact ih _ (sorted.add a)
  exact added empty List.Pairwise.nil

theorem of_get?_eq_some {f : Fleet} {id : DeviceId} {a : Appliance} (known : f.get? id = some a) :
    a ∈ f.appliances ∧ a.id = id := by
  have named := List.find?_some known
  exact ⟨List.mem_of_find?_eq_some known, eq_of_beq named⟩

theorem Sorted.get?_of_mem {f : Fleet} (sorted : f.Sorted) {a : Appliance}
    (member : a ∈ f.appliances) : f.get? a.id = some a := by
  obtain ⟨appliances, unreachable, latency, updates⟩ := f
  simp only [Sorted, get?] at *
  induction appliances with
  | nil => cases member
  | cons b rest ih =>
    obtain ⟨first, sorted⟩ := List.pairwise_cons.1 sorted
    rcases List.mem_cons.1 member with rfl | later
    · simp
    · have other : b.id ≠ a.id := fun same =>
        String.lt_irrefl _ (congrArg DeviceId.name same ▸ first a later)
      simp [other, ih sorted later]

/-- A registry made from the snapshots of a fleet knows every device of it. -/
theorem Sorted.get?_ofList_devices {f : Fleet} (sorted : f.Sorted) (time : Instant) (id : DeviceId) :
    (Registry.ofList (f.devices time)).get? id = (f.get? id).map (·.device time) := by
  obtain ⟨appliances, unreachable, latency, updates⟩ := f
  have entered (r : Registry) : ((appliances.map (·.device time)).foldl Registry.upsert r).get? id =
      ((appliances.find? fun a => a.id == id).map (·.device time)).or (r.get? id) := by
    induction appliances generalizing r with
    | nil => rfl
    | cons a rest ih =>
      obtain ⟨first, sorted⟩ := List.pairwise_cons.1 sorted
      rw [List.map_cons, List.foldl_cons, ih sorted, Registry.get?_upsert]
      by_cases here : id = a.id
      · subst here
        -- No device behind this one has its identifier.
        have last : rest.find? (fun b => b.id == a.id) = none := by
          refine List.find?_eq_none.2 fun b later same => ?_
          exact String.lt_irrefl _ (congrArg DeviceId.name (eq_of_beq same) ▸ first b later)
        simp [last, Appliance.device]
      · simp [here, Ne.symm here, Appliance.device]
  rw [Registry.ofList_eq_foldl]
  exact (entered _).trans (Option.or_none ..)

end Fleet

/-! ### What happens to a fleet -/

/-- A fleet stays as it is when no device accepts a command. A device that does accept it is
announced. -/
theorem Fleet.carryOut_cases (f : Fleet) (now : Instant) (elapsed : Nat) (id : DeviceId) (c : Command) :
    (∃ answer, f.carryOut now elapsed id c = (answer, f) ∧
      ∀ outcome, answer = .ok outcome → outcome.accepted = false) ∨
    ∃ a outcome, a.id = id ∧ outcome.accepted = true ∧
      f.carryOut now elapsed id c = (.ok outcome, (f.add a).announce (a.device now)) := by
  unfold carryOut
  split
  · exact .inl ⟨_, rfl, nofun⟩
  · cases known : f.get? id with
    | none => exact .inl ⟨_, rfl, by rintro outcome ⟨⟩; rfl⟩
    | some a =>
      cases applied : a.apply c with
      | error reason =>
        simp only [applied]
        exact .inl ⟨_, rfl, by rintro outcome ⟨⟩; rfl⟩
      | ok changed =>
        have own := (Appliance.id_of_apply applied).trans (Fleet.of_get?_eq_some known).2
        simp only [applied]
        exact .inr ⟨changed, _, own, rfl, rfl⟩

inductive FleetEvent
  /-- A device is to carry out a command. It may be out of reach, or refuse. -/
  | command (now : Instant) (elapsed : Nat) (id : DeviceId) (command : Command)
  | reading (now : Instant) (id : DeviceId) (reading : Float)
  | reach (id : DeviceId) (unreachable : Bool)

namespace FleetEvent

def apply (f : Fleet) : FleetEvent → Fleet
  | command now elapsed id c => (f.carryOut now elapsed id c).2
  | reading now id x => (f.setReading now id x).2
  | reach id unreachable => f.setUnreachable id unreachable

/-- The snapshot that the fleet announces: that of a device that has accepted a command, or of a
sensor with a new reading. -/
def announces (f : Fleet) : FleetEvent → Option Device
  | command now elapsed id c =>
    match f.carryOut now elapsed id c with
    | (.ok outcome, after) =>
      if outcome.accepted then (after.get? id).map (·.device now) else none
    | (.error _, _) => none
  | reading now id x => (f.setReading now id x).1
  | reach _ _ => none

/-- Nothing is announced and no device has changed, or the device that has changed is announced. -/
theorem quiet_or_announced (e : FleetEvent) (f : Fleet) :
    (e.announces f = none ∧ (e.apply f).updates = f.updates ∧
      (e.apply f).appliances = f.appliances) ∨
    ∃ a now, e.announces f = some (a.device now) ∧
      e.apply f = (f.add a).announce (a.device now) := by
  cases e with
  | command now elapsed id c =>
    simp only [announces, apply]
    rcases f.carryOut_cases now elapsed id c with
      ⟨answer, same, refused⟩ | ⟨a, outcome, rfl, accepted, after⟩
    · rw [same]
      refine .inl ⟨?_, rfl, rfl⟩
      cases answer with
      | error failure => rfl
      | ok outcome => simp only [refused outcome rfl, Bool.false_eq_true, ↓reduceIte]
    · have found : ((f.add a).announce (a.device now)).get? a.id = some a :=
        (Fleet.get?_add f a a.id).trans (if_pos rfl)
      rw [after]
      exact .inr ⟨a, now, by simp only [accepted, found, ↓reduceIte, Option.map_some], rfl⟩
  | reading now id x =>
    simp only [announces, apply, Fleet.setReading]
    split
    · exact .inr ⟨_, now, rfl, rfl⟩
    · exact .inl ⟨rfl, rfl, rfl⟩
  | reach id unreachable => exact .inl ⟨rfl, rfl, rfl⟩

end FleetEvent

end Hearth

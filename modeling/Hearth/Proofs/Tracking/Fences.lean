import Hearth.Proofs.Table
import Hearth.Tracking.Tracker

/-!
# Hearth.Proofs.Tracking.Fences

The geofences of a tracker and what is known about each of them.

## Main definitions

`Tracker.Consistent`: geofences stand under their identifiers, have passed their checks, and something
is known about each of them.
`Tracker.knownOf`: a geofence and what is known about it.

## Main results

`Tracker.Consistent.insert`, `Tracker.Consistent.update`, `Tracker.Consistent.delete`: what is done to
the geofences keeps a tracker consistent.
`Tracker.knownOf_insert`, `Tracker.Consistent.knownOf_update`, `Tracker.Consistent.knownOf_delete`: what
becomes of one geofence.
-/

namespace Hearth

namespace Geofence

/-- Whether a changed geofence has another place or size. -/
def isMoved (before after : Geofence) : Bool :=
  !(after.center.same before.center) || after.radius != before.radius

theorem of_check_ok {g : Geofence} (passed : g.check = .ok ()) :
    g.center.inRange = true ∧ g.radius.isFinite = true := by
  -- Whatever has got past the refusals has what each of them asks for.
  unfold check at passed
  split at passed
  · cases passed
  split at passed
  · cases passed
  next inRange =>
  split at passed
  · cases passed
  next sized =>
  rw [Bool.or_eq_true, not_or] at sized
  exact ⟨by simpa using inRange, by simpa using sized.1⟩

theorem Update.apply_ok {u : Update} {g changed : Geofence} (applied : u.apply g = .ok changed) :
    changed = { g with
      name := u.name.getD g.name
      center := u.center.getD g.center
      radius := u.radius.getD g.radius
      enabled := u.enabled.getD g.enabled } ∧ changed.check = .ok () := by
  unfold Update.apply at applied
  dsimp only at applied
  -- Whether the draft passes does not hang on how it was made.
  generalize ({ g with
      name := u.name.getD g.name
      center := u.center.getD g.center
      radius := u.radius.getD g.radius
      enabled := u.enabled.getD g.enabled } : Geofence) = draft at applied
  cases checked : draft.check with
  | error fault =>
    rw [checked] at applied
    cases applied
  | ok passed =>
    rw [checked] at applied
    cases applied
    exact ⟨rfl, checked⟩

theorem Update.id_of_apply {u : Update} {g changed : Geofence} (applied : u.apply g = .ok changed) :
    changed.id = g.id := by
  rw [(Update.apply_ok applied).1]

/-- What becomes of a geofence and of what is known about it when it is changed. -/
def Update.revise (u : Update) (known : Geofence × Containment) : Geofence × Containment :=
  match u.apply known.1 with
  | .ok changed =>
    (changed, if known.1.isMoved changed then .unknown changed.id else known.2)
  | .error _ => known

end Geofence

namespace Tracker

structure Consistent (t : Tracker) : Prop where
  nodup : t.fences.keys.Nodup
  named : ∀ {id g}, t.fences.get? id = some g → g.id = id
  checked : ∀ {id g}, t.fences.get? id = some g → g.check = .ok ()
  known : ∀ id, (t.containment.get? id).isSome = (t.fences.get? id).isSome

/-- A geofence and what is known about it. -/
def knownOf (t : Tracker) (id : GeofenceId) : Option (Geofence × Containment) := do
  let g ← t.fences.get? id
  let c ← t.containment.get? id
  return (g, c)

variable {t u : Tracker} {id : GeofenceId}

theorem Consistent.empty : Tracker.empty.Consistent where
  nodup := .nil
  named := nofun
  checked := nofun
  known _ := rfl

theorem Consistent.congr (consistent : t.Consistent) (fences : u.fences = t.fences)
    (containment : ∀ id, (u.containment.get? id).isSome = (t.containment.get? id).isSome) :
    u.Consistent := by
  obtain ⟨nodup, named, checked, known⟩ := consistent
  rw [← fences] at nodup named checked known
  exact ⟨nodup, named, checked, fun id => (containment id).trans (known id)⟩

theorem Consistent.reorder (consistent : t.Consistent) {fences : Table GeofenceId Geofence}
    (same : fences.entries.Perm t.fences.entries) : { t with fences }.Consistent := by
  have looked := Table.get?_of_perm consistent.nodup same
  refine ⟨Table.nodup_keys_of_perm consistent.nodup same, ?_, ?_, ?_⟩
  · intro id g found
    exact consistent.named ((looked id).symm.trans found)
  · intro id g found
    exact consistent.checked ((looked id).symm.trans found)
  · intro id
    rw [looked]
    exact consistent.known id

/-! ### What is known about one geofence -/

theorem knownOf_eq_some_iff {g : Geofence} {c : Containment} :
    t.knownOf id = some (g, c) ↔ t.fences.get? id = some g ∧ t.containment.get? id = some c := by
  unfold knownOf
  cases t.fences.get? id with
  | none => simp
  | some g' => cases t.containment.get? id <;> simp

/-- Something is known about every geofence that stands. -/
theorem Consistent.exists_containment (consistent : t.Consistent) {g : Geofence}
    (stands : t.fences.get? id = some g) : ∃ c, t.containment.get? id = some c := by
  have known := consistent.known id
  rw [stands] at known
  exact Option.isSome_iff_exists.1 known

theorem Consistent.knownOf_eq_none_iff (consistent : t.Consistent) :
    t.knownOf id = none ↔ t.fences.get? id = none := by
  unfold knownOf
  cases fence : t.fences.get? id with
  | none => simp
  | some g =>
    obtain ⟨c, found⟩ := consistent.exists_containment fence
    simp [found]

theorem knownOf_congr (fences : u.fences.get? id = t.fences.get? id)
    (containment : u.containment.get? id = t.containment.get? id) : u.knownOf id = t.knownOf id := by
  simp only [knownOf, fences, containment]

/-! ### Entering, changing and taking out -/

theorem create_snd (t : Tracker) (id : GeofenceId) (created : Instant) (name : String)
    (center : Coordinates) (radius : Float) :
    (t.create id created name center radius).2 =
      (t.insert { id, name, center, radius, enabled := true, created }).2 := by
  unfold create Geofence.create insert
  dsimp only
  cases checked : Geofence.check { id, name, center, radius, enabled := true, created } with
  | error fault => rfl
  | ok u => simp only [Except.map, checked]

theorem insert_of_check_error {g : Geofence} {fault : RecordFault} (refused : g.check = .error fault)
    (t : Tracker) : (t.insert g).2 = t := by
  simp only [insert, refused]

theorem insert_of_check_ok {g : Geofence} (passed : g.check = .ok ()) (t : Tracker) :
    (t.insert g).2 = { t with
      fences := t.fences.insert g.id g
      containment := t.containment.insert g.id (.unknown g.id) } := by
  simp only [insert, passed]

/-- A geofence that has passed its checks is put under its identifier. -/
theorem Consistent.put (consistent : t.Consistent) {g : Geofence} (passed : g.check = .ok ())
    {containment : Table GeofenceId Containment}
    (known : ∀ id, (containment.get? id).isSome =
      (decide (id = g.id) || (t.containment.get? id).isSome)) :
    { t with fences := t.fences.insert g.id g, containment }.Consistent := by
  refine ⟨Table.nodup_keys_insert consistent.nodup _ _, ?_, ?_, ?_⟩
  · intro id h found
    rw [Table.get?_insert] at found
    split at found
    · next here => rw [here, Option.some.inj found]
    · exact consistent.named found
  · intro id h found
    rw [Table.get?_insert] at found
    split at found
    · exact Option.some.inj found ▸ passed
    · exact consistent.checked found
  · intro id
    rw [known, Table.get?_insert, consistent.known]
    by_cases here : id = g.id <;> simp [here]

theorem Consistent.insert (consistent : t.Consistent) (g : Geofence) : (t.insert g).2.Consistent := by
  cases checked : g.check with
  | error fault => rwa [insert_of_check_error checked]
  | ok passed =>
    rw [insert_of_check_ok checked]
    refine consistent.put checked ?_
    intro id
    rw [Table.get?_insert]
    by_cases here : id = g.id <;> simp [here]

theorem knownOf_insert (t : Tracker) (g : Geofence) (id : GeofenceId) :
    (t.insert g).2.knownOf id =
      if g.id = id ∧ g.check.isOk = true then some (g, .unknown id) else t.knownOf id := by
  cases checked : g.check with
  | error fault =>
    rw [insert_of_check_error checked]
    simp [Except.isOk, Except.toBool]
  | ok passed =>
    rw [insert_of_check_ok checked]
    by_cases here : g.id = id
    · subst here
      simp [knownOf, Table.get?_insert_self, Except.isOk, Except.toBool]
    · rw [if_neg fun both => here both.1]
      exact knownOf_congr (Table.get?_insert_ne _ _ (Ne.symm here))
        (Table.get?_insert_ne _ _ (Ne.symm here))

theorem update_of_absent (absent : t.fences.get? id = none) (u : Geofence.Update) :
    (t.update id u).2 = t := by
  simp only [update, absent]

theorem update_of_error {g : Geofence} (found : t.fences.get? id = some g) {u : Geofence.Update}
    {fault : RecordFault} (refused : u.apply g = .error fault) : (t.update id u).2 = t := by
  simp only [update, found, refused]

theorem update_of_ok {g changed : Geofence} (found : t.fences.get? id = some g)
    {u : Geofence.Update} (applied : u.apply g = .ok changed) : (t.update id u).2 = { t with
      fences := t.fences.insert id changed
      containment :=
        if g.isMoved changed then t.containment.insert id (.unknown id) else t.containment } := by
  simp only [update, found, applied]
  rfl

theorem Consistent.update (consistent : t.Consistent) (id : GeofenceId) (u : Geofence.Update) :
    (t.update id u).2.Consistent := by
  cases found : t.fences.get? id with
  | none => rwa [update_of_absent found]
  | some g =>
    cases applied : u.apply g with
    | error fault => rwa [update_of_error found applied]
    | ok changed =>
      rw [update_of_ok found applied]
      have passed := (Geofence.Update.apply_ok applied).2
      have own : changed.id = id :=
        (Geofence.Update.id_of_apply applied).trans (consistent.named found)
      subst own
      -- Moved or not, something is known about the same geofences as before.
      refine consistent.put passed ?_
      intro other
      obtain ⟨c, here⟩ := consistent.exists_containment found
      by_cases own : other = changed.id
      · subst own
        split
        · simp [Table.get?_insert_self]
        · simp [here]
      · split
        · simp [Table.get?_insert_ne _ _ own, own]
        · simp [own]

theorem Consistent.delete (consistent : t.Consistent) (id : GeofenceId) :
    (t.delete id).2.Consistent := by
  unfold Tracker.delete
  split
  · exact consistent
  · refine ⟨Table.nodup_keys_filter consistent.nodup _, ?_, ?_, ?_⟩
    · intro other g found
      rw [Table.get?_erase] at found
      split at found
      · cases found
      · exact consistent.named found
    · intro other g found
      rw [Table.get?_erase] at found
      split at found
      · cases found
      · exact consistent.checked found
    · intro other
      rw [Table.get?_erase, Table.get?_erase]
      split
      · rfl
      · exact consistent.known other

theorem Consistent.knownOf_delete (consistent : t.Consistent) (id other : GeofenceId) :
    (t.delete id).2.knownOf other = if id = other then none else t.knownOf other := by
  unfold Tracker.delete
  split
  · next absent =>
    split
    · next here => rw [← here, consistent.knownOf_eq_none_iff.2 absent]
    · rfl
  · by_cases here : id = other
    · subst here
      simp [knownOf, Table.get?_erase]
    · rw [if_neg here]
      refine knownOf_congr ?_ ?_
      · simp [Table.get?_erase, Ne.symm here]
      · simp [Table.get?_erase, Ne.symm here]

theorem Consistent.knownOf_update_self (consistent : t.Consistent) (id : GeofenceId)
    (u : Geofence.Update) : (t.update id u).2.knownOf id = (t.knownOf id).map u.revise := by
  cases here : t.fences.get? id with
  | none =>
    rw [update_of_absent here, consistent.knownOf_eq_none_iff.2 here]
    rfl
  | some g =>
    obtain ⟨c, found⟩ := consistent.exists_containment here
    have known : t.knownOf id = some (g, c) := knownOf_eq_some_iff.2 ⟨here, found⟩
    cases applied : u.apply g with
    | error fault =>
      rw [update_of_error here applied, known]
      simp only [Option.map_some, Geofence.Update.revise, applied]
    | ok changed =>
      have own : changed.id = id :=
        (Geofence.Update.id_of_apply applied).trans (consistent.named here)
      rw [update_of_ok here applied, known]
      simp only [Option.map_some, Geofence.Update.revise, applied, own]
      refine knownOf_eq_some_iff.2 ⟨Table.get?_insert_self _ _ _, ?_⟩
      split
      · exact Table.get?_insert_self _ _ _
      · exact found

theorem knownOf_update_other (t : Tracker) {i : GeofenceId} (other : id ≠ i) (u : Geofence.Update) :
    (t.update i u).2.knownOf id = t.knownOf id := by
  cases found : t.fences.get? i with
  | none => rw [update_of_absent found]
  | some g =>
    cases applied : u.apply g with
    | error fault => rw [update_of_error found applied]
    | ok changed =>
      rw [update_of_ok found applied]
      refine knownOf_congr (Table.get?_insert_ne _ _ other) ?_
      split
      · exact Table.get?_insert_ne _ _ other
      · rfl

theorem Consistent.knownOf_update (consistent : t.Consistent) (i : GeofenceId) (u : Geofence.Update)
    (id : GeofenceId) : (t.update i u).2.knownOf id =
      if i = id then (t.knownOf id).map u.revise else t.knownOf id := by
  by_cases own : i = id
  · rw [if_pos own, own]
    exact consistent.knownOf_update_self id u
  · rw [if_neg own]
    exact t.knownOf_update_other (Ne.symm own) u

end Tracker

end Hearth

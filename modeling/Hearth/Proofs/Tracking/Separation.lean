import Mathlib.Data.List.DropRight
import Hearth.Proofs.Number.Order
import Hearth.Proofs.Tracking.Chronicle

/-!
# Hearth.Proofs.Tracking.Separation

A geofence does not notice what happens to others, nor the fixes that do not count.

## Main definitions

`TrackerEvent.concerns`: the events that can matter to a geofence.
`replay`: the history of one geofence, told without the others.

## Main result

`Tracker.Chronicled.separated`: a run without the events that do not concern a geofence is the same
to that geofence. The record has the latest fixes, counted or not.
-/

namespace Hearth

/-- Whether an event names a geofence, or is a fix whose accuracy is finite and does not exceed what
is asked for. -/
def TrackerEvent.concerns (config : TrackerConfig) (id : GeofenceId) : TrackerEvent → Bool
  | .create i _ _ _ _ => i = id
  | .insert g => g.id = id
  | .update i _ => i = id
  | .delete i => i = id
  | .watch _ => true
  | .unwatch _ => true
  | .fix l => l.accuracy.isFinite && !(l.accuracy > config.minAccuracy)

def TrackerEvent.fix? : TrackerEvent → Option Location
  | .fix l => some l
  | _ => none

/-- All crossings of a geofence that a chronicle has, from the oldest to the newest. -/
def emitted (id : GeofenceId) (past : Chronicle) : List Transition :=
  past.reverse.flatMap fun e => Tracker.shownAt id e.2

/-- All fixes, counted or not, from the oldest to the newest. -/
def fixes (past : Chronicle) : List Location :=
  past.reverse.filterMap fun e => e.1.fix?

/-- The crossings of a geofence and what is known about it after some events, the latest first. -/
def replay (config : TrackerConfig) (id : GeofenceId) :
    List TrackerEvent → List Transition × Option (Geofence × Containment)
  | [] => ([], none)
  | e :: past =>
    let (shown, known) := replay config id past
    let (seen, known) := e.affect config id known
    (shown ++ seen.toList, known)

variable {config : TrackerConfig} {id : GeofenceId}

theorem entered?_of_other {e : TrackerEvent} {g : Geofence} (offered : e.offered = some g)
    (other : g.id ≠ id) : e.entered? id = none := by
  simp [Tracker.entered?_eq offered, other]

/-- An event that does not concern a geofence does nothing to it. -/
theorem affect_of_not_concerns {e : TrackerEvent} (aloof : e.concerns config id = false)
    (known : Option (Geofence × Containment)) : e.affect config id known = (none, known) := by
  cases e with
  | create i created name center radius =>
    have absent : (TrackerEvent.create i created name center radius).entered? id = none := by
      apply entered?_of_other rfl
      exact of_decide_eq_false aloof
    simp only [TrackerEvent.affect, absent, Option.map_none, Option.none_or]
  | insert g =>
    have absent : (TrackerEvent.insert g).entered? id = none := by
      apply entered?_of_other rfl
      exact of_decide_eq_false aloof
    simp only [TrackerEvent.affect, absent, Option.map_none, Option.none_or]
  | update i u =>
    have other : i ≠ id := of_decide_eq_false aloof
    simp only [TrackerEvent.affect, other, ↓reduceIte]
  | delete i =>
    have other : i ≠ id := of_decide_eq_false aloof
    simp only [TrackerEvent.affect, other, ↓reduceIte]
  | watch a => cases aloof
  | unwatch i => cases aloof
  | fix l =>
    -- What exceeds the bound is not at most the bound, whether or not the two are numbers.
    have refused : Tracker.accepts config l = false := by
      simp only [TrackerEvent.concerns, Bool.and_eq_false_iff, Bool.not_eq_false',
        decide_eq_true_eq] at aloof
      rw [Tracker.accepts, Bool.and_eq_false_iff, decide_eq_false_iff_not]
      exact aloof.imp_right Number.not_le_of_gt
    cases known with
    | none => rfl
    | some known => simp [TrackerEvent.affect, Tracker.sight, refused]

theorem replay_filter (config : TrackerConfig) (id : GeofenceId) (events : List TrackerEvent) :
    replay config id (events.filter (·.concerns config id)) = replay config id events := by
  induction events with
  | nil => rfl
  | cons e past ih =>
    cases concerned : e.concerns config id with
    | true => rw [List.filter_cons_of_pos concerned, replay, replay, ih]
    | false =>
      rw [List.filter_cons_of_neg (by simp [concerned]), ih, replay]
      simp [affect_of_not_concerns concerned]

namespace Tracker

variable {t : Tracker} {past : Chronicle}

theorem Consistent.get?_containment (consistent : t.Consistent) (id : GeofenceId) :
    t.containment.get? id = (t.knownOf id).map Prod.snd := by
  have known := consistent.known id
  unfold knownOf
  cases fence : t.fences.get? id with
  | none =>
    rw [fence] at known
    simpa using known
  | some g => cases t.containment.get? id <;> rfl

theorem Consistent.get?_fences (consistent : t.Consistent) (id : GeofenceId) :
    t.fences.get? id = (t.knownOf id).map Prod.fst := by
  unfold knownOf
  cases fence : t.fences.get? id with
  | none => rfl
  | some g =>
    obtain ⟨c, found⟩ := consistent.exists_containment fence
    rw [found]
    rfl

/-- What a run makes of a geofence is what the geofence makes of the events alone. -/
theorem Chronicled.replayed (chronicled : Chronicled config t past) (id : GeofenceId) :
    replay config id (past.map Prod.fst) = (emitted id past, t.knownOf id) := by
  induction chronicled with
  | empty => rfl
  | event before e ih =>
    obtain ⟨own, after⟩ := (before.consistent.apply config e).2 id
    rw [List.map_cons, replay, ih, after]
    simp [emitted, own]
  | reorder before same ih => rw [ih, before.consistent.knownOf_reorder same]

/-! ### The record -/

/-- Only fixes go on record. -/
theorem audit_of_no_fix {e : TrackerEvent} (other : e.fix? = none) (config : TrackerConfig)
    (t : Tracker) : (e.apply config t).2.2.audit = t.audit := by
  cases e with
  | create id created name center radius =>
    rw [TrackerEvent.apply, create_snd, insert]
    split <;> rfl
  | insert g =>
    rw [TrackerEvent.apply, insert]
    split <;> rfl
  | update i u =>
    rw [TrackerEvent.apply, update]
    split
    · rfl
    · split <;> rfl
  | delete i =>
    rw [TrackerEvent.apply, delete]
    split <;> rfl
  | watch a =>
    rw [TrackerEvent.apply, watch]
    dsimp only
    split <;> rfl
  | unwatch i => rfl
  | fix l => cases other

theorem audit_of_fix (config : TrackerConfig) (t : Tracker) (l : Location) :
    ((TrackerEvent.fix l).apply config t).2.2.audit = (t.record config l).audit := by
  rw [TrackerEvent.apply]
  cases accepted : accepts config l with
  | false => rw [apply_of_not_accepts accepted]
  | true => rw [(apply_of_accepts accepted t).2]

/-- A record that is full makes room for one more fix and then has the latest ones again. -/
theorem audit_record {seen : List FixRecord} (room : t.audit = seen.rtake config.auditCapacity)
    (l : Location) : (t.record config l).audit =
      (seen ++ [FixRecord.mk l (accepts config l)]).rtake config.auditCapacity := by
  unfold record
  split
  · next empty => simpa [empty] using room
  · next some =>
    -- On either side the new fix comes last, and before it the latest ones of the same list.
    obtain ⟨n, capacity⟩ := Nat.exists_eq_succ_of_ne_zero some
    change (t.audit ++ [FixRecord.mk l (accepts config l)]).rtake config.auditCapacity = _
    rw [capacity] at room ⊢
    rw [List.rtake_concat_succ, List.rtake_concat_succ, room]
    unfold List.rtake
    rw [List.drop_drop, List.length_drop]
    congr 2
    omega

/-- The record has as many of the latest fixes as it has room for. -/
theorem Chronicled.recorded (chronicled : Chronicled config t past) :
    t.audit = ((fixes past).map fun l => ⟨l, accepts config l⟩).rtake config.auditCapacity := by
  induction chronicled with
  | empty => exact (List.rtake_nil _).symm
  | @event t past before e ih =>
    cases fixed : e.fix? with
    | none =>
      rw [audit_of_no_fix fixed, ih]
      simp [fixes, fixed]
    | some l =>
      obtain rfl : e = .fix l := by
        cases e <;> cases fixed
        rfl
      rw [audit_of_fix, audit_record ih]
      simp [fixes, TrackerEvent.fix?]
  | reorder _ _ ih => exact ih

/-- To a geofence a run is the same without the fixes that are not accurate enough and without what
is done to other geofences. The record has the latest fixes of the whole run, as many as there is
room for, each with whether it counted. -/
theorem Chronicled.separated (chronicled : Chronicled config t past) :
    (∀ {u : Tracker} {purged : Chronicle} {id : GeofenceId}, Chronicled config u purged →
      purged.map Prod.fst = (past.map Prod.fst).filter (·.concerns config id) →
      emitted id purged = emitted id past ∧
      u.containment.get? id = t.containment.get? id ∧ u.fences.get? id = t.fences.get? id) ∧
    t.audit = ((fixes past).rtake config.auditCapacity).map fun l =>
      { location := l, accepted := l.accuracy.isFinite && l.accuracy ≤ config.minAccuracy } := by
  constructor
  · intro u purged id chronicled' same
    -- Both runs are what the geofence makes of the same events.
    have replayed := chronicled.replayed id
    have replayed' := chronicled'.replayed id
    rw [same, replay_filter, replayed, Prod.mk.injEq] at replayed'
    obtain ⟨shown, known⟩ := replayed'
    refine ⟨shown.symm, ?_, ?_⟩
    · rw [chronicled'.consistent.get?_containment, chronicled.consistent.get?_containment, known]
    · rw [chronicled'.consistent.get?_fences, chronicled.consistent.get?_fences, known]
  · rw [chronicled.recorded, List.rtake, List.rtake, List.map_drop, List.length_map]
    rfl

def gate : Geofence := { porch with id := ⟨⟨2⟩⟩, name := "gate" }

def adrift : Location := { doorstep with accuracy := 500.0 }

/-- The porch does not notice that there was a gate, nor a fix that is too far off. -/
theorem separated_porch :
    ∃ t u past purged, Chronicled .standard t past ∧ Chronicled .standard u purged ∧
      purged.map Prod.fst =
        (past.map Prod.fst).filter (·.concerns TrackerConfig.standard porch.id) ∧
      emitted porch.id purged = emitted porch.id past ∧
      u.containment.get? porch.id = t.containment.get? porch.id ∧
      t.audit = [⟨doorstep, true⟩, ⟨adrift, false⟩] := by
  have begun : Chronicled .standard .empty [] := .empty
  have built := begun.event (.insert porch)
  have whole := (((built.event (.insert gate)).event (.fix doorstep)).event (.fix adrift)).event
    (.delete gate.id)
  have purged := built.event (.fix doorstep)
  obtain ⟨alike, record⟩ := whole.separated
  obtain ⟨shown, known, -⟩ := @alike _ _ porch.id purged rfl
  exact ⟨_, _, _, _, whole, purged, rfl, shown, known, record⟩

end Tracker

end Hearth

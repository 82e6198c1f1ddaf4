import Hearth.Proofs.Tracking.Sight

/-!
# Hearth.Proofs.Tracking.Chronicle

Whatever happens to a tracker, and what each geofence sees of it.

A chronicle has the events in which a tracker has got where it is, the latest first, each with the
crossings that it has shown.

## Main definitions

`Tracker.Chronicled`: a tracker with its chronicle.
`TrackerEvent.affect`: what an event does to one geofence, and the crossing that it shows there, told
without the others.

## Main results

`Tracker.Consistent.apply`: to each geofence an event does what `affect` tells.
`Tracker.Chronicled.consistent`: trackers are consistent.
-/

namespace Hearth

/-- What can happen to a tracker. -/
inductive TrackerEvent
  | create (id : GeofenceId) (created : Instant) (name : String) (center : Coordinates)
    (radius : Float)
  | insert (g : Geofence)
  | update (id : GeofenceId) (u : Geofence.Update)
  | delete (id : GeofenceId)
  | watch (a : Automation)
  | unwatch (id : AutomationId)
  | fix (l : Location)

abbrev Chronicle := List (TrackerEvent × List Transition)

namespace TrackerEvent

/-- The crossings that an event shows, the automations that wait for them, and the tracker after
it. -/
def apply (config : TrackerConfig) (t : Tracker) :
    TrackerEvent → List Transition × List (Automation × Transition) × Tracker
  | create id created name center radius => ([], [], (t.create id created name center radius).2)
  | insert g => ([], [], (t.insert g).2)
  | update id u => ([], [], (t.update id u).2)
  | delete id => ([], [], (t.delete id).2)
  | watch a => ([], [], (t.watch a).2)
  | unwatch id => ([], [], (t.unwatch id).2)
  | fix l => t.apply config l

/-- The geofence that is to be entered. -/
def offered : TrackerEvent → Option Geofence
  | create id created name center radius =>
    some { id, name, center, radius, enabled := true, created }
  | insert g => some g
  | _ => none

/-- The geofence that is entered under an identifier: one that passes its checks. -/
def entered? (id : GeofenceId) (e : TrackerEvent) : Option Geofence :=
  e.offered.filter fun g => g.id = id && g.check.isOk

end TrackerEvent

/-- What an event does to the geofence with an identifier, and the crossing that it shows there. -/
def TrackerEvent.affect (config : TrackerConfig) (id : GeofenceId) (e : TrackerEvent)
    (known : Option (Geofence × Containment)) :
    Option Transition × Option (Geofence × Containment) :=
  match e with
  | .update i u => (none, if i = id then known.map u.revise else known)
  | .delete i => (none, if i = id then none else known)
  | .fix l => Tracker.sight config l known
  -- A geofence that is entered replaces the one that stood there, with all that was known.
  | _ => (none, ((e.entered? id).map fun g => (g, .unknown id)).or known)

namespace Tracker

/-- A tracker with its chronicle. The geofences are visited in an order of their own, which may be
another one at every fix. -/
inductive Chronicled (config : TrackerConfig) : Tracker → Chronicle → Prop
  | empty : Chronicled config .empty []
  | event {t : Tracker} {past : Chronicle} (before : Chronicled config t past) (e : TrackerEvent) :
      Chronicled config (e.apply config t).2.2 ((e, (e.apply config t).1) :: past)
  | reorder {t : Tracker} {past : Chronicle} (before : Chronicled config t past)
      {fences : Table GeofenceId Geofence} (same : fences.entries.Perm t.fences.entries) :
      Chronicled config { t with fences } past

variable {config : TrackerConfig} {t : Tracker} {id : GeofenceId}

theorem watch_others (t : Tracker) (a : Automation) :
    (t.watch a).2.fences = t.fences ∧ (t.watch a).2.containment = t.containment := by
  unfold watch
  dsimp only
  split
  · exact ⟨rfl, rfl⟩
  · exact ⟨rfl, rfl⟩

theorem entered?_eq {e : TrackerEvent} {g : Geofence} (offered : e.offered = some g) :
    e.entered? id = if g.id = id ∧ g.check.isOk = true then some g else none := by
  rw [TrackerEvent.entered?, offered, Option.filter_some]
  simp only [Bool.and_eq_true, decide_eq_true_eq]

theorem knownOf_offered {e : TrackerEvent} {g : Geofence} (offered : e.offered = some g) :
    (t.insert g).2.knownOf id =
      ((e.entered? id).map fun g => (g, .unknown id)).or (t.knownOf id) := by
  rw [knownOf_insert, entered?_eq offered]
  split
  · rfl
  · rfl

/-- To every geofence an event does what it would do to that geofence alone. -/
theorem Consistent.apply (consistent : t.Consistent) (config : TrackerConfig) (e : TrackerEvent) :
    (e.apply config t).2.2.Consistent ∧ ∀ id,
      shownAt id (e.apply config t).1 = (e.affect config id (t.knownOf id)).1.toList ∧
      (e.apply config t).2.2.knownOf id = (e.affect config id (t.knownOf id)).2 := by
  cases e with
  | create id created name center radius =>
    rw [TrackerEvent.apply, create_snd]
    exact ⟨consistent.insert _, fun _ => ⟨rfl, knownOf_offered rfl⟩⟩
  | insert g => exact ⟨consistent.insert g, fun _ => ⟨rfl, knownOf_offered rfl⟩⟩
  | update i u => exact ⟨consistent.update i u, fun id => ⟨rfl, consistent.knownOf_update i u id⟩⟩
  | delete i => exact ⟨consistent.delete i, fun id => ⟨rfl, consistent.knownOf_delete i id⟩⟩
  | watch a =>
    obtain ⟨fences, containment⟩ := watch_others t a
    refine ⟨consistent.congr fences fun _ => by rw [← containment]; rfl, fun id => ⟨rfl, ?_⟩⟩
    exact knownOf_congr (by rw [← fences]; rfl) (by rw [← containment]; rfl)
  | unwatch i => exact ⟨consistent.congr rfl fun _ => rfl, fun id => ⟨rfl, knownOf_congr rfl rfl⟩⟩
  | fix l => exact consistent.fix l

theorem Chronicled.consistent {past : Chronicle} (chronicled : Chronicled config t past) :
    t.Consistent := by
  induction chronicled with
  | empty => exact .empty
  | event _ e ih => exact (ih.apply config e).1
  | reorder _ same ih => exact ih.reorder same

/-- The order in which the geofences are visited is nothing that one of them could see. -/
theorem Consistent.knownOf_reorder (consistent : t.Consistent) {fences : Table GeofenceId Geofence}
    (same : fences.entries.Perm t.fences.entries) (id : GeofenceId) :
    { t with fences }.knownOf id = t.knownOf id :=
  knownOf_congr (Table.get?_of_perm consistent.nodup same id) rfl

/-! ### A small house -/

def porch : Geofence where
  id := ⟨⟨1⟩⟩
  name := "porch"
  center := ⟨48.5, 2.25⟩
  radius := 100.0
  enabled := true
  created := default

def doorstep : Location := ⟨48.5, 2.25, 10.0, .ofNanos 60000000000⟩

end Tracker

end Hearth

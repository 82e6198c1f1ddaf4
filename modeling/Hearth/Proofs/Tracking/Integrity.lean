import Hearth.Proofs.Tracking.Watchers

/-!
# Hearth.Proofs.Tracking.Integrity

The tables of a tracker fit each other, whatever has happened to it, and a request that fails leaves
no trace.

## Main definition

`Tracker.Attended`: every list of watchers has somebody in it, and the automations that are kept are
those that stand in one.

## Main results

`Tracker.Chronicled.attended`: trackers are attended.
`Tracker.Chronicled.integrity`: how all the tables fit each other, and what failing does.
-/

namespace Hearth.Tracker

variable {config : TrackerConfig} {t u : Tracker} {past : Chronicle}

/-! ### Watchers and automations -/

/-- Every list of watchers has somebody in it, and the automations that are kept are those that stand
in one. -/
structure Attended (t : Tracker) : Prop where
  occupied : ∀ key, t.watchers.get? key ≠ some []
  kept_iff : ∀ id, (t.automations.get? id).isSome = true ↔ ∃ key, id ∈ t.watchersOf key

theorem Attended.congr (attended : t.Attended) (watchers : u.watchers = t.watchers)
    (automations : u.automations = t.automations) : u.Attended := by
  obtain ⟨occupied, kept_iff⟩ := attended
  refine ⟨?_, ?_⟩
  · rwa [watchers]
  · intro id
    rw [automations, kept_iff]
    simp only [watchersOf, watchers]

theorem Attended.unwatch (attended : t.Attended) (nodup : t.watchers.keys.Nodup)
    (id : AutomationId) : (t.unwatch id).2.Attended := by
  refine ⟨fun key found => Table.ne_nil_of_get?_thin found rfl, ?_⟩
  intro other
  have erased : (t.unwatch id).2.automations.get? other =
      if other = id then none else t.automations.get? other := Table.get?_erase _ _ _
  simp only [erased, watchersOf_unwatch nodup, List.mem_filter]
  by_cases own : other = id
  · simp [own]
  · simp [own, attended.kept_iff]

theorem Attended.delete (attended : t.Attended) (nodup : t.watchers.keys.Nodup) (id : GeofenceId) :
    (t.delete id).2.Attended := by
  cases stands : t.fences.get? id with
  | none =>
    have same : (t.delete id).2 = t := by simp only [Tracker.delete, stands]
    rwa [same]
  | some g =>
    refine ⟨?_, ?_⟩
    · intro key found
      rw [get?_watchers_delete stands] at found
      split at found
      · cases found
      · exact attended.occupied key found
    · intro a
      simp only [Option.isSome_iff_exists, automations_delete stands nodup]
      constructor
      · rintro ⟨_, waits, -⟩
        exact waits
      · rintro ⟨key, waits⟩
        -- The list in which it stands has been there before, so it has been kept before.
        have before : a ∈ t.watchersOf key := by
          rw [watchersOf_delete stands] at waits
          split at waits
          · cases waits
          · exact waits
        obtain ⟨kept, known⟩ := Option.isSome_iff_exists.1 ((attended.kept_iff a).2 ⟨key, before⟩)
        exact ⟨kept, ⟨key, waits⟩, known⟩

theorem occupied_foldl_addWatcher (id : AutomationId) (keys : List CrossingKey)
    {watchers : Table CrossingKey (List AutomationId)}
    (occupied : ∀ key, watchers.get? key ≠ some []) (key : CrossingKey) :
    (keys.foldl (addWatcher id) watchers).get? key ≠ some [] := by
  induction keys generalizing watchers with
  | nil => exact occupied key
  | cons first rest ih =>
    refine ih fun other => ?_
    rw [addWatcher, Table.get?_insert]
    split
    · -- The automation was there already or is put there, so the list is not empty.
      split
      · next present =>
        intro empty
        simp [Option.some.inj empty] at present
      · simp
    · exact occupied other

theorem Attended.watch (attended : t.Attended) (nodup : t.watchers.keys.Nodup) (a : Automation) :
    (t.watch a).2.Attended := by
  have forgotten := attended.unwatch nodup a.id
  cases idle : !a.enabled || (crossingsOf a).isEmpty with
  | true => rwa [watch_of_idle idle]
  | false =>
    -- Some crossing is named, and in its list the automation stands.
    obtain ⟨first, named⟩ : ∃ key, awaits a key = true := by
      have busy := mt idle_iff.2 (Bool.eq_false_iff.1 idle)
      simpa using busy
    refine ⟨?_, ?_⟩
    · intro key
      rw [watch_of_not_idle idle]
      exact occupied_foldl_addWatcher _ _ forgotten.occupied key
    · intro id
      simp only [automations_watch, watchersOf_watch nodup, List.mem_append, List.mem_filter, idle]
      by_cases own : id = a.id
      · subst own
        simp only [↓reduceIte, Bool.false_eq_true, Option.isSome_some, true_iff]
        exact ⟨first, .inr (by simp [named])⟩
      · have foreign (key : CrossingKey) : id ∉ if awaits a key then [a.id] else [] := by
          split <;> simp [own]
        simp [own, foreign, attended.kept_iff]

theorem Chronicled.attended (chronicled : Chronicled config t past) : t.Attended := by
  induction chronicled with
  | empty => exact ⟨fun _ => nofun, fun _ => ⟨nofun, fun ⟨_, waits⟩ => nomatch waits⟩⟩
  | @event t past before e ih =>
    have nodup := before.heeds.nodup_keys
    cases e with
    | create id created name center radius =>
      rw [TrackerEvent.apply, create_snd]
      exact ih.congr (watchers_of_insert t _).1 (watchers_of_insert t _).2
    | insert g => exact ih.congr (watchers_of_insert t g).1 (watchers_of_insert t g).2
    | update id u => exact ih.congr (watchers_of_update t id u).1 (watchers_of_update t id u).2
    | delete id => exact ih.delete nodup id
    | watch a => exact ih.watch nodup a
    | unwatch id => exact ih.unwatch nodup id
    | fix l => exact ih.congr (watchers_of_fix config t l).1 (watchers_of_fix config t l).2
  | reorder _ _ ih => exact ih.congr rfl rfl

/-! ### Requests that fail -/

theorem insert_of_error {g : Geofence} {failure : Failure} (failed : (t.insert g).1 = .error failure) :
    (t.insert g).2 = t := by
  cases checked : g.check with
  | error fault => exact insert_of_check_error checked t
  | ok u => simp [insert, checked] at failed

theorem create_of_error {id : GeofenceId} {created : Instant} {name : String} {center : Coordinates}
    {radius : Float} {failure : Failure}
    (failed : (t.create id created name center radius).1 = .error failure) :
    (t.create id created name center radius).2 = t := by
  rw [create_snd]
  cases checked : Geofence.check { id, name, center, radius, enabled := true, created } with
  | error fault => exact insert_of_check_error checked t
  | ok u =>
    simp only [create, Geofence.create, insert, checked, Except.map] at failed
    cases failed

theorem update_of_failure {id : GeofenceId} {u : Geofence.Update} {failure : Failure}
    (failed : (t.update id u).1 = .error failure) : (t.update id u).2 = t := by
  cases found : t.fences.get? id with
  | none => exact update_of_absent found u
  | some g =>
    cases applied : u.apply g with
    | error fault => exact update_of_error found applied
    | ok changed => simp [update, found, applied] at failed

theorem delete_of_error {id : GeofenceId} {failure : Failure}
    (failed : (t.delete id).1 = .error failure) : (t.delete id).2 = t := by
  cases stands : t.fences.get? id with
  | none => simp only [delete, stands]
  | some g => simp [delete, stands] at failed

/-- Whatever has happened to a tracker, something is known of exactly the geofences that stand, they
have passed their checks, no list of watchers is empty or has an automation twice, and the automations
that are kept are those that stand in one. A request that fails leaves all of it as it was. -/
theorem Chronicled.integrity (chronicled : Chronicled config t past) :
    (∀ id, id ∈ t.containment.keys ↔ id ∈ t.fences.keys) ∧
    (∀ {id g}, t.fences.get? id = some g → g.id = id ∧ g.check = .ok ()) ∧
    (∀ {key ids}, t.watchers.get? key = some ids → ids ≠ [] ∧ ids.Nodup) ∧
    (∀ id, id ∈ t.automations.keys ↔ ∃ key ids, t.watchers.get? key = some ids ∧ id ∈ ids) ∧
    (∀ {id created name center radius failure},
      (t.create id created name center radius).1 = .error failure →
        (t.create id created name center radius).2 = t) ∧
    (∀ {g failure}, (t.insert g).1 = .error failure → (t.insert g).2 = t) ∧
    (∀ {id u failure}, (t.update id u).1 = .error failure → (t.update id u).2 = t) ∧
    (∀ {id failure}, (t.delete id).1 = .error failure → (t.delete id).2 = t) := by
  have consistent := chronicled.consistent
  have attended := chronicled.attended
  have heeds := chronicled.heeds
  refine ⟨?_, fun found => ⟨consistent.named found, consistent.checked found⟩, ?_, ?_,
    create_of_error, insert_of_error, update_of_failure, delete_of_error⟩
  · intro id
    rw [← Table.isSome_get?_iff, consistent.known, Table.isSome_get?_iff]
  · intro key ids found
    refine ⟨?_, ?_⟩
    · rintro rfl
      exact attended.occupied key found
    · have nodup := heeds.nodup key
      rwa [watchersOf, found] at nodup
  · intro id
    rw [← Table.isSome_get?_iff, attended.kept_iff]
    simp only [mem_watchersOf_iff]

def shed : Geofence := { porch with id := ⟨⟨3⟩⟩, name := "shed" }

/-- Waits for the porch, which it names twice, and for the shed. -/
def lantern : Automation where
  id := ⟨⟨9⟩⟩
  name := "lantern"
  enabled := true
  triggers := [.geofence porch.id .enter, .geofence shed.id .leave, .geofence porch.id .enter]
  actions := []

def withoutPorch : Tracker :=
  let built := ((empty.insert porch).2.insert shed).2
  ((built.watch lantern).2.delete porch.id).2

/-- The porch is gone and cannot be changed any more. The lantern waits for the shed still. -/
theorem integrity_lantern :
    ∃ past, Chronicled .standard withoutPorch past ∧
      withoutPorch.watchers.get? ⟨porch.id, .enter⟩ = none ∧
      withoutPorch.watchers.get? ⟨shed.id, .leave⟩ = some [lantern.id] ∧
      lantern.id ∈ withoutPorch.automations.keys ∧ porch.id ∉ withoutPorch.containment.keys ∧
      (withoutPorch.update porch.id toFrontDoor).2 = withoutPorch := by
  have begun : Chronicled .standard .empty [] := .empty
  have built := (begun.event (.insert porch)).event (.insert shed)
  have deleted := (built.event (.watch lantern)).event (.delete porch.id)
  obtain ⟨known, -, -, kept, -, -, unchanged, -⟩ :=
    Chronicled.integrity (t := withoutPorch) deleted
  have waits : withoutPorch.watchers.get? ⟨shed.id, .leave⟩ = some [lantern.id] := rfl
  have gone : porch.id ∉ withoutPorch.fences.keys := by decide +kernel
  have refused : (withoutPorch.update porch.id toFrontDoor).1 = .error (notFound porch.id) := rfl
  exact ⟨_, deleted, rfl, waits, (kept lantern.id).2 ⟨_, _, waits, by simp⟩,
    mt (known porch.id).1 gone, unchanged refused⟩

end Hearth.Tracker

import Hearth.Proofs.Tracking.Crossings

/-!
# Hearth.Proofs.Tracking.Watchers

The automations that wait for a crossing, told from what has happened.

## Main definitions

`heeded`: the automation, as it was when it was watched last, that a crossing is to run.
`Tracker.Heeds`: the index of a tracker says what is heeded.

## Main results

`Tracker.Chronicled.heeds`: the index always does.
`Tracker.Chronicled.filter_runs`: what a fix is to run, automation by automation.
-/

namespace Hearth

/-- The automation with an identifier that a crossing is to run: as it was watched last, if it was
enabled and names that crossing, it was not forgotten since, and its geofence was not deleted since. -/
def heeded (id : AutomationId) (key : CrossingKey) : Chronicle → Option Automation
  | [] => none
  | (e, _) :: past =>
    match e with
    | .watch a =>
      if a.id = id then if a.enabled ∧ key ∈ Tracker.crossingsOf a then some a else none
      else heeded id key past
    | .unwatch i => if i = id then none else heeded id key past
    | .delete f => if f = key.fence ∧ (fenceOf f past).isSome then none else heeded id key past
    | _ => heeded id key past

theorem id_of_heeded {id : AutomationId} {key : CrossingKey} {past : Chronicle} {a : Automation}
    (heeds : heeded id key past = some a) : a.id = id := by
  induction past with
  | nil => cases heeds
  | cons entry past ih =>
    obtain ⟨e, shown⟩ := entry
    cases e with
    | watch b =>
      simp only [heeded] at heeds
      split at heeds
      · next own =>
        split at heeds
        · cases heeds
          exact own
        · cases heeds
      · exact ih heeds
    | unwatch i =>
      simp only [heeded] at heeds
      split at heeds
      · cases heeds
      · exact ih heeds
    | delete f =>
      simp only [heeded] at heeds
      split at heeds
      · cases heeds
      · exact ih heeds
    | _ => exact ih heeds

namespace Tracker

/-- The automations that the index has for a crossing. -/
def watchersOf (t : Tracker) (key : CrossingKey) : List AutomationId :=
  (t.watchers.get? key).getD []

theorem mem_watchersOf_iff {t : Tracker} {key : CrossingKey} {id : AutomationId} :
    id ∈ t.watchersOf key ↔ ∃ ids, t.watchers.get? key = some ids ∧ id ∈ ids := by
  unfold watchersOf
  cases t.watchers.get? key <;> simp

/-- The index has an automation under a crossing, once, if it heeds the crossing, and what is kept of
it is what is heeded. -/
structure Heeds (t : Tracker) (heed : AutomationId → CrossingKey → Option Automation) : Prop where
  nodup_keys : t.watchers.keys.Nodup
  nodup : ∀ key, (t.watchersOf key).Nodup
  mem_iff : ∀ {id key}, id ∈ t.watchersOf key ↔ (heed id key).isSome = true
  kept : ∀ {id key a}, heed id key = some a → t.automations.get? id = some a

variable {t u : Tracker} {heed : AutomationId → CrossingKey → Option Automation}

theorem Heeds.congr (heeds : t.Heeds heed) (watchers : u.watchers = t.watchers)
    (automations : u.automations = t.automations) : u.Heeds heed := by
  obtain ⟨nodup_keys, nodup, mem_iff, kept⟩ := heeds
  unfold watchersOf at nodup mem_iff
  rw [← watchers] at nodup_keys nodup mem_iff
  rw [← automations] at kept
  exact ⟨nodup_keys, nodup, mem_iff, kept⟩

/-! ### Forgetting an automation -/

theorem watchersOf_unwatch (nodup : t.watchers.keys.Nodup) (id : AutomationId) (key : CrossingKey) :
    (t.unwatch id).2.watchersOf key = (t.watchersOf key).filter fun a => a ≠ id :=
  Table.getD_get?_thin nodup _ key

theorem Heeds.unwatch (heeds : t.Heeds heed) (id : AutomationId) :
    (t.unwatch id).2.Heeds fun other key => if id = other then none else heed other key where
  nodup_keys := Table.nodup_keys_thin heeds.nodup_keys _
  nodup key := by
    rw [watchersOf_unwatch heeds.nodup_keys]
    exact (heeds.nodup key).filter _
  mem_iff := by
    intro other key
    rw [watchersOf_unwatch heeds.nodup_keys, List.mem_filter, heeds.mem_iff]
    by_cases own : id = other
    · simp [own]
    · simp [own, Ne.symm own]
  kept := by
    intro other key a found
    split at found
    · cases found
    · next own =>
      have still : (t.unwatch id).2.automations.get? other = t.automations.get? other := by
        refine (Table.get?_erase _ _ _).trans ?_
        rw [if_neg (Ne.symm own)]
      rw [still]
      exact heeds.kept found

/-! ### Deleting a geofence -/

theorem get?_watchers_delete {id : GeofenceId} {g : Geofence} (stands : t.fences.get? id = some g)
    (key : CrossingKey) : (t.delete id).2.watchers.get? key =
      if key.fence = id then none else t.watchers.get? key := by
  have looked := Table.get?_filter_keys t.watchers (fun key => decide (key.fence ≠ id)) key
  simp only [delete, stands, looked]
  by_cases here : key.fence = id <;> simp [here]

theorem watchersOf_delete {id : GeofenceId} {g : Geofence} (stands : t.fences.get? id = some g)
    (key : CrossingKey) :
    (t.delete id).2.watchersOf key = if key.fence = id then [] else t.watchersOf key := by
  rw [watchersOf, get?_watchers_delete stands]
  split
  · rfl
  · rfl

/-- Those who still wait for a crossing are kept, and nobody else. -/
theorem automations_delete {id : GeofenceId} {g : Geofence} (stands : t.fences.get? id = some g)
    (nodup : t.watchers.keys.Nodup) {a : AutomationId} {kept : Automation} :
    (t.delete id).2.automations.get? a = some kept ↔
      (∃ key, a ∈ (t.delete id).2.watchersOf key) ∧ t.automations.get? a = some kept := by
  have left : (t.delete id).2.watchers.keys.Nodup := by
    simp only [delete, stands]
    exact Table.nodup_keys_filter nodup _
  have waits : a ∈ (t.delete id).2.watchers.values.flatten ↔
      ∃ key, a ∈ (t.delete id).2.watchersOf key := by
    simp only [Table.mem_flatten_values_iff left, mem_watchersOf_iff]
  have filtered : (t.delete id).2.automations.get? a =
      if a ∈ (t.delete id).2.watchers.values.flatten then t.automations.get? a else none := by
    simp only [delete, stands, Table.get?_filter_keys, List.contains_iff_mem]
  rw [filtered, ← waits]
  split
  · next listed => simp only [listed, true_and]
  · next absent => simp only [absent, false_and, reduceCtorEq]

theorem Heeds.delete (heeds : t.Heeds heed) {id : GeofenceId} {g : Geofence}
    (stands : t.fences.get? id = some g) :
    (t.delete id).2.Heeds fun a key => if id = key.fence then none else heed a key := by
  have mem {a : AutomationId} {key : CrossingKey} : a ∈ (t.delete id).2.watchersOf key ↔
      (if id = key.fence then none else heed a key).isSome = true := by
    rw [watchersOf_delete stands]
    by_cases here : id = key.fence
    · simp [here]
    · simp [here, Ne.symm here, heeds.mem_iff]
  refine ⟨?_, ?_, mem, ?_⟩
  · simp only [Tracker.delete, stands]
    exact Table.nodup_keys_filter heeds.nodup_keys _
  · intro key
    rw [watchersOf_delete stands]
    split
    · exact .nil
    · exact heeds.nodup key
  · intro a key x found
    have waits : a ∈ (t.delete id).2.watchersOf key := mem.2 (found ▸ rfl)
    split at found
    · cases found
    · exact (automations_delete stands heeds.nodup_keys).2 ⟨⟨key, waits⟩, heeds.kept found⟩

/-! ### Watching an automation -/

theorem foldl_addWatcher (id : AutomationId) (keys : List CrossingKey)
    (watchers : Table CrossingKey (List AutomationId)) (key : CrossingKey) :
    ((keys.foldl (addWatcher id) watchers).get? key).getD [] =
      if key ∈ keys ∧ id ∉ (watchers.get? key).getD [] then (watchers.get? key).getD [] ++ [id]
      else (watchers.get? key).getD [] := by
  induction keys generalizing watchers with
  | nil => simp
  | cons first rest ih =>
    rw [List.foldl_cons, ih, addWatcher, Table.get?_insert]
    -- A crossing that comes again finds the automation there already.
    by_cases here : key = first
    · subst here
      by_cases present : id ∈ (watchers.get? key).getD []
      · simp [present]
      · simp [present]
    · simp [here]

theorem nodup_keys_foldl_addWatcher (id : AutomationId) (keys : List CrossingKey)
    {watchers : Table CrossingKey (List AutomationId)} (nodup : watchers.keys.Nodup) :
    (keys.foldl (addWatcher id) watchers).keys.Nodup := by
  induction keys generalizing watchers with
  | nil => exact nodup
  | cons first rest ih => exact ih (Table.nodup_keys_insert nodup _ _)

/-- Whether an automation waits for a crossing once it is watched. -/
def awaits (a : Automation) (key : CrossingKey) : Bool := a.enabled && (crossingsOf a).contains key

theorem watch_of_idle {a : Automation} (idle : (!a.enabled || (crossingsOf a).isEmpty) = true)
    (t : Tracker) : (t.watch a).2 = (t.unwatch a.id).2 := by
  simp only [watch, idle, ↓reduceIte]

theorem watch_of_not_idle {a : Automation} (busy : (!a.enabled || (crossingsOf a).isEmpty) = false)
    (t : Tracker) : (t.watch a).2 = { (t.unwatch a.id).2 with
      watchers := (crossingsOf a).foldl (addWatcher a.id) (t.unwatch a.id).2.watchers
      automations := (t.unwatch a.id).2.automations.insert a.id a } := by
  simp only [watch, busy, Bool.false_eq_true, ↓reduceIte]

theorem idle_iff {a : Automation} :
    (!a.enabled || (crossingsOf a).isEmpty) = true ↔ ∀ key, awaits a key = false := by
  unfold awaits
  cases a.enabled with
  | false => simp
  | true => simp [List.eq_nil_iff_forall_not_mem]

/-- A watched automation stands last in the lists of the crossings that it waits for, and in no
other. -/
theorem watchersOf_watch (nodup : t.watchers.keys.Nodup) (a : Automation) (key : CrossingKey) :
    (t.watch a).2.watchersOf key =
      ((t.watchersOf key).filter fun id => id ≠ a.id) ++ if awaits a key then [a.id] else [] := by
  rw [← watchersOf_unwatch nodup]
  cases idle : !a.enabled || (crossingsOf a).isEmpty with
  | true => simp [watch_of_idle idle, idle_iff.1 idle key]
  | false =>
    -- Forgotten first, the automation stands in no list yet, so it comes into none twice.
    have absent : a.id ∉ (t.unwatch a.id).2.watchersOf key := by
      simp [watchersOf_unwatch nodup]
    have enabled : a.enabled = true := by simpa using (Bool.or_eq_false_iff.1 idle).1
    rw [watch_of_not_idle idle]
    refine (foldl_addWatcher _ _ _ _).trans ?_
    unfold watchersOf at absent ⊢
    by_cases named : key ∈ crossingsOf a <;> simp [awaits, enabled, named, absent]

theorem automations_watch (t : Tracker) (a : Automation) (id : AutomationId) :
    (t.watch a).2.automations.get? id =
      if id = a.id then if !a.enabled || (crossingsOf a).isEmpty then none else some a
      else t.automations.get? id := by
  have forgotten : (t.unwatch a.id).2.automations.get? id =
      if id = a.id then none else t.automations.get? id := Table.get?_erase _ _ _
  cases idle : !a.enabled || (crossingsOf a).isEmpty with
  | true => rw [watch_of_idle idle, forgotten, if_pos rfl]
  | false =>
    rw [watch_of_not_idle idle]
    refine (Table.get?_insert _ _ _ _).trans ?_
    rw [forgotten]
    by_cases own : id = a.id <;> simp [own]

theorem nodup_keys_watch (nodup : t.watchers.keys.Nodup) (a : Automation) :
    (t.watch a).2.watchers.keys.Nodup := by
  have forgotten : (t.unwatch a.id).2.watchers.keys.Nodup := Table.nodup_keys_thin nodup _
  cases idle : !a.enabled || (crossingsOf a).isEmpty with
  | true => rwa [watch_of_idle idle]
  | false =>
    rw [watch_of_not_idle idle]
    exact nodup_keys_foldl_addWatcher _ _ forgotten

/-- A watched automation waits for the crossings that it names, and for no others. -/
theorem Heeds.watch (heeds : t.Heeds heed) (a : Automation) :
    (t.watch a).2.Heeds fun id key =>
      if a.id = id then if a.enabled ∧ key ∈ crossingsOf a then some a else none
      else heed id key where
  nodup_keys := nodup_keys_watch heeds.nodup_keys a
  nodup key := by
    rw [watchersOf_watch heeds.nodup_keys]
    refine List.Nodup.append ((heeds.nodup key).filter _) ?_ ?_
    · split <;> simp
    · intro id before after
      split at after <;> simp_all
  mem_iff := by
    intro id key
    rw [watchersOf_watch heeds.nodup_keys, List.mem_append, List.mem_filter, heeds.mem_iff]
    by_cases own : a.id = id
    · subst own
      by_cases named : a.enabled = true ∧ key ∈ crossingsOf a
      · simp [awaits, named]
      · have idle : awaits a key = false := by simpa [awaits] using named
        simp [named, idle]
    · split <;> simp [Ne.symm own]
  kept := by
    intro id key x found
    rw [automations_watch]
    by_cases own : a.id = id
    · subst own
      simp only [↓reduceIte] at found ⊢
      split at found
      · next named =>
        -- An automation that names a crossing is not idle.
        simpa [named.1, List.ne_nil_of_mem named.2] using found
      · cases found
    · rw [if_neg own] at found
      rw [if_neg (Ne.symm own)]
      exact heeds.kept found

/-! ### Over a whole run -/

variable {config : TrackerConfig} {past : Chronicle}

theorem fences_of_chronicled (chronicled : Chronicled config t past) (id : GeofenceId) :
    (fenceOf id past).isSome = (t.fences.get? id).isSome := by
  rw [(chronicled.told id).1, Option.isSome_map]
  cases absent : t.knownOf id with
  | none =>
    rw [chronicled.consistent.knownOf_eq_none_iff.1 absent]
    rfl
  | some known =>
    rw [(knownOf_eq_some_iff.1 absent).1]
    rfl

theorem watchers_of_fix (config : TrackerConfig) (t : Tracker) (l : Location) :
    (t.apply config l).2.2.watchers = t.watchers ∧
    (t.apply config l).2.2.automations = t.automations := by
  obtain ⟨-, -, automations, watchers⟩ := record_others t config l
  cases accepted : accepts config l with
  | false =>
    rw [apply_of_not_accepts accepted]
    exact ⟨watchers, automations⟩
  | true =>
    rw [(apply_of_accepts accepted t).2]
    exact ⟨watchers, automations⟩

theorem watchers_of_insert (t : Tracker) (g : Geofence) :
    (t.insert g).2.watchers = t.watchers ∧ (t.insert g).2.automations = t.automations := by
  unfold insert
  split
  · exact ⟨rfl, rfl⟩
  · exact ⟨rfl, rfl⟩

theorem watchers_of_update (t : Tracker) (id : GeofenceId) (u : Geofence.Update) :
    (t.update id u).2.watchers = t.watchers ∧ (t.update id u).2.automations = t.automations := by
  unfold update
  split
  · exact ⟨rfl, rfl⟩
  · split
    · exact ⟨rfl, rfl⟩
    · exact ⟨rfl, rfl⟩

/-- At every moment the index says what is heeded. -/
theorem Chronicled.heeds (chronicled : Chronicled config t past) :
    t.Heeds fun id key => heeded id key past := by
  induction chronicled with
  | empty => exact ⟨.nil, fun _ => .nil, ⟨nofun, nofun⟩, nofun⟩
  | @event t past before e ih =>
    cases e with
    | create id created name center radius =>
      rw [TrackerEvent.apply, create_snd]
      exact ih.congr (watchers_of_insert t _).1 (watchers_of_insert t _).2
    | insert g => exact ih.congr (watchers_of_insert t g).1 (watchers_of_insert t g).2
    | update id u => exact ih.congr (watchers_of_update t id u).1 (watchers_of_update t id u).2
    | delete id =>
      -- A geofence that does not stand cannot be deleted, so nobody forgets it.
      have known := fences_of_chronicled before id
      simp only [heeded, known]
      cases stands : t.fences.get? id with
      | none =>
        have same : (t.delete id).2 = t := by simp only [delete, stands]
        simpa [TrackerEvent.apply, same] using ih
      | some g => simpa [TrackerEvent.apply] using ih.delete stands
    | watch a => exact ih.watch a
    | unwatch id => exact ih.unwatch id
    | fix l => exact ih.congr (watchers_of_fix config t l).1 (watchers_of_fix config t l).2
  | reorder _ _ ih => exact ih.congr rfl rfl

/-! ### What a fix runs -/

theorem Heeds.filter_waiting (heeds : t.Heeds heed)
    (named : ∀ {id key a}, heed id key = some a → a.id = id) (id : AutomationId) (s : Transition) :
    (t.waiting s).filter (fun run => run.1.id = id) =
      ((heed id ⟨s.fence, s.crossing⟩).map fun a => (a, s)).toList := by
  let key : CrossingKey := ⟨s.fence, s.crossing⟩
  have known {i : AutomationId} (waits : i ∈ t.watchersOf key) :
      ∃ a, t.automations.get? i = some a ∧ heed i key = some a ∧ a.id = i := by
    obtain ⟨a, heeded⟩ := Option.isSome_iff_exists.1 (heeds.mem_iff.1 waits)
    exact ⟨a, heeds.kept heeded, heeded, named heeded⟩
  have own : (t.waiting s).filter (fun run => run.1.id = id) =
      ((t.watchersOf key).filter fun i => i = id).filterMap fun i =>
        (heed i key).map fun a => (a, s) := by
    rw [waiting, List.filter_filterMap, List.filterMap_filter]
    refine List.filterMap_congr ?_
    intro i waits
    obtain ⟨a, found, heeded, called⟩ := known waits
    by_cases here : i = id
    · subst here
      simp [found, heeded, called]
    · simp [found, called, here]
  -- What a list without repetitions has of one automation is that automation or nothing.
  rw [own, List.filter_eq]
  by_cases waits : id ∈ t.watchersOf key
  · obtain ⟨a, -, heeded, -⟩ := known waits
    rw [List.count_eq_one_of_mem (heeds.nodup key) waits]
    simp [key, heeded]
  · have nothing : heed id key = none := by simpa [heeds.mem_iff] using waits
    rw [List.count_eq_zero_of_not_mem waits]
    simp [key, nothing]

/-- What a fix is to run of an automation is, for each crossing that it shows and that the automation
heeds, the automation as it was watched last. -/
theorem Chronicled.filter_runs (chronicled : Chronicled config t past) (l : Location)
    (id : AutomationId) :
    (t.apply config l).2.1.filter (fun run => run.1.id = id) =
      (t.apply config l).1.filterMap fun s =>
        (heeded id ⟨s.fence, s.crossing⟩ past).map fun a => (a, s) := by
  cases accepted : accepts config l with
  | false =>
    rw [apply_of_not_accepts accepted]
    rfl
  | true =>
    -- The index that is asked is that of the tracker after the fix, which is the one before it.
    have after := chronicled.heeds.congr (watchers_of_fix config t l).1 (watchers_of_fix config t l).2
    have runs : (t.apply config l).2.1 =
        (t.apply config l).1.flatMap (t.apply config l).2.2.waiting := by
      simp only [Tracker.apply, accepted, Bool.not_true, Bool.false_eq_true, ↓reduceIte]
    rw [runs, List.filter_flatMap, List.filterMap_eq_flatMap_toList]
    simp only [after.filter_waiting id_of_heeded]

end Tracker

end Hearth

import Hearth.Proofs.Tracking.Fences

/-!
# Hearth.Proofs.Tracking.Sight

What the geofences make of a position fix. They are visited one after another, but none of them looks
at the others.

## Main definitions

`Tracker.glimpse`: what one geofence learns from a fix.
`Tracker.sight`: the same if the fix is accurate enough.

## Main result

`Tracker.Consistent.fix`: of each geofence a tracker learns what the geofence makes out alone.
-/

namespace Hearth.Tracker

/-- The crossing that an enabled geofence makes out in a fix, and what is known about it then. -/
def glimpse (l : Location) (g : Geofence) (c : Containment) : Option Transition × Containment :=
  if g.enabled then
    let (crossing, c) := c.observe (g.contains l.point) l.timestamp
    (crossing.map fun crossing =>
      { fence := g.id, name := g.name, crossing, location := l, distance := g.distanceTo l.point }, c)
  else (none, c)

/-- What a fix shows at a geofence and makes known about it. One that is not accurate enough does
nothing. -/
def sight (config : TrackerConfig) (l : Location) (known : Option (Geofence × Containment)) :
    Option Transition × Option (Geofence × Containment) :=
  match known with
  | none => (none, none)
  | some (g, c) =>
    if accepts config l then ((glimpse l g c).1, some (g, (glimpse l g c).2)) else (none, some (g, c))

variable {config : TrackerConfig} {t : Tracker} {id : GeofenceId}

theorem fence_of_glimpse {l : Location} {g : Geofence} {c : Containment} {seen : Transition}
    (shown : (glimpse l g c).1 = some seen) : seen.fence = g.id := by
  unfold glimpse at shown
  split at shown
  · obtain ⟨crossing, -, rfl⟩ := Option.map_eq_some_iff.1 shown
    rfl
  · cases shown

theorem observe_eq (l : Location) (state : List Transition × Table GeofenceId Containment)
    {g : Geofence} {c : Containment} (known : state.2.get? g.id = some c) :
    (observe l state g).1 = state.1 ++ (glimpse l g c).1.toList ∧
    ∀ id, (observe l state g).2.get? id =
      if id = g.id then some (glimpse l g c).2 else state.2.get? id := by
  obtain ⟨transitions, containment⟩ := state
  unfold observe glimpse
  cases enabled : g.enabled with
  | false =>
    refine ⟨by simp, ?_⟩
    intro id
    by_cases here : id = g.id
    · simpa [here] using known
    · simp [here]
  | true =>
    have looked : containment.get? g.id = some c := known
    -- The distance is compared in place here, just as `contains` compares it.
    have shown : (Containment.observe c (decide (g.distanceTo l.point ≤ g.radius)) l.timestamp) =
        c.observe (g.contains l.point) l.timestamp := rfl
    simp only [Bool.not_true, Bool.false_eq_true, ↓reduceIte, looked, Option.getD_some, shown]
    cases crossing : (c.observe (g.contains l.point) l.timestamp).1 with
    | none => exact ⟨by simp, fun id => Table.get?_insert _ _ _ _⟩
    | some k => exact ⟨by simp, fun id => Table.get?_insert _ _ _ _⟩

/-- The crossings of one geofence in a list. -/
def shownAt (id : GeofenceId) (transitions : List Transition) : List Transition :=
  transitions.filter fun s => s.fence = id

theorem shownAt_glimpse (l : Location) (g : Geofence) (c : Containment) (id : GeofenceId) :
    shownAt id (glimpse l g c).1.toList = if g.id = id then (glimpse l g c).1.toList else [] := by
  unfold shownAt
  cases shown : (glimpse l g c).1 with
  | none => simp
  | some seen =>
    have own := fence_of_glimpse shown
    by_cases here : g.id = id <;> simp [own, here]

variable {l : Location}

/-- Geofences with other identifiers do not matter. -/
theorem foldl_observe_absent {gs : List Geofence} (absent : id ∉ gs.map Geofence.id)
    (state : List Transition × Table GeofenceId Containment)
    (known : ∀ g ∈ gs, (state.2.get? g.id).isSome = true) :
    shownAt id (gs.foldl (observe l) state).1 = shownAt id state.1 ∧
    (gs.foldl (observe l) state).2.get? id = state.2.get? id := by
  induction gs generalizing state with
  | nil => exact ⟨rfl, rfl⟩
  | cons g rest ih =>
    rw [List.map_cons, List.mem_cons, not_or] at absent
    obtain ⟨first, others⟩ := List.forall_mem_cons.1 known
    obtain ⟨c, found⟩ := Option.isSome_iff_exists.1 first
    obtain ⟨shown, looked⟩ := observe_eq l state found
    -- No visit makes void what is known about the geofences still to come.
    have knownAfter : ∀ h ∈ rest, ((observe l state g).2.get? h.id).isSome = true := by
      intro h member
      rw [looked]
      split
      · rfl
      · exact others h member
    obtain ⟨shownAfter, lookedAfter⟩ := ih absent.2 _ knownAfter
    rw [List.foldl_cons]
    constructor
    · rw [shownAfter, shown, shownAt, List.filter_append, ← shownAt, ← shownAt, shownAt_glimpse,
        if_neg (Ne.symm absent.1), List.append_nil]
    · rw [lookedAfter, looked, if_neg absent.1]

/-- A geofence among others makes out what it would make out alone. -/
theorem foldl_observe_mem {gs : List Geofence} (distinct : (gs.map Geofence.id).Nodup)
    {g : Geofence} (member : g ∈ gs) (state : List Transition × Table GeofenceId Containment)
    (known : ∀ h ∈ gs, (state.2.get? h.id).isSome = true) {c : Containment}
    (found : state.2.get? g.id = some c) :
    shownAt g.id (gs.foldl (observe l) state).1 = shownAt g.id state.1 ++ (glimpse l g c).1.toList ∧
    (gs.foldl (observe l) state).2.get? g.id = some (glimpse l g c).2 := by
  induction gs generalizing state with
  | nil => exact absurd member List.not_mem_nil
  | cons h rest ih =>
    rw [List.map_cons, List.nodup_cons] at distinct
    obtain ⟨first, others⟩ := List.forall_mem_cons.1 known
    obtain ⟨d, foundFirst⟩ := Option.isSome_iff_exists.1 first
    obtain ⟨shown, looked⟩ := observe_eq l state foundFirst
    have knownAfter : ∀ h' ∈ rest, ((observe l state h).2.get? h'.id).isSome = true := by
      intro h' later
      rw [looked]
      split
      · rfl
      · exact others h' later
    rw [List.foldl_cons]
    rcases List.mem_cons.1 member with rfl | later
    · -- The geofence itself comes first; those behind it have other identifiers.
      obtain rfl : c = d := Option.some.inj (found.symm.trans foundFirst)
      obtain ⟨shownAfter, lookedAfter⟩ := foldl_observe_absent (l := l) distinct.1 _ knownAfter
      constructor
      · rw [shownAfter, shown, shownAt, List.filter_append, ← shownAt, ← shownAt, shownAt_glimpse,
          if_pos rfl]
      · rw [lookedAfter, looked, if_pos rfl]
    · have other : h.id ≠ g.id := fun same => distinct.1 (same ▸ List.mem_map_of_mem later)
      have foundAfter : (observe l state h).2.get? g.id = some c := by
        rw [looked, if_neg (Ne.symm other), found]
      obtain ⟨shownAfter, lookedAfter⟩ := ih distinct.2 later _ knownAfter foundAfter
      refine ⟨?_, lookedAfter⟩
      rw [shownAfter, shown, shownAt, List.filter_append, ← shownAt, ← shownAt, shownAt_glimpse,
        if_neg other, List.append_nil]

theorem Consistent.mem_values_iff (consistent : t.Consistent) {g : Geofence} :
    g ∈ t.fences.values ↔ t.fences.get? g.id = some g := by
  simp only [Table.values, List.mem_map, Prod.exists, exists_eq_right]
  constructor
  · rintro ⟨id, member⟩
    have found := (Table.get?_eq_some_iff consistent.nodup).2 member
    rwa [consistent.named found]
  · intro found
    exact ⟨g.id, (Table.get?_eq_some_iff consistent.nodup).1 found⟩

theorem Consistent.nodup_ids (consistent : t.Consistent) :
    (t.fences.values.map Geofence.id).Nodup := by
  have same : t.fences.values.map Geofence.id = t.fences.keys := by
    rw [Table.values, Table.keys, List.map_map]
    refine List.map_congr_left ?_
    rintro ⟨id, g⟩ member
    exact consistent.named ((Table.get?_eq_some_iff consistent.nodup).2 member)
  rw [same]
  exact consistent.nodup

theorem record_others (t : Tracker) (config : TrackerConfig) (l : Location) :
    (t.record config l).fences = t.fences ∧ (t.record config l).containment = t.containment ∧
    (t.record config l).automations = t.automations ∧
    (t.record config l).watchers = t.watchers := by
  unfold record
  split
  · exact ⟨rfl, rfl, rfl, rfl⟩
  · exact ⟨rfl, rfl, rfl, rfl⟩

theorem apply_of_not_accepts (refused : accepts config l = false) (t : Tracker) :
    t.apply config l = ([], [], t.record config l) := by
  simp only [Tracker.apply, refused, Bool.not_false, ↓reduceIte]

/-- What an accurate fix shows, and what is known about the geofences then. -/
theorem apply_of_accepts (accepted : accepts config l = true) (t : Tracker) :
    (t.apply config l).1 = (t.fences.values.foldl (observe l) ([], t.containment)).1 ∧
    (t.apply config l).2.2 = { t.record config l with
      containment := (t.fences.values.foldl (observe l) ([], t.containment)).2 } := by
  obtain ⟨fences, containment, -, -⟩ := record_others t config l
  simp only [Tracker.apply, accepted, Bool.not_true, Bool.false_eq_true, ↓reduceIte, fences,
    containment, and_self]

theorem Consistent.known_values (consistent : t.Consistent) :
    ∀ g ∈ t.fences.values, (t.containment.get? g.id).isSome = true := by
  intro g member
  rw [consistent.known, consistent.mem_values_iff.1 member]
  rfl

theorem Consistent.fix (consistent : t.Consistent) (l : Location) :
    (t.apply config l).2.2.Consistent ∧ ∀ id,
      shownAt id (t.apply config l).1 = (sight config l (t.knownOf id)).1.toList ∧
      (t.apply config l).2.2.knownOf id = (sight config l (t.knownOf id)).2 := by
  obtain ⟨fences, containment, -, -⟩ := record_others t config l
  cases accepted : accepts config l with
  | false =>
    rw [apply_of_not_accepts accepted]
    refine ⟨consistent.congr fences (by simp [containment]), ?_⟩
    intro id
    -- A fix that is refused only goes on record.
    have same : (t.record config l).knownOf id = t.knownOf id :=
      knownOf_congr (by rw [fences]) (by rw [containment])
    rw [same]
    cases t.knownOf id with
    | none => exact ⟨rfl, rfl⟩
    | some known =>
      simp only [sight, accepted]
      exact ⟨rfl, rfl⟩
  | true =>
    obtain ⟨shown, after⟩ := apply_of_accepts accepted t
    have known := consistent.known_values
    have fencesAfter : (t.apply config l).2.2.fences = t.fences := by
      rw [after]
      exact fences
    have containmentAfter : (t.apply config l).2.2.containment =
        (t.fences.values.foldl (observe l) ([], t.containment)).2 := by
      rw [after]
    -- A geofence that stands is visited once, and one that does not is not visited.
    have absent {id : GeofenceId} (nowhere : t.fences.get? id = none) :
        id ∉ t.fences.values.map Geofence.id := by
      intro present
      obtain ⟨g, member, rfl⟩ := List.mem_map.1 present
      exact absurd (nowhere.symm.trans (consistent.mem_values_iff.1 member)) nofun
    constructor
    · refine consistent.congr fencesAfter ?_
      intro id
      rw [containmentAfter]
      cases here : t.fences.get? id with
      | none => rw [(foldl_observe_absent (absent here) _ known).2]
      | some g =>
        obtain rfl : g.id = id := consistent.named here
        have member := consistent.mem_values_iff.2 here
        obtain ⟨c, found⟩ := Option.isSome_iff_exists.1 (known g member)
        rw [(foldl_observe_mem consistent.nodup_ids member _ known found).2, found]
        rfl
    · intro id
      cases here : t.fences.get? id with
      | none =>
        rw [consistent.knownOf_eq_none_iff.2 here, shown, (foldl_observe_absent (absent here) _ known).1]
        refine ⟨rfl, ?_⟩
        rw [knownOf, fencesAfter, here]
        rfl
      | some g =>
        obtain rfl : g.id = id := consistent.named here
        have member := consistent.mem_values_iff.2 here
        obtain ⟨c, found⟩ := Option.isSome_iff_exists.1 (known g member)
        obtain ⟨same, looked⟩ := foldl_observe_mem (l := l) consistent.nodup_ids member
          ([], t.containment) known found
        rw [knownOf_eq_some_iff.2 ⟨here, found⟩, shown, same, sight, if_pos accepted]
        refine ⟨rfl, knownOf_eq_some_iff.2 ⟨?_, ?_⟩⟩
        · rw [fencesAfter, here]
        · rw [containmentAfter, looked]

end Hearth.Tracker

import Hearth.Proofs.Number.Order
import Hearth.Proofs.Tracking.Chronicle

/-!
# Hearth.Proofs.Tracking.Crossings

What is known about a geofence, told from its stretch: the events since it was entered, moved or
resized last.

## Main definitions

`stretch`: the stretch of a geofence.
`sightings`: whether the person was inside, fix by fix, as far as the geofence looked.
`crossings`: the crossings that were shown.

## Main result

`Tracker.Chronicled.containment_reflects`: the crossings are in turn entries and departures, and the tracker
knows the last sighting, the last entry and the last departure.
-/

namespace Hearth

namespace TrackerEvent

/-- The geofence that stands under an identifier after an event. -/
def leaves (id : GeofenceId) (e : TrackerEvent) (before : Option Geofence) : Option Geofence :=
  match e with
  | .update i u => if i = id then before.map fun g => (u.apply g).toOption.getD g else before
  | .delete i => if i = id then none else before
  | _ => (e.entered? id).or before

/-- Whether an event makes all that is known about a geofence void: the geofence is entered, or it
gets another place or size. -/
def resets (id : GeofenceId) (e : TrackerEvent) (before : Option Geofence) : Bool :=
  match e with
  | .update i u => i = id && before.any fun g => (u.apply g).toOption.any g.isMoved
  | _ => (e.entered? id).isSome

end TrackerEvent

/-- The geofence that stands under an identifier. -/
def fenceOf (id : GeofenceId) : Chronicle → Option Geofence
  | [] => none
  | (e, _) :: past => e.leaves id (fenceOf id past)

/-- One event of a stretch. -/
structure Episode where
  /-- The geofence as the event found it. -/
  fence : Option Geofence
  event : TrackerEvent
  shown : List Transition

/-- The events since a geofence was reset, from the oldest to the newest. -/
def stretch (id : GeofenceId) : Chronicle → List Episode
  | [] => []
  | (e, shown) :: past =>
    -- The event that resets is not itself part of the stretch that it begins.
    if e.resets id (fenceOf id past) then []
    else stretch id past ++ [{ fence := fenceOf id past, event := e, shown }]

/-- What a geofence makes of an event: whether the person is inside, and when. It looks only at
fixes that are accurate enough, and only while it is enabled. -/
def Episode.sighting? (config : TrackerConfig) (p : Episode) : Option (Bool × Instant) :=
  match p.event, p.fence with
  | .fix l, some g =>
    if g.enabled && Tracker.accepts config l then some (g.contains l.point, l.timestamp) else none
  | _, _ => none

def sightings (config : TrackerConfig) (id : GeofenceId) (past : Chronicle) :
    List (Bool × Instant) :=
  (stretch id past).filterMap (Episode.sighting? config)

def crossings (id : GeofenceId) (past : Chronicle) : List Transition :=
  (stretch id past).flatMap fun p => Tracker.shownAt id p.shown

/-- The time of the last crossing of a kind: that of the fix which showed it. -/
def lastTime (k : Crossing) (shown : List Transition) : Option Instant :=
  ((shown.filter fun s => s.crossing = k).getLast?).map fun s => s.location.timestamp

/-- The kinds of crossings as they must follow one another: entries and departures in turn. -/
def Alternate (shown : List Transition) : Prop :=
  ∀ i s, shown[i]? = some s → s.crossing = if i % 2 = 0 then .enter else .leave

/-- What is known about a geofence is what the sightings and the crossings tell. -/
structure Reflects (c : Containment) (seen : List (Bool × Instant)) (shown : List Transition) :
    Prop where
  inside : c.inside = seen.getLast?.map Prod.fst
  lastUpdate : c.lastUpdate = seen.getLast?.map Prod.snd
  enteredAt : c.enteredAt = lastTime .enter shown
  leftAt : c.leftAt = lastTime .leave shown
  alternate : Alternate shown
  /-- Someone inside has entered once more than left. -/
  phase : c.inside = some true ↔ shown.length % 2 = 1

theorem lastTime_concat (k : Crossing) (shown : List Transition) (s : Transition) :
    lastTime k (shown ++ [s]) =
      if s.crossing = k then some s.location.timestamp else lastTime k shown := by
  unfold lastTime
  rw [List.filter_append]
  by_cases same : s.crossing = k <;> simp [same]

theorem Alternate.concat {shown : List Transition} (alternate : Alternate shown) {s : Transition}
    (turn : s.crossing = if shown.length % 2 = 0 then .enter else .leave) :
    Alternate (shown ++ [s]) := by
  intro i t found
  rcases Nat.lt_trichotomy i shown.length with before | last | beyond
  · rw [List.getElem?_append_left before] at found
    exact alternate i t found
  · rw [last, List.getElem?_concat_length] at found
    cases found
    rw [last, turn]
  · rw [List.getElem?_eq_none (by simp; omega)] at found
    cases found

theorem Alternate.enter_of_leave {shown : List Transition} (alternate : Alternate shown)
    (left : (lastTime .leave shown).isSome) : (lastTime .enter shown).isSome := by
  have some_of_mem {k : Crossing} (s : Transition) (member : s ∈ shown) (kind : s.crossing = k) :
      (lastTime k shown).isSome := by
    have kept : s ∈ shown.filter fun s => s.crossing = k := by simp [member, kind]
    rw [lastTime, Option.isSome_map, List.getLast?_isSome]
    exact List.ne_nil_of_mem kept
  -- Whoever leaves is not the first; the first enters.
  cases shown with
  | nil => cases left
  | cons first rest => exact some_of_mem first List.mem_cons_self (alternate 0 first rfl)

namespace Reflects

variable {c : Containment} {seen : List (Bool × Instant)} {shown : List Transition}

theorem unknown (id : GeofenceId) : Reflects (.unknown id) [] [] where
  inside := rfl
  lastUpdate := rfl
  enteredAt := rfl
  leftAt := rfl
  alternate := nofun
  phase := by simp [Containment.unknown]

/-- A sighting that is no crossing. -/
theorem stay (reflects : Reflects c seen shown) {inside : Bool} {time : Instant}
    (same : c.inside = some inside ∨ c.inside = none ∧ inside = false) :
    Reflects { c with inside := some inside, lastUpdate := some time } (seen ++ [(inside, time)])
      shown where
  inside := by simp
  lastUpdate := by simp
  enteredAt := reflects.enteredAt
  leftAt := reflects.leftAt
  alternate := reflects.alternate
  phase := by
    rw [← reflects.phase]
    rcases same with same | ⟨nothing, rfl⟩
    · rw [same]
    · simp [nothing]

theorem enter (reflects : Reflects c seen shown) (outside : c.inside ≠ some true) (s : Transition)
    (kind : s.crossing = .enter) {time : Instant} (timed : s.location.timestamp = time) :
    Reflects { c with inside := some true, lastUpdate := some time, enteredAt := some time }
      (seen ++ [(true, time)]) (shown ++ [s]) := by
  -- Whoever is outside has left as often as entered, so that an entry is next.
  have turn : shown.length % 2 = 0 := by
    have odd := (not_congr reflects.phase).1 outside
    omega
  refine ⟨by simp, by simp, ?_, ?_, ?_, ?_⟩
  · rw [lastTime_concat, if_pos kind, timed]
  · rw [lastTime_concat, kind, if_neg nofun]
    exact reflects.leftAt
  · exact reflects.alternate.concat (by rw [kind, if_pos turn])
  · simp only [List.length_append, List.length_singleton, true_iff]
    omega

theorem leave (reflects : Reflects c seen shown) (inside : c.inside = some true) (s : Transition)
    (kind : s.crossing = .leave) {time : Instant} (timed : s.location.timestamp = time) :
    Reflects { c with inside := some false, lastUpdate := some time, leftAt := some time }
      (seen ++ [(false, time)]) (shown ++ [s]) := by
  -- Whoever is inside has entered once more, so that a departure is next.
  have turn : shown.length % 2 = 1 := reflects.phase.1 inside
  refine ⟨by simp, by simp, ?_, ?_, ?_, ?_⟩
  · rw [lastTime_concat, kind, if_neg nofun]
    exact reflects.enteredAt
  · rw [lastTime_concat, if_pos kind, timed]
  · exact reflects.alternate.concat (by rw [kind, if_neg (by omega)])
  · simp only [Option.some.injEq, Bool.false_eq_true, false_iff, List.length_append,
      List.length_singleton]
    omega

/-- What a geofence makes out in a fix goes on from what it knew. -/
theorem glimpse (reflects : Reflects c seen shown) (l : Location) {g : Geofence}
    (enabled : g.enabled = true) :
    Reflects (Tracker.glimpse l g c).2 (seen ++ [(g.contains l.point, l.timestamp)])
      (shown ++ (Tracker.glimpse l g c).1.toList) := by
  unfold Tracker.glimpse
  simp only [enabled, ↓reduceIte]
  unfold Containment.observe
  cases known : c.inside with
  | none =>
    cases g.contains l.point with
    | false => simpa using reflects.stay (.inr ⟨known, rfl⟩)
    | true => exact reflects.enter (by simp [known]) _ rfl rfl
  | some before =>
    cases before <;> cases g.contains l.point
    · simpa using reflects.stay (.inl known)
    · exact reflects.enter (by simp [known]) _ rfl rfl
    · exact reflects.leave known _ rfl rfl
    · simpa using reflects.stay (.inl known)

end Reflects

section Stretch

variable {config : TrackerConfig} {id : GeofenceId} {e : TrackerEvent} {shown : List Transition}
  {past : Chronicle} {before : Option (Geofence × Containment)} {known : Geofence × Containment}

theorem sightings_of_resets (resets : e.resets id (fenceOf id past) = true) :
    sightings config id ((e, shown) :: past) = [] := by
  simp [sightings, stretch, resets]

theorem crossings_of_resets (resets : e.resets id (fenceOf id past) = true) :
    crossings id ((e, shown) :: past) = [] := by
  simp [crossings, stretch, resets]

theorem sightings_of_not_resets (kept : e.resets id (fenceOf id past) = false) :
    sightings config id ((e, shown) :: past) = sightings config id past ++
      (Episode.sighting? config { fence := fenceOf id past, event := e, shown }).toList := by
  simp only [sightings, stretch, kept, Bool.false_eq_true, ↓reduceIte, List.filterMap_append]
  cases sighted : Episode.sighting? config { fence := fenceOf id past, event := e, shown } with
  | none => simp [sighted]
  | some s => simp [sighted]

theorem crossings_of_not_resets (kept : e.resets id (fenceOf id past) = false) :
    crossings id ((e, shown) :: past) = crossings id past ++ Tracker.shownAt id shown := by
  simp [crossings, stretch, kept]

theorem fst_affect (config : TrackerConfig) (id : GeofenceId) (e : TrackerEvent)
    (before : Option (Geofence × Containment)) :
    (e.affect config id before).2.map Prod.fst = e.leaves id (before.map Prod.fst) := by
  cases e with
  | update i u =>
    simp only [TrackerEvent.affect, TrackerEvent.leaves]
    split
    · cases before with
      | none => rfl
      | some known =>
        simp only [Option.map_some, Geofence.Update.revise]
        cases u.apply known.1 <;> rfl
    · rfl
  | delete i =>
    simp only [TrackerEvent.affect, TrackerEvent.leaves]
    split <;> rfl
  | fix l =>
    cases before with
    | none => rfl
    | some known =>
      simp only [TrackerEvent.affect, Tracker.sight]
      split <;> rfl
  | _ => simp [TrackerEvent.affect, TrackerEvent.leaves, Option.map_or, Function.comp_def]

/-- Nothing is known about a geofence that has been reset. -/
theorem affect_of_resets (resets : e.resets id (before.map Prod.fst) = true)
    (after : (e.affect config id before).2 = some known) : ∃ i, known.2 = .unknown i := by
  -- Only an update resets otherwise than by entering a geofence.
  have entered (given : ((e.entered? id).map fun g => (g, Containment.unknown id)).or before =
      some known) (entering : (e.entered? id).isSome = true) : ∃ i, known.2 = .unknown i := by
    obtain ⟨g, offered⟩ := Option.isSome_iff_exists.1 entering
    rw [offered] at given
    cases given
    exact ⟨id, rfl⟩
  cases e with
  | update i u =>
    cases before with
    | none => simp [TrackerEvent.resets] at resets
    | some old =>
      simp only [TrackerEvent.resets, Option.map_some, Option.any_some, Bool.and_eq_true,
        decide_eq_true_eq] at resets
      obtain ⟨own, moved⟩ := resets
      simp only [TrackerEvent.affect, own, ↓reduceIte, Option.map_some, Option.some.injEq] at after
      rw [← after, Geofence.Update.revise]
      cases applied : u.apply old.1 with
      | error fault => simp [applied, Except.toOption] at moved
      | ok changed =>
        simp only [applied, Except.toOption, Option.any_some] at moved
        exact ⟨changed.id, by simp [moved]⟩
  | delete i => cases resets
  | fix l => cases resets
  | _ => exact entered after resets

/-- What is known about a geofence does not change while it is neither reset nor shown a fix. -/
theorem affect_of_not_resets (unseen : ∀ l, e ≠ .fix l)
    (kept : e.resets id (before.map Prod.fst) = false)
    (after : (e.affect config id before).2 = some known) :
    (e.affect config id before).1 = none ∧ ∃ g, before = some (g, known.2) := by
  have absent (given : ((e.entered? id).map fun g => (g, Containment.unknown id)).or before =
      some known) (nothing : (e.entered? id).isSome = false) : ∃ g, before = some (g, known.2) := by
    rw [Option.isSome_eq_false_iff, Option.isNone_iff_eq_none] at nothing
    rw [nothing] at given
    exact ⟨known.1, given⟩
  cases e with
  | update i u =>
    refine ⟨rfl, ?_⟩
    simp only [TrackerEvent.affect] at after
    split at after
    · next own =>
      obtain ⟨old, rfl, revised⟩ := Option.map_eq_some_iff.1 after
      refine ⟨old.1, ?_⟩
      simp only [TrackerEvent.resets, own, decide_true, Bool.true_and, Option.map_some,
        Option.any_some] at kept
      rw [← revised, Geofence.Update.revise]
      cases applied : u.apply old.1 with
      | error fault => rfl
      | ok changed =>
        simp only [applied, Except.toOption, Option.any_some] at kept
        simp [kept]
    · exact ⟨known.1, after⟩
  | delete i =>
    refine ⟨rfl, known.1, ?_⟩
    simp only [TrackerEvent.affect] at after
    split at after
    · cases after
    · exact after
  | fix l => exact absurd rfl (unseen l)
  | _ => exact ⟨rfl, absent after kept⟩

/-- One event further, what is known still is what the stretch tells. -/
theorem Reflects.affect (stands : fenceOf id past = before.map Prod.fst)
    (reflects : ∀ k, before = some k →
      Reflects k.2 (sightings config id past) (crossings id past))
    (own : Tracker.shownAt id shown = (e.affect config id before).1.toList)
    (after : (e.affect config id before).2 = some known) :
    Reflects known.2 (sightings config id ((e, shown) :: past))
      (crossings id ((e, shown) :: past)) := by
  cases reset : e.resets id (fenceOf id past) with
  | true =>
    obtain ⟨i, nothing⟩ := affect_of_resets (stands ▸ reset) after
    rw [sightings_of_resets reset, crossings_of_resets reset, nothing]
    exact .unknown i
  | false =>
    rw [sightings_of_not_resets reset, crossings_of_not_resets reset, own]
    -- Nothing but a fix adds to the sightings or the crossings.
    by_cases seeing : ∃ l, e = .fix l
    · obtain ⟨l, rfl⟩ := seeing
      cases before with
      | none => cases after
      | some old =>
        obtain ⟨g, c⟩ := old
        have reflected := reflects _ rfl
        simp only [TrackerEvent.affect, Tracker.sight] at after ⊢
        simp only [stands, Option.map_some, Episode.sighting?]
        cases accepted : Tracker.accepts config l with
        | false =>
          simp only [accepted, Bool.false_eq_true, ↓reduceIte, Option.some.injEq] at after
          simpa [← after] using reflected
        | true =>
          simp only [accepted, ↓reduceIte, Option.some.injEq] at after
          subst after
          cases enabled : g.enabled with
          | true => simpa using reflected.glimpse l enabled
          | false => simpa [Tracker.glimpse, enabled] using reflected
    · have unseen : ∀ l, e ≠ .fix l := fun l fix => seeing ⟨l, fix⟩
      obtain ⟨silent, g, rfl⟩ := affect_of_not_resets unseen (stands ▸ reset) after
      have unsighted : Episode.sighting? config { fence := fenceOf id past, event := e, shown } =
          none := by
        cases e with
        | fix l => exact absurd rfl (unseen l)
        | _ => rfl
      simpa [unsighted, silent] using reflects _ rfl

end Stretch

namespace Tracker

variable {config : TrackerConfig} {t : Tracker} {past : Chronicle}

/-- The stretch of a geofence tells what the tracker knows about it. -/
theorem Chronicled.told (chronicled : Chronicled config t past) (id : GeofenceId) :
    fenceOf id past = (t.knownOf id).map Prod.fst ∧
    ∀ known, t.knownOf id = some known →
      Reflects known.2 (sightings config id past) (crossings id past) := by
  induction chronicled with
  | empty => exact ⟨rfl, nofun⟩
  | event before e ih =>
    obtain ⟨own, after⟩ := (before.consistent.apply config e).2 id
    constructor
    · rw [after, fst_affect, fenceOf, ih.1]
    · intro known found
      exact Reflects.affect ih.1 ih.2 own (after ▸ found)
  | reorder before same ih =>
    rw [before.consistent.knownOf_reorder same]
    exact ih

/-- A change of the name or of being enabled moves no geofence: numbers that have passed the checks
equal themselves. -/
theorem isMoved_of_apply {u : Geofence.Update} (center : u.center = none) (radius : u.radius = none)
    {g changed : Geofence} (checked : g.check = .ok ()) (applied : u.apply g = .ok changed) :
    g.isMoved changed = false := by
  -- Had a number passed that differs from itself, every update would seem to move the geofence.
  obtain ⟨inRange, finite⟩ := Geofence.of_check_ok checked
  have same : changed.center = g.center ∧ changed.radius = g.radius := by
    rw [(Geofence.Update.apply_ok applied).1, center, radius]
    exact ⟨rfl, rfl⟩
  rw [Geofence.isMoved, same.1, same.2, Coordinates.same_self inRange, bne,
    Number.beq_self_of_isFinite finite]
  rfl

theorem Consistent.containment_update (consistent : t.Consistent) {u : Geofence.Update}
    (center : u.center = none) (radius : u.radius = none) (id : GeofenceId) :
    (t.update id u).2.containment = t.containment := by
  cases found : t.fences.get? id with
  | none => rw [update_of_absent found]
  | some g =>
    cases applied : u.apply g with
    | error fault => rw [update_of_error found applied]
    | ok changed =>
      have still := isMoved_of_apply center radius (consistent.checked found) applied
      simp only [update_of_ok found applied, still, Bool.false_eq_true, ↓reduceIte]

/-- The crossings of a geofence since its last reset are in turn entries and departures, and what is
known about it is the last sighting, the last entry and the last departure of that stretch. Changes
of the name or of being enabled leave what is known alone. -/
theorem Chronicled.containment_reflects (chronicled : Chronicled config t past) {id : GeofenceId}
    {g : Geofence} (stands : t.fences.get? id = some g) :
    fenceOf id past = some g ∧
    (∃ c, t.containment.get? id = some c ∧
      Reflects c (sightings config id past) (crossings id past) ∧
      (c.inside = none ↔ sightings config id past = []) ∧
      (c.leftAt.isSome → c.enteredAt.isSome)) ∧
    ∀ u : Geofence.Update, u.center = none → u.radius = none →
      (TrackerEvent.update id u).resets id (some g) = false ∧
      ∀ i, (t.update i u).2.containment = t.containment := by
  have consistent := chronicled.consistent
  obtain ⟨c, found⟩ := consistent.exists_containment stands
  have known : t.knownOf id = some (g, c) := knownOf_eq_some_iff.2 ⟨stands, found⟩
  obtain ⟨fence, told⟩ := chronicled.told id
  have reflects : Reflects c (sightings config id past) (crossings id past) := told _ known
  refine ⟨by rw [fence, known]; rfl, ⟨c, found, reflects, ?_, ?_⟩, ?_⟩
  · rw [reflects.inside, Option.map_eq_none_iff, List.getLast?_eq_none_iff]
  · rw [reflects.leftAt, reflects.enteredAt]
    exact reflects.alternate.enter_of_leave
  · intro u center radius
    refine ⟨?_, consistent.containment_update center radius⟩
    simp only [TrackerEvent.resets, decide_true, Bool.true_and, Option.any_some]
    cases applied : u.apply g with
    | error fault => rfl
    | ok changed => exact isMoved_of_apply center radius (consistent.checked stands) applied

def frontDoor : Geofence := { porch with name := "front door", enabled := false }

def toFrontDoor : Geofence.Update := ⟨some "front door", none, none, some false⟩

/-- Someone comes to the porch, which is then given another name and disabled. -/
theorem containment_reflects_porch :
    ∃ t past, Chronicled .standard t past ∧ t.fences.get? porch.id = some frontDoor ∧
      ∃ c, t.containment.get? porch.id = some c ∧
        c.inside = some (porch.contains doorstep.point) ∧
        c.enteredAt = lastTime .enter (crossings porch.id past) := by
  have begun : Chronicled .standard .empty [] := .empty
  have entered := begun.event (.insert porch)
  have visited := entered.event (.fix doorstep)
  have renamed := visited.event (.update porch.id toFrontDoor)
  refine ⟨_, _, renamed, rfl, ?_⟩
  obtain ⟨-, ⟨c, found, reflects, -, -⟩, -⟩ :=
    @Chronicled.containment_reflects _ _ _ renamed porch.id frontDoor rfl
  exact ⟨c, found, reflects.inside, reflects.enteredAt⟩

end Tracker

end Hearth

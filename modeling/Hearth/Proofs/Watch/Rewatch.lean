import Hearth.Proofs.Watch.Firing
import Hearth.Registry

/-!
# Hearth.Proofs.Watch.Rewatch

Watching an automation once more changes nothing, as long as every change of a device is entered into
the registry and held against the conditions in one step.

## Main definitions

`Lookout`: a registry and a watchlist, which hear of changes together.
`Watchlist.Alike`: histories that say the same about every automation.

## Main results

`Lookout.remembered_eq`: what is remembered of a condition is what the registry says about it.
`Lookout.rewatch_transparent`: a run with one more watching and the run without it.
-/

namespace Hearth

namespace Watchlist

variable {cooldown : Duration} {past past' : List WatchEvent}

/-! ### Histories that say the same -/

/-- Histories that say the same about every automation. -/
structure Alike (cooldown : Duration) (past past' : List WatchEvent) : Prop where
  watched : ∀ id, watched id past' = watched id past
  remembered : ∀ id t device, remembered id t device past' = remembered id t device past
  fireTimes : ∀ id, fireTimes cooldown id past' = fireTimes cooldown id past

theorem Alike.isResting (alike : Alike cooldown past past') (now : Duration) (id : AutomationId) :
    (after cooldown past').isResting cooldown now id =
      (after cooldown past).isResting cooldown now id := by
  refine isResting_congr ?_
  rw [(recalls_after cooldown past').lastFired, (recalls_after cooldown past).lastFired,
    alike.fireTimes]

theorem Alike.mem_update_iff (alike : Alike cooldown past past') (now : Duration) (d : Device)
    (a : Automation) : a ∈ ((after cooldown past').update cooldown now d).1 ↔
      a ∈ ((after cooldown past).update cooldown now d).1 := by
  simp only [mem_update_after_iff, alike.watched, alike.remembered, alike.isResting]

/-- Whatever happens next, it is added to both. -/
theorem Alike.cons (alike : Alike cooldown past past') (event : WatchEvent) :
    Alike cooldown (event :: past) (event :: past') := by
  refine ⟨?_, ?_, ?_⟩
  · intro id
    simp only [Watchlist.watched, alike.watched]
  · intro id t device
    simp only [Watchlist.remembered, alike.remembered]
  · intro id
    -- Only an update can add a fire, and it fires the same automations after both.
    cases event with
    | update now d => simp only [Watchlist.fireTimes, List.mem_map, alike.mem_update_iff, alike.fireTimes]
    | _ => simp only [Watchlist.fireTimes, alike.fireTimes]

/-- Watchlists that know the same history hold the same. -/
theorem Recalls.agree {w u : Watchlist} (recalls : w.Recalls cooldown past)
    (recalls' : u.Recalls cooldown past) :
    (∀ key, u.subscriptions.get? key = w.subscriptions.get? key) ∧
    (∀ id, u.lastFired.get? id = w.lastFired.get? id) := by
  refine ⟨fun key => Option.ext fun s => ?_, fun id => ?_⟩
  · rw [recalls'.subscriptions, recalls.subscriptions]
  · rw [recalls'.lastFired, recalls.lastFired]

theorem Alike.recalls (alike : Alike cooldown past past') :
    (after cooldown past).Recalls cooldown past' :=
  (recalls_after cooldown past).congr alike.watched alike.remembered alike.fireTimes

/-- What an update fires after the one history is what it fires after the other, in some order. -/
theorem Alike.update_perm (alike : Alike cooldown past past') (now : Duration) (d : Device) :
    ((after cooldown past').update cooldown now d).1.Perm
      ((after cooldown past).update cooldown now d).1 := by
  have distinct (past : List WatchEvent) : ((after cooldown past).update cooldown now d).1.Nodup :=
    .of_map _ ((recalls_after cooldown past).indexed.looked_update cooldown now d).nodup
  exact (List.perm_ext_iff_of_nodup (distinct past') (distinct past)).2 (alike.mem_update_iff now d)

theorem Alike.restStatus (alike : Alike cooldown past past') (now : Duration) (id : AutomationId) :
    (after cooldown past').restStatus cooldown now id =
      (after cooldown past).restStatus cooldown now id := by
  have lastFired := (alike.recalls.agree (recalls_after cooldown past')).2 id
  simp only [Watchlist.restStatus, lastFired]

/-- An automation that is watched has been found to be in order. -/
theorem of_watched {id : AutomationId} {a : Automation} (known : watched id past = some a) :
    a.id = id ∧ isWatchable a = true := by
  induction past with
  | nil => cases known
  | cons event past ih =>
    unfold watched at known
    split at known
    · cases known
    · next kept =>
      cases event with
      | watch lookup b =>
        dsimp only at known
        split at known
        · next own =>
          obtain rfl := Option.some.inj known
          simpa [WatchEvent.forgets, own] using kept
        · exact ih known
      | _ => exact ih known

end Watchlist

/-! ### The registry and the watchlist together -/

/-- The devices that are known, and the conditions that are watched on them. -/
structure Lookout where
  registry : Registry
  watchlist : Watchlist

/-- What can happen to a lookout. -/
inductive LookoutEvent
  | watch (a : Automation)
  | unwatch (id : AutomationId)
  | clear
  | change (now : Duration) (d : Device)

namespace LookoutEvent

/-- A change is entered into the registry and held against the conditions in one step. Watching looks
into the registry. -/
def apply (cooldown : Duration) (l : Lookout) : LookoutEvent → Lookout
  | watch a => { l with watchlist := (l.watchlist.watch l.registry.get? a).2 }
  | unwatch id => { l with watchlist := (l.watchlist.unwatch id).2 }
  | clear => { l with watchlist := .empty }
  | change now d =>
    { registry := l.registry.upsert d, watchlist := (l.watchlist.update cooldown now d).2 }

/-- What the watchlist sees of an event. -/
def seen (registry : Registry) : LookoutEvent → WatchEvent
  | watch a => .watch registry.get? a
  | unwatch id => .unwatch id
  | clear => .clear
  | change now d => .update now d

end LookoutEvent

namespace Lookout

variable {cooldown : Duration} {registry : Registry}

/-- A lookout that began with some devices, after a history. -/
def after (cooldown : Duration) (registry : Registry) : List LookoutEvent → Lookout
  | [] => { registry, watchlist := .empty }
  | event :: past => event.apply cooldown (after cooldown registry past)

/-- What the watchlist has seen. -/
def history (cooldown : Duration) (registry : Registry) : List LookoutEvent → List WatchEvent
  | [] => []
  | event :: past =>
    event.seen (after cooldown registry past).registry :: history cooldown registry past

theorem watchlist_after (cooldown : Duration) (registry : Registry) (past : List LookoutEvent) :
    (after cooldown registry past).watchlist =
      Watchlist.after cooldown (history cooldown registry past) := by
  induction past with
  | nil => rfl
  | cons event past ih =>
    rw [history, Watchlist.after, ← ih]
    cases event <;> rfl

/-- What is remembered of a condition of a watched automation is what the registry says about it: the
watchlist has heard of every change since it looked. -/
theorem remembered_eq {past : List LookoutEvent} {id : AutomationId} {a : Automation}
    (known : Watchlist.watched id (history cooldown registry past) = some a) (t : Trigger)
    (device : DeviceId) :
    Watchlist.remembered id t device (history cooldown registry past) =
      ((after cooldown registry past).registry.get? device).map fun d => (t.evaluate d.value).met := by
  induction past with
  | nil => cases known
  | cons event past ih =>
    simp only [history, Watchlist.watched] at known
    split at known
    · cases known
    · next kept =>
      -- The event does not forget the automation, so it is the one that watches it, or it comes later.
      simp only [history, Watchlist.remembered, kept, Bool.false_eq_true, ↓reduceIte]
      cases event with
      | watch b =>
        simp only [LookoutEvent.seen] at known ⊢
        split at known
        · next own => simp only [own, ↓reduceIte, after, LookoutEvent.apply]
        · next other => simpa only [other, ↓reduceIte, after, LookoutEvent.apply] using ih known
      | unwatch other => exact ih known
      | clear => exact ih known
      | change now d =>
        simp only [LookoutEvent.seen, after, LookoutEvent.apply, Registry.get?_upsert]
        by_cases here : d.id = device
        · simp [here]
        · simpa [here, Ne.symm here] using ih known

/-- Watching an automation once more says nothing new. -/
theorem alike_rewatch {past : List LookoutEvent} {a : Automation}
    (known : Watchlist.watched a.id (history cooldown registry past) = some a) :
    Watchlist.Alike cooldown (history cooldown registry past)
      (history cooldown registry (.watch a :: past)) := by
  have accepted := (Watchlist.of_watched known).2
  refine ⟨?_, ?_, ?_⟩
  · -- The same automation is watched under its identifier as before.
    intro id
    by_cases own : a.id = id
    · subst own
      simp [history, LookoutEvent.seen, Watchlist.watched, WatchEvent.forgets, accepted, known]
    · simp [history, LookoutEvent.seen, Watchlist.watched, WatchEvent.forgets, own]
  · -- What watching looks up is what has been remembered.
    intro id t device
    by_cases own : a.id = id
    · subst own
      rw [remembered_eq known]
      simp [history, LookoutEvent.seen, Watchlist.remembered, WatchEvent.forgets, accepted]
    · simp [history, LookoutEvent.seen, Watchlist.remembered, WatchEvent.forgets, own]
  · -- Watching an automation that is in order does not forget when it fired.
    intro id
    simp [history, LookoutEvent.seen, Watchlist.fireTimes, WatchEvent.forgets, accepted]

/-- The run with one more watching goes on like the run without it. -/
theorem alike_append {past : List LookoutEvent} {a : Automation}
    (known : Watchlist.watched a.id (history cooldown registry past) = some a)
    (later : List LookoutEvent) :
    (after cooldown registry (later ++ .watch a :: past)).registry =
      (after cooldown registry (later ++ past)).registry ∧
    Watchlist.Alike cooldown (history cooldown registry (later ++ past))
      (history cooldown registry (later ++ .watch a :: past)) := by
  induction later with
  | nil => exact ⟨rfl, alike_rewatch known⟩
  | cons event later ih =>
    obtain ⟨same, alike⟩ := ih
    constructor
    · cases event <;> simp only [List.cons_append, after, LookoutEvent.apply, same]
    · -- The registries are the same, so both watchlists see the same of the event.
      simp only [List.cons_append, history, same]
      exact alike.cons _

/-- When an automation that is watched is watched once more at some point, then at every later moment
an update fires the same automations, every automation rests as it would, and all results that are
remembered are the same. -/
theorem rewatch_transparent {past : List LookoutEvent} {a : Automation}
    (known : Watchlist.watched a.id (history cooldown registry past) = some a)
    (later : List LookoutEvent) :
    (∀ now d,
      ((after cooldown registry (later ++ .watch a :: past)).watchlist.update cooldown now d).1.Perm
        ((after cooldown registry (later ++ past)).watchlist.update cooldown now d).1) ∧
    (∀ now id,
      (after cooldown registry (later ++ .watch a :: past)).watchlist.restStatus cooldown now id =
        (after cooldown registry (later ++ past)).watchlist.restStatus cooldown now id) ∧
    (∀ key,
      (after cooldown registry (later ++ .watch a :: past)).watchlist.subscriptions.get? key =
        (after cooldown registry (later ++ past)).watchlist.subscriptions.get? key) := by
  obtain ⟨-, alike⟩ := alike_append known later
  simp only [watchlist_after]
  exact ⟨alike.update_perm, alike.restStatus,
    (alike.recalls.agree (Watchlist.recalls_after cooldown _)).1⟩

/-- A house whose door is known to be closed. -/
def closedHouse : Registry := .ofList [Watchlist.door "closed"]

/-- The doorbell has rung at one second, and the door is closed again. -/
def rung : List LookoutEvent :=
  [.change (.ofSecs 2) (Watchlist.door "closed"), .change (.ofSecs 1) (Watchlist.door "open"),
    .watch Watchlist.doorbell]

/-- A doorbell that is watched again while it rests goes on resting, and rings after a minute. -/
theorem rewatch_transparent_doorbell :
    Watchlist.watched Watchlist.doorbell.id (history (.ofSecs 60) closedHouse rung) =
      some Watchlist.doorbell ∧
    ((after (.ofSecs 60) closedHouse (.watch Watchlist.doorbell :: rung)).watchlist.restStatus
      (.ofSecs 60) (.ofSecs 60) Watchlist.doorbell.id).resting = true ∧
    ((after (.ofSecs 60) closedHouse (.watch Watchlist.doorbell :: rung)).watchlist.update
      (.ofSecs 60) (.ofSecs 61) (Watchlist.door "open")).1.Perm [Watchlist.doorbell] := by
  have known : Watchlist.watched Watchlist.doorbell.id (history (.ofSecs 60) closedHouse rung) =
      some Watchlist.doorbell := by rfl
  obtain ⟨fires, rests, -⟩ := rewatch_transparent known []
  refine ⟨known, ?_, ?_⟩
  · refine (congrArg RestStatus.resting (rests (.ofSecs 60) _)).trans ?_
    decide +kernel
  · refine (fires (.ofSecs 61) (Watchlist.door "open")).trans ?_
    rfl

end Lookout

end Hearth

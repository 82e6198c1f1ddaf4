import Hearth.Proofs.Watch.Update

/-!
# Hearth.Proofs.Watch.Firing

When an update fires an automation, told from all that has happened before it.

A history is a list of events, the latest first. What a watchlist ought to know is read off the
history alone, except for the fires, which are the answers that were given.

## Main definitions

`WatchEvent.forgets`: whether an event makes an automation start afresh.
`Watchlist.watched`, `Watchlist.remembered`, `Watchlist.fireTimes`: what a history says about an
automation, a condition, and the fires that count.
`Watchlist.Recalls`: a watchlist that knows what its history says.

## Main results

`Watchlist.recalls_after`: every watchlist does.
`Watchlist.fires_iff`: the exact law of firing.
-/

namespace Hearth

/-- What can happen to a watchlist. Watching sees the devices as they are known at that moment. -/
inductive WatchEvent
  | watch (lookup : DeviceId → Option Device) (a : Automation)
  | unwatch (id : AutomationId)
  | clear
  | update (now : Duration) (d : Device)

namespace WatchEvent

def apply (cooldown : Duration) (w : Watchlist) : WatchEvent → Watchlist
  | watch lookup a => (w.watch lookup a).2
  | unwatch id => (w.unwatch id).2
  | clear => .empty
  | update now d => (w.update cooldown now d).2

/-- Whether an event makes an automation start afresh. Watching one that is in order does not. -/
def forgets (id : AutomationId) : WatchEvent → Bool
  | watch _ a => a.id = id && !Watchlist.isWatchable a
  | unwatch other => other = id
  | clear => true
  | update _ _ => false

end WatchEvent

namespace Watchlist

/-- The watchlist after a history. -/
def after (cooldown : Duration) : List WatchEvent → Watchlist
  | [] => .empty
  | event :: past => event.apply cooldown (after cooldown past)

/-! ### What a history says -/

/-- The automation as it was watched last, unless it has been forgotten since. -/
def watched (id : AutomationId) : List WatchEvent → Option Automation
  | [] => none
  | event :: past =>
    if event.forgets id then none
    else
      match event with
      | .watch _ a => if a.id = id then some a else watched id past
      | _ => watched id past

/-- The result of a condition on a device at the latest update of the device since its automation was
watched, or else on the device as it was known then. -/
def remembered (id : AutomationId) (t : Trigger) (device : DeviceId) : List WatchEvent → Option Bool
  | [] => none
  | event :: past =>
    if event.forgets id then none
    else
      match event with
      | .watch lookup a =>
        if a.id = id then (lookup device).map fun d => (t.evaluate d.value).met
        else remembered id t device past
      | .update _ d =>
        if d.id = device then some (t.evaluate d.value).met else remembered id t device past
      | _ => remembered id t device past

/-- When an automation has fired since it was forgotten last, the latest time first. -/
def fireTimes (cooldown : Duration) (id : AutomationId) : List WatchEvent → List Duration
  | [] => []
  | event :: past =>
    if event.forgets id then []
    else
      match event with
      | .update now d =>
        if id ∈ ((after cooldown past).update cooldown now d).1.map Automation.id then
          now :: fireTimes cooldown id past
        else fireTimes cooldown id past
      | _ => fireTimes cooldown id past

/-- The times of the updates, the latest first. -/
def updateTimes : List WatchEvent → List Duration
  | [] => []
  | .update now _ :: past => now :: updateTimes past
  | _ :: past => updateTimes past

theorem fireTimes_sublist (cooldown : Duration) (id : AutomationId) (past : List WatchEvent) :
    (fireTimes cooldown id past).Sublist (updateTimes past) := by
  induction past with
  | nil => exact .slnil
  | cons event past ih =>
    unfold fireTimes
    split
    · exact List.nil_sublist _
    · cases event with
      | update now d =>
        dsimp only
        split
        · exact ih.cons_cons now
        · exact ih.cons now
      | _ => exact ih

/-! ### What a watchlist knows -/

/-- A watchlist that knows what a history says. An automation is listed when it has a condition with
a device. -/
structure Recalls (w : Watchlist) (cooldown : Duration) (past : List WatchEvent) : Prop where
  indexed : w.Indexed
  automations : ∀ {id a}, w.automations.get? id = some a ↔
    watched id past = some a ∧ ∃ t ∈ a.triggers, ∃ device, t.device? = some device
  subscriptions : ∀ {key s}, w.subscriptions.get? key = some s ↔
    ∃ a t device, watched key.automation past = some a ∧ a.triggers[key.index]? = some t ∧
      t.device? = some device ∧
      s = { key, device, trigger := t, lastResult := remembered key.automation t device past }
  lastFired : ∀ id, w.lastFired.get? id = (fireTimes cooldown id past).head?

theorem Recalls.empty (cooldown : Duration) : Watchlist.empty.Recalls cooldown [] where
  indexed := .empty
  automations := ⟨nofun, nofun⟩
  subscriptions := ⟨nofun, nofun⟩
  lastFired _ := rfl

/-- Events that say the same about every automation can stand for each other. -/
theorem Recalls.congr {w : Watchlist} {cooldown : Duration} {past past' : List WatchEvent}
    (recalls : w.Recalls cooldown past) (watched_eq : ∀ id, watched id past' = watched id past)
    (remembered_eq : ∀ id t device, remembered id t device past' = remembered id t device past)
    (fireTimes_eq : ∀ id, fireTimes cooldown id past' = fireTimes cooldown id past) :
    w.Recalls cooldown past' := by
  refine ⟨recalls.indexed, ?_, ?_, ?_⟩
  · intro id a
    rw [watched_eq]
    exact recalls.automations
  · intro key s
    simp only [watched_eq, remembered_eq]
    exact recalls.subscriptions
  · intro id
    rw [fireTimes_eq]
    exact recalls.lastFired id

theorem Recalls.clear (cooldown : Duration) (past : List WatchEvent) :
    Watchlist.empty.Recalls cooldown (.clear :: past) :=
  (Recalls.empty cooldown).congr (fun _ => rfl) (fun _ _ _ => rfl) (fun _ => rfl)

theorem Recalls.unwatch {w : Watchlist} {cooldown : Duration} {past : List WatchEvent}
    (recalls : w.Recalls cooldown past) (id : AutomationId) :
    (w.unwatch id).2.Recalls cooldown (.unwatch id :: past) := by
  refine ⟨{ recalls.indexed.detach id with }, ?_, ?_, ?_⟩
  · intro other a
    rw [show (w.unwatch id).2.automations = (w.detach id).automations from rfl, automations_detach]
    by_cases own : other = id
    · simp [own, watched, WatchEvent.forgets]
    · simp [own, Ne.symm own, watched, WatchEvent.forgets, recalls.automations]
  · intro key s
    rw [show (w.unwatch id).2.subscriptions = (w.detach id).subscriptions from rfl,
      subscriptions_detach]
    by_cases own : key.automation = id
    · simp [own, watched, WatchEvent.forgets]
    · simp [own, Ne.symm own, watched, remembered, WatchEvent.forgets, recalls.subscriptions]
  · intro other
    have found : (w.unwatch id).2.lastFired.get? other =
        if other = id then none else w.lastFired.get? other := Table.get?_erase _ _ _
    rw [found]
    by_cases own : other = id
    · simp [own, fireTimes, WatchEvent.forgets]
    · simp [own, Ne.symm own, fireTimes, WatchEvent.forgets, recalls.lastFired]

/-- Watching an automation that is refused is forgetting it. -/
theorem Recalls.watch_refused {w : Watchlist} {cooldown : Duration} {past : List WatchEvent}
    (recalls : w.Recalls cooldown past) (lookup : DeviceId → Option Device) {a : Automation}
    (refused : isWatchable a = false) :
    (w.watch lookup a).2.Recalls cooldown (.watch lookup a :: past) := by
  rw [watch_of_not_isWatchable refused]
  refine (recalls.unwatch a.id).congr ?_ ?_ ?_
  · intro id
    by_cases own : a.id = id <;> simp [own, watched, WatchEvent.forgets, refused]
  · intro id t device
    by_cases own : a.id = id <;> simp [own, remembered, WatchEvent.forgets, refused]
  · intro id
    by_cases own : a.id = id <;> simp [own, fireTimes, WatchEvent.forgets, refused]

theorem subscriptionsOf_ne_nil_iff {lookup : DeviceId → Option Device} {a : Automation} :
    subscriptionsOf lookup a ≠ [] ↔ ∃ t ∈ a.triggers, ∃ device, t.device? = some device := by
  constructor
  · intro present
    obtain ⟨s, member⟩ := List.exists_mem_of_ne_nil _ present
    obtain ⟨index, t, device, found, watched, -⟩ := mem_subscriptionsOf.1 member
    exact ⟨t, List.mem_of_getElem? found, device, watched⟩
  · rintro ⟨t, member, device, watched⟩
    obtain ⟨index, found⟩ := List.mem_iff_getElem?.1 member
    exact List.ne_nil_of_mem (mem_subscriptionsOf.2 ⟨index, t, device, found, watched, rfl⟩)

theorem Recalls.watch_accepted {w : Watchlist} {cooldown : Duration} {past : List WatchEvent}
    (recalls : w.Recalls cooldown past) (lookup : DeviceId → Option Device) {a : Automation}
    (accepted : isWatchable a = true) :
    (w.watch lookup a).2.Recalls cooldown (.watch lookup a :: past) := by
  have watched_eq (id : AutomationId) : watched id (.watch lookup a :: past) =
      if a.id = id then some a else watched id past := by
    simp [watched, WatchEvent.forgets, accepted]
  have remembered_eq (id : AutomationId) (t : Trigger) (device : DeviceId) :
      remembered id t device (.watch lookup a :: past) =
        if a.id = id then (lookup device).map fun d => (t.evaluate d.value).met
        else remembered id t device past := by
    simp [remembered, WatchEvent.forgets, accepted]
  obtain ⟨indexed, subscriptions, automations, lastFired⟩ := recalls.indexed.watch lookup accepted
  refine ⟨indexed, ?_, ?_, ?_⟩
  · intro id x
    rw [automations, subscriptionsOf_ne_nil_iff, watched_eq]
    by_cases own : id = a.id
    · rw [if_pos own.symm, Option.some.injEq]
      constructor
      · rintro (⟨-, rfl, conditions⟩ | ⟨foreign, -⟩)
        · exact ⟨rfl, conditions⟩
        · exact absurd own foreign
      · rintro ⟨rfl, conditions⟩
        exact .inl ⟨own, rfl, conditions⟩
    · simp [own, Ne.symm own, recalls.automations]
  · intro key s
    simp only [subscriptions, mem_subscriptionsOf, watched_eq, remembered_eq]
    -- The automation itself has what this watch gave it; the others have what they had.
    by_cases own : key.automation = a.id
    · obtain ⟨id, index⟩ := key
      subst own
      simp only [↓reduceIte, Option.some.injEq]
      constructor
      · rintro (⟨⟨place, t, device, found, condition, rfl⟩, same⟩ | ⟨foreign, -⟩)
        · obtain rfl : place = index := congrArg WatchKey.index same
          exact ⟨a, t, device, rfl, found, condition, rfl⟩
        · exact absurd rfl foreign
      · rintro ⟨x, t, device, rfl, found, condition, rfl⟩
        exact .inl ⟨⟨index, t, device, found, condition, rfl⟩, rfl⟩
    · simp only [if_neg (Ne.symm own)]
      rw [← recalls.subscriptions]
      constructor
      · rintro (⟨⟨place, t, device, -, -, rfl⟩, same⟩ | ⟨-, old⟩)
        · exact absurd (congrArg WatchKey.automation same).symm own
        · exact old
      · intro old
        exact .inr ⟨own, old⟩
  · intro id
    rw [lastFired, recalls.lastFired]
    by_cases own : a.id = id <;> simp [own, fireTimes, WatchEvent.forgets, accepted]

/-- An update looks at every subscription on its device, and leaves the others alone. -/
theorem Indexed.subscriptions_update {w : Watchlist} (indexed : w.Indexed) (cooldown now : Duration)
    (d : Device) {key : WatchKey} {s : Subscription} :
    (w.update cooldown now d).2.subscriptions.get? key = some s ↔
      ∃ s₀, w.subscriptions.get? key = some s₀ ∧
        s = if d.id = s₀.device then look d.value s₀ else s₀ := by
  rw [(indexed.looked_update cooldown now d).subscriptions]
  cases found : w.subscriptions.get? key with
  | none => simp
  | some s₀ =>
    by_cases here : d.id = s₀.device
    · have listed : key ∈ w.keysOn d.id := indexed.mem_keysOn.2 ⟨s₀, found, here.symm⟩
      simp [listed, ← here, eq_comm]
    · have unlisted : key ∉ w.keysOn d.id := by
        intro listed
        obtain ⟨s₁, also, same⟩ := indexed.mem_keysOn.1 listed
        obtain rfl : s₀ = s₁ := Option.some.inj (found.symm.trans also)
        exact here same.symm
      simp [unlisted, here, eq_comm]

theorem Recalls.update {cooldown : Duration} {past : List WatchEvent}
    (recalls : (after cooldown past).Recalls cooldown past) (now : Duration) (d : Device) :
    ((after cooldown past).update cooldown now d).2.Recalls cooldown (.update now d :: past) := by
  have looked := recalls.indexed.looked_update cooldown now d
  refine ⟨recalls.indexed.update cooldown now d, ?_, ?_, ?_⟩
  · intro id a
    rw [looked.automations]
    exact recalls.automations
  · intro key s
    rw [recalls.indexed.subscriptions_update]
    have remembered_eq (id : AutomationId) (t : Trigger) (device : DeviceId) :
        remembered id t device (.update now d :: past) =
          if d.id = device then some (t.evaluate d.value).met
          else remembered id t device past := rfl
    simp only [remembered_eq]
    constructor
    · rintro ⟨s₀, old, rfl⟩
      obtain ⟨a, t, device, known, found, condition, rfl⟩ := recalls.subscriptions.1 old
      refine ⟨a, t, device, known, found, condition, ?_⟩
      by_cases here : d.id = device <;> simp [here, look]
    · rintro ⟨a, t, device, known, found, condition, rfl⟩
      refine ⟨_, recalls.subscriptions.2 ⟨a, t, device, known, found, condition, rfl⟩, ?_⟩
      by_cases here : d.id = device <;> simp [here, look]
  · intro id
    have fireTimes_eq : fireTimes cooldown id (.update now d :: past) =
        if id ∈ ((after cooldown past).update cooldown now d).1.map Automation.id then
          now :: fireTimes cooldown id past
        else fireTimes cooldown id past := rfl
    rw [looked.lastFired, recalls.lastFired, fireTimes_eq]
    split
    · rfl
    · rfl

/-- A watchlist knows what its history says. -/
theorem recalls_after (cooldown : Duration) (past : List WatchEvent) :
    (after cooldown past).Recalls cooldown past := by
  induction past with
  | nil => exact .empty cooldown
  | cons event past ih =>
    cases event with
    | watch lookup a =>
      cases accepted : isWatchable a with
      | true => exact ih.watch_accepted lookup accepted
      | false => exact ih.watch_refused lookup accepted
    | unwatch id => exact ih.unwatch id
    | clear => exact .clear cooldown past
    | update now d => exact ih.update now d

/-! ### The law -/

theorem isResting_iff {w : Watchlist} {cooldown now : Duration} {id : AutomationId} :
    w.isResting cooldown now id = true ↔
      ∃ last ∈ w.lastFired.get? id, now.nanos - last.nanos < cooldown.nanos := by
  unfold isResting
  cases w.lastFired.get? id with
  | none => simp
  | some last =>
    simp only [decide_eq_true_eq, Option.mem_def, Option.some.injEq, exists_eq_left']
    rfl

theorem resting_restStatus (w : Watchlist) (cooldown now : Duration) (id : AutomationId) :
    (w.restStatus cooldown now id).resting = w.isResting cooldown now id := by
  unfold restStatus isResting
  cases w.lastFired.get? id with
  | none => rfl
  | some last =>
    rw [Bool.eq_iff_iff, decide_eq_true_eq]
    simp only [Duration.isZero, Duration.minus, Bool.not_eq_true', beq_eq_false_iff_ne]
    omega

/-- An automation rests exactly while a fire of it that counts is less than the cooldown ago. -/
theorem isResting_after_iff {cooldown now : Duration} {past : List WatchEvent}
    (ordered : (now :: updateTimes past).Pairwise fun later earlier => earlier.nanos ≤ later.nanos)
    (id : AutomationId) :
    (after cooldown past).isResting cooldown now id = true ↔
      ∃ earlier ∈ fireTimes cooldown id past, now.nanos - earlier.nanos < cooldown.nanos := by
  have inOrder := (List.pairwise_cons.1 ordered).2.sublist (fireTimes_sublist cooldown id past)
  rw [isResting_iff, (recalls_after cooldown past).lastFired]
  constructor
  · rintro ⟨last, latest, recent⟩
    exact ⟨last, List.mem_of_head? latest, recent⟩
  · rintro ⟨earlier, member, recent⟩
    -- The last fire is the latest one, because times do not go back.
    cases times : fireTimes cooldown id past with
    | nil => simp [times] at member
    | cons last others =>
      refine ⟨last, rfl, ?_⟩
      rw [times] at member inOrder
      rcases List.mem_cons.1 member with rfl | before
      · exact recent
      · have below := (List.pairwise_cons.1 inOrder).1 earlier before
        omega

theorem mem_update_after_iff {cooldown now : Duration} {past : List WatchEvent} {d : Device}
    {a : Automation} :
    a ∈ ((after cooldown past).update cooldown now d).1 ↔
      watched a.id past = some a ∧
      (∃ t ∈ a.triggers, t.device? = some d.id ∧ remembered a.id t d.id past = some false ∧
        (t.evaluate d.value).met = true) ∧
      (after cooldown past).isResting cooldown now a.id = false := by
  have recalls := recalls_after cooldown past
  rw [(recalls.indexed.looked_update cooldown now d).mem_iff]
  constructor
  · -- The subscription that fired belongs to a trigger of the automation as it is watched now.
    rintro ⟨key, listed, ⟨s, found, unmet, met⟩, entered, rested⟩
    have named : a.id = key.automation := recalls.indexed.named entered
    obtain ⟨s', also, here⟩ := recalls.indexed.mem_keysOn.1 listed
    obtain rfl : s = s' := Option.some.inj (found.symm.trans also)
    obtain ⟨known, -⟩ := recalls.automations.1 entered
    obtain ⟨x, t, device, knownToo, place, condition, rfl⟩ := recalls.subscriptions.1 found
    obtain rfl : a = x := Option.some.inj (known.symm.trans knownToo)
    obtain rfl : device = d.id := here
    rw [named]
    exact ⟨known, ⟨t, List.mem_of_getElem? place, condition, unmet, met⟩, rested⟩
  · -- The trigger has a subscription, and the index has that under the device.
    rintro ⟨known, ⟨t, member, condition, unmet, met⟩, rested⟩
    obtain ⟨index, place⟩ := List.mem_iff_getElem?.1 member
    let s : Subscription :=
      { key := ⟨a.id, index⟩, device := d.id, trigger := t,
        lastResult := remembered a.id t d.id past }
    have found : (after cooldown past).subscriptions.get? ⟨a.id, index⟩ = some s :=
      recalls.subscriptions.2 ⟨a, t, d.id, known, place, condition, rfl⟩
    have entered : (after cooldown past).automations.get? a.id = some a :=
      recalls.automations.2 ⟨known, t, member, d.id, condition⟩
    exact ⟨⟨a.id, index⟩, recalls.indexed.mem_keysOn.2 ⟨s, found, rfl⟩,
      ⟨s, found, unmet, met⟩, entered, rested⟩

/-- The exact law of firing, for updates whose times never go back. -/
theorem fires_iff {cooldown now : Duration} {past : List WatchEvent}
    (ordered : (now :: updateTimes past).Pairwise fun later earlier => earlier.nanos ≤ later.nanos)
    (d : Device) :
    (∀ {a}, a ∈ ((after cooldown past).update cooldown now d).1 ↔
      watched a.id past = some a ∧
      (∃ t ∈ a.triggers, t.device? = some d.id ∧ remembered a.id t d.id past = some false ∧
        (t.evaluate d.value).met = true) ∧
      ¬ ∃ earlier ∈ fireTimes cooldown a.id past, now.nanos - earlier.nanos < cooldown.nanos) ∧
    (((after cooldown past).update cooldown now d).1.map Automation.id).Nodup ∧
    (∀ {a index t}, watched a.id past = some a → a.triggers[index]? = some t →
      t.device? = some d.id →
      ((after cooldown past).update cooldown now d).2.subscriptions.get? ⟨a.id, index⟩ =
        some { key := ⟨a.id, index⟩, device := d.id, trigger := t,
               lastResult := some (t.evaluate d.value).met }) ∧
    (∀ {id}, ((after cooldown past).restStatus cooldown now id).resting = true ↔
      ∃ earlier ∈ fireTimes cooldown id past, now.nanos - earlier.nanos < cooldown.nanos) := by
  have recalls := recalls_after cooldown past
  refine ⟨?_, (recalls.indexed.looked_update cooldown now d).nodup, ?_, ?_⟩
  · intro a
    rw [mem_update_after_iff, ← isResting_after_iff ordered, Bool.not_eq_true]
  · intro a index t known place condition
    have later := recalls.update now d
    refine later.subscriptions.2 ⟨a, t, d.id, known, place, condition, ?_⟩
    simp [remembered, WatchEvent.forgets]
  · intro id
    rw [resting_restStatus, isResting_after_iff ordered]

def door (state : String) : Device :=
  { id := ⟨"door"⟩, name := "door", kind := .sensor, online := true, value := .text state
    updatedAt := default }

def doorbell : Automation :=
  { id := ⟨⟨7⟩⟩, name := "doorbell", enabled := true
    triggers := [.manual, .condition (some ⟨"door"⟩) none none (some (.text "open"))], actions := [] }

/-- A door that is opened at one second and again at three, watched since it was closed. -/
def busyDoor : List WatchEvent :=
  [.update (.ofSecs 4) (door "closed"), .update (.ofSecs 3) (door "open"),
    .update (.ofSecs 2) (door "closed"), .update (.ofSecs 1) (door "open"),
    .watch (fun _ => some (door "closed")) doorbell]

/-- With a cooldown of a minute only the first opening has rung, so the bell rings again at 61
seconds and not at 60. -/
theorem fires_busyDoor :
    fireTimes (.ofSecs 60) doorbell.id busyDoor = [.ofSecs 1] ∧
    doorbell ∈ ((after (.ofSecs 60) busyDoor).update (.ofSecs 60) (.ofSecs 61) (door "open")).1 ∧
    doorbell ∉ ((after (.ofSecs 60) busyDoor).update (.ofSecs 60) (.ofSecs 60) (door "open")).1 := by
  have times : fireTimes (.ofSecs 60) doorbell.id busyDoor = [.ofSecs 1] := by decide +kernel
  have ordered (n : Nat) (late : 4 ≤ n) : (Duration.ofSecs n :: updateTimes busyDoor).Pairwise
      fun later earlier => earlier.nanos ≤ later.nanos := by
    simp [updateTimes, busyDoor, Duration.ofSecs]
    omega
  refine ⟨times, ?_, ?_⟩
  · refine (fires_iff (ordered 61 (by decide)) (door "open")).1.2 ⟨rfl, ?_, ?_⟩
    · refine ⟨_, .tail _ (.head _), rfl, by decide +kernel, by decide +kernel⟩
    · rw [times]
      decide
  · intro fires
    refine ((fires_iff (ordered 60 (by decide)) (door "open")).1.1 fires).2.2 ?_
    rw [times]
    decide

end Watchlist

end Hearth

import Hearth.Proofs.Watch.Firing

/-!
# Hearth.Proofs.Watch.Exactness

The tables of a watchlist fit each other, whatever has happened to it, and an automation has the
subscriptions that its conditions call for.

## Main definitions

`Watchlist.Compact`: the index has no device without a key.
`Watchlist.Exact`: how the four tables fit each other.

## Main results

`Watchlist.exact_after`: they always do.
`Watchlist.index_exact`: the same, with what watching and forgetting do to the subscriptions.
-/

namespace Hearth

namespace Automation

theorem device?_of_checkFrom {ts : List Trigger} {index : Nat} (checked : checkFrom index ts = .ok ())
    {t : Trigger} (member : t ∈ ts) (condition : t.isCondition = true) :
    ∃ device, t.device? = some device := by
  induction ts generalizing index with
  | nil => cases member
  | cons first rest ih =>
    cases passed : first.check index with
    | error fault => simp [checkFrom, passed, bind, Except.bind] at checked
    | ok u =>
      rcases List.mem_cons.1 member with rfl | later
      · -- A condition without a device does not pass.
        cases t with
        | condition device comparison threshold value =>
          cases device with
          | none => cases passed
          | some device => exact ⟨device, rfl⟩
        | _ => cases condition
      · simp only [checkFrom, passed, bind, Except.bind] at checked
        exact ih checked later

end Automation

namespace Watchlist

/-! ### No device without a key -/

/-- The index has no device without a key. -/
def Compact (w : Watchlist) : Prop := ∀ device, w.byDevice.get? device ≠ some []

theorem Compact.empty : Watchlist.empty.Compact := fun _ => nofun

/-- Devices that have lost their last key are dropped. -/
theorem compact_detach (w : Watchlist) (id : AutomationId) : (w.detach id).Compact :=
  fun _ found => Table.ne_nil_of_get?_thin found rfl

theorem Compact.subscribe {w : Watchlist} (compact : w.Compact) (s : Subscription) :
    (w.subscribe s).Compact := by
  intro device found
  simp only [Watchlist.subscribe, Table.get?_insert] at found
  split at found
  · simp at found
  · exact compact device found

theorem Compact.foldl_subscribe (added : List Subscription) {w : Watchlist} (compact : w.Compact) :
    (added.foldl Watchlist.subscribe w).Compact := by
  induction added generalizing w with
  | nil => exact compact
  | cons first rest ih => exact ih (compact.subscribe first)

theorem compact_watch (w : Watchlist) (lookup : DeviceId → Option Device) (a : Automation) :
    (w.watch lookup a).2.Compact := by
  cases accepted : isWatchable a with
  | false =>
    rw [watch_of_not_isWatchable accepted]
    exact compact_detach w a.id
  | true =>
    have compact := (compact_detach w a.id).foldl_subscribe (subscriptionsOf lookup a)
    rw [watch_of_isWatchable accepted]
    dsimp only
    split
    · exact compact
    · exact compact

theorem Compact.event {w : Watchlist} (compact : w.Compact) (indexed : w.Indexed)
    (cooldown : Duration) (event : WatchEvent) : (event.apply cooldown w).Compact := by
  cases event with
  | watch lookup a => exact compact_watch w lookup a
  | unwatch id => exact compact_detach w id
  | clear => exact .empty
  | update now d =>
    intro device
    rw [WatchEvent.apply, (indexed.looked_update cooldown now d).byDevice]
    exact compact device

/-! ### The four tables -/

/-- The index has the key of a subscription once under the device of the subscription and nowhere
else; all its keys have subscriptions, and all its devices have keys; and an automation is listed
exactly while it has a subscription. -/
structure Exact (w : Watchlist) : Prop where
  nodup_devices : w.byDevice.keys.Nodup
  named : ∀ {key s}, w.subscriptions.get? key = some s →
    s.key = key ∧ s.trigger.device? = some s.device
  count : ∀ {key s}, w.subscriptions.get? key = some s →
    ∀ device, (w.keysOn device).count key = if device = s.device then 1 else 0
  subscribed : ∀ device, ∀ key ∈ w.keysOn device, (w.subscriptions.get? key).isSome = true
  compact : w.Compact
  listed : ∀ id, (w.automations.get? id).isSome = true ↔
    ∃ index, (w.subscriptions.get? ⟨id, index⟩).isSome = true

theorem compact_after (cooldown : Duration) (past : List WatchEvent) :
    (after cooldown past).Compact := by
  induction past with
  | nil => exact .empty
  | cons event past ih => exact ih.event (recalls_after cooldown past).indexed cooldown event

theorem Recalls.named {w : Watchlist} {cooldown : Duration} {past : List WatchEvent}
    (recalls : w.Recalls cooldown past) {key : WatchKey} {s : Subscription}
    (found : w.subscriptions.get? key = some s) :
    s.key = key ∧ s.trigger.device? = some s.device := by
  obtain ⟨a, t, device, -, -, condition, rfl⟩ := recalls.subscriptions.1 found
  exact ⟨rfl, condition⟩

/-- The automations that have a condition with a device are those that have a subscription. -/
theorem Recalls.listed {w : Watchlist} {cooldown : Duration} {past : List WatchEvent}
    (recalls : w.Recalls cooldown past) (id : AutomationId) :
    (w.automations.get? id).isSome = true ↔
      ∃ index, (w.subscriptions.get? ⟨id, index⟩).isSome = true := by
  simp only [Option.isSome_iff_exists]
  constructor
  · rintro ⟨a, found⟩
    obtain ⟨known, t, member, device, condition⟩ := recalls.automations.1 found
    obtain ⟨index, place⟩ := List.mem_iff_getElem?.1 member
    exact ⟨index, _, recalls.subscriptions.2 ⟨a, t, device, known, place, condition, rfl⟩⟩
  · rintro ⟨index, s, found⟩
    obtain ⟨a, t, device, known, place, condition, -⟩ := recalls.subscriptions.1 found
    exact ⟨a, recalls.automations.2 ⟨known, t, List.mem_of_getElem? place, device, condition⟩⟩

theorem exact_after (cooldown : Duration) (past : List WatchEvent) : (after cooldown past).Exact := by
  have recalls := recalls_after cooldown past
  have indexed := recalls.indexed
  refine ⟨indexed.nodup_devices, recalls.named, ?_, ?_, compact_after cooldown past, recalls.listed⟩
  · intro key s found device
    have here : key ∈ (after cooldown past).keysOn device ↔ device = s.device := by
      simp [indexed.mem_keysOn, found, eq_comm]
    rw [(indexed.nodup_keysOn device).count]
    simp only [here]
  · intro device key member
    obtain ⟨s, found, -⟩ := indexed.mem_keysOn.1 member
    rw [found]
    rfl

/-! ### What is asked of a watchlist, and what is done to it -/

theorem Exact.mem_subscriptionsFor {w : Watchlist} (exact : w.Exact) {device : DeviceId}
    {s : Subscription} : s ∈ w.subscriptionsFor device ↔
      w.subscriptions.get? s.key = some s ∧ s.device = device := by
  have counted (found : w.subscriptions.get? s.key = some s) :
      s.key ∈ w.keysOn device ↔ s.device = device := by
    rw [← List.count_pos_iff, exact.count found]
    by_cases here : device = s.device <;> simp [here, eq_comm]
  constructor
  · intro member
    obtain ⟨key, listed, found⟩ := List.mem_filterMap.1 member
    obtain rfl : s.key = key := (exact.named found).1
    exact ⟨found, (counted found).1 listed⟩
  · rintro ⟨found, here⟩
    exact List.mem_filterMap.2 ⟨s.key, (counted found).2 here, found⟩

/-- The subscriptions on a device are listed in the order of the index. -/
theorem Exact.map_key_subscriptionsFor {w : Watchlist} (exact : w.Exact) (device : DeviceId) :
    (w.subscriptionsFor device).map Subscription.key = w.keysOn device := by
  have subscribed := exact.subscribed device
  rw [subscriptionsFor, ← keysOn, List.map_filterMap]
  generalize w.keysOn device = keys at subscribed
  induction keys with
  | nil => rfl
  | cons key rest ih =>
    obtain ⟨first, others⟩ := List.forall_mem_cons.1 subscribed
    obtain ⟨s, found⟩ := Option.isSome_iff_exists.1 first
    simp [found, (exact.named found).1, ih others]

theorem Exact.nodup_subscriptionsFor {w : Watchlist} (exact : w.Exact) (device : DeviceId) :
    ((w.subscriptionsFor device).map Subscription.key).Nodup := by
  rw [exact.map_key_subscriptionsFor, List.nodup_iff_count_le_one]
  intro key
  by_cases member : key ∈ w.keysOn device
  · obtain ⟨s, found⟩ := Option.isSome_iff_exists.1 (exact.subscribed device key member)
    rw [exact.count found]
    split <;> simp
  · simp [List.count_eq_zero_of_not_mem member]

theorem length_subscriptionsOf (lookup : DeviceId → Option Device) {a : Automation}
    (checked : a.checkTriggers = .ok ()) :
    (subscriptionsOf lookup a).length = a.conditionTriggers.length := by
  -- No trigger is left out, because none of those that watch a device lacks one.
  have made : ∀ p ∈ a.conditionTriggers, (p.2.device?).isSome = true := by
    rintro ⟨index, t⟩ member
    simp only [Automation.conditionTriggers, Automation.positions, List.mem_filter, List.mem_map,
      Prod.exists] at member
    obtain ⟨⟨t, index, place, ⟨rfl, rfl⟩⟩, condition⟩ := member
    have among : t ∈ a.triggers := List.mem_of_getElem? (List.mem_zipIdx_iff_getElem?.1 place)
    exact Option.isSome_iff_exists.2 (Automation.device?_of_checkFrom checked among condition)
  rw [subscriptionsOf]
  generalize a.conditionTriggers = ts at made
  induction ts with
  | nil => rfl
  | cons first rest ih =>
    obtain ⟨own, others⟩ := List.forall_mem_cons.1 made
    obtain ⟨device, watched⟩ := Option.isSome_iff_exists.1 own
    simp [watched, ih others]

/-- What watching answers. -/
theorem fst_watch (w : Watchlist) (lookup : DeviceId → Option Device) (a : Automation) :
    (w.watch lookup a).1 =
      a.checkTriggers.map fun () => if a.enabled then a.conditionTriggers.length else 0 := by
  unfold watch
  cases checked : a.checkTriggers with
  | error fault => rfl
  | ok u =>
    cases enabled : a.enabled with
    | false => simp [Except.map]
    | true => simp [Except.map, length_subscriptionsOf lookup checked]

theorem isWatchable_iff (w : Watchlist) (lookup : DeviceId → Option Device) (a : Automation) :
    isWatchable a = true ↔ a.enabled = true ∧ ∃ n, (w.watch lookup a).1 = .ok n := by
  rw [fst_watch, isWatchable]
  cases a.checkTriggers <;> simp [Except.map, Except.isOk, Except.toBool]

theorem subscriptions_unwatch (w : Watchlist) (id : AutomationId) (key : WatchKey) :
    (w.unwatch id).2.subscriptions.get? key =
      if key.automation = id then none else w.subscriptions.get? key :=
  subscriptions_detach w id key

/-- Watching an automation leaves the subscriptions of the others alone. -/
theorem Indexed.subscriptions_watch_other {w : Watchlist} (indexed : w.Indexed)
    (lookup : DeviceId → Option Device) (a : Automation) {key : WatchKey}
    (other : key.automation ≠ a.id) :
    (w.watch lookup a).2.subscriptions.get? key = w.subscriptions.get? key := by
  cases accepted : isWatchable a with
  | false => rw [watch_of_not_isWatchable accepted, subscriptions_unwatch, if_neg other]
  | true =>
    refine Option.ext fun s => ?_
    rw [(indexed.watch lookup accepted).2.1]
    constructor
    · rintro (⟨member, rfl⟩ | ⟨-, old⟩)
      · obtain ⟨index, t, device, -, -, rfl⟩ := mem_subscriptionsOf.1 member
        exact absurd rfl other
      · exact old
    · intro old
      exact .inr ⟨other, old⟩

/-- The subscriptions of an automation that is watched are those of its conditions, each under the
position of the trigger. -/
theorem Indexed.trigger_watch {w : Watchlist} (indexed : w.Indexed)
    (lookup : DeviceId → Option Device) {a : Automation} (accepted : isWatchable a = true)
    (index : Nat) :
    ((w.watch lookup a).2.subscriptions.get? ⟨a.id, index⟩).map Subscription.trigger =
      a.triggers[index]?.filter Trigger.isCondition := by
  have found {s : Subscription} :
      (w.watch lookup a).2.subscriptions.get? ⟨a.id, index⟩ = some s ↔
        s ∈ subscriptionsOf lookup a ∧ s.key = ⟨a.id, index⟩ := by
    simp [(indexed.watch lookup accepted).2.1]
  refine Option.ext fun t => ?_
  simp only [Option.map_eq_some_iff, Option.filter_eq_some_iff, found]
  constructor
  · rintro ⟨s, ⟨member, own⟩, rfl⟩
    obtain ⟨place, t, device, here, watched, rfl⟩ := mem_subscriptionsOf.1 member
    obtain rfl : place = index := congrArg WatchKey.index own
    exact ⟨here, isCondition_of_device? watched⟩
  · rintro ⟨here, condition⟩
    obtain ⟨device, watched⟩ := Automation.device?_of_checkFrom
      (checkTriggers_of_isWatchable accepted) (List.mem_of_getElem? here) condition
    exact ⟨_, ⟨mem_subscriptionsOf.2 ⟨index, t, device, here, watched, rfl⟩, rfl⟩, rfl⟩

/-- Whatever has happened to a watchlist, its tables fit each other, and it answers for a device the
subscriptions on it, each once. Watching an automation that is enabled and in order gives it a
subscription for each of its conditions and no other; watching any other one and forgetting leave it
none. The subscriptions of the other automations stay as they are. -/
theorem index_exact (cooldown : Duration) (past : List WatchEvent) :
    (after cooldown past).Exact ∧
    (∀ device, (((after cooldown past).subscriptionsFor device).map Subscription.key).Nodup ∧
      ∀ s, s ∈ (after cooldown past).subscriptionsFor device ↔
        (after cooldown past).subscriptions.get? s.key = some s ∧ s.device = device) ∧
    (∀ lookup a,
      (∀ n, a.enabled = true → ((after cooldown past).watch lookup a).1 = .ok n →
        n = a.conditionTriggers.length ∧
        ∀ index,
          (((after cooldown past).watch lookup a).2.subscriptions.get? ⟨a.id, index⟩).map
            Subscription.trigger = a.triggers[index]?.filter Trigger.isCondition) ∧
      ((a.enabled = false ∨ ∃ fault, ((after cooldown past).watch lookup a).1 = .error fault) →
        ∀ index,
          ((after cooldown past).watch lookup a).2.subscriptions.get? ⟨a.id, index⟩ = none) ∧
      (∀ key : WatchKey, key.automation ≠ a.id →
        ((after cooldown past).watch lookup a).2.subscriptions.get? key =
          (after cooldown past).subscriptions.get? key)) ∧
    (∀ id,
      (∀ index, ((after cooldown past).unwatch id).2.subscriptions.get? ⟨id, index⟩ = none) ∧
      (∀ key : WatchKey, key.automation ≠ id →
        ((after cooldown past).unwatch id).2.subscriptions.get? key =
          (after cooldown past).subscriptions.get? key)) := by
  have exact := exact_after cooldown past
  have indexed := (recalls_after cooldown past).indexed
  refine ⟨exact, fun device => ⟨exact.nodup_subscriptionsFor device,
    fun s => exact.mem_subscriptionsFor⟩, ?_, ?_⟩
  · intro lookup a
    refine ⟨?_, ?_, fun key other => indexed.subscriptions_watch_other lookup a other⟩
    · intro n enabled answered
      have accepted := (isWatchable_iff _ lookup a).2 ⟨enabled, n, answered⟩
      rw [fst_watch, checkTriggers_of_isWatchable accepted, enabled] at answered
      exact ⟨(Except.ok.inj answered).symm, indexed.trigger_watch lookup accepted⟩
    · -- An automation that is refused has been detached all the same.
      intro refused index
      have unwatchable : isWatchable a = false := by
        rw [← Bool.not_eq_true, isWatchable_iff (after cooldown past) lookup]
        rintro ⟨enabled, n, answered⟩
        rcases refused with disabled | ⟨fault, failed⟩
        · simp [enabled] at disabled
        · simp [answered] at failed
      rw [watch_of_not_isWatchable unwatchable, subscriptions_unwatch, if_pos rfl]
  · intro id
    refine ⟨fun index => ?_, fun key other => ?_⟩
    · rw [subscriptions_unwatch, if_pos rfl]
    · rw [subscriptions_unwatch, if_neg other]

/-- Looks at the door with two conditions and at the window with one. -/
def sentry : Automation :=
  { id := ⟨⟨8⟩⟩, name := "sentry", enabled := true
    triggers :=
      [.condition (some ⟨"door"⟩) none none (some (.text "open")), .manual,
        .condition (some ⟨"window"⟩) none none (some (.text "open")),
        .condition (some ⟨"door"⟩) none none (some (.text "ajar"))]
    actions := [] }

/-- The sentry is watched twice and the doorbell in between, so its keys stand behind that of the
doorbell, each once. -/
def guardedHouse : List WatchEvent :=
  [.watch (fun _ => none) sentry, .watch (fun _ => none) doorbell, .watch (fun _ => none) sentry]

theorem index_exact_guardedHouse :
    (after .zero guardedHouse).keysOn ⟨"door"⟩ = [⟨doorbell.id, 1⟩, ⟨sentry.id, 0⟩, ⟨sentry.id, 3⟩] ∧
    ((after .zero guardedHouse).subscriptionsFor ⟨"door"⟩).length = 3 ∧
    ((after .zero guardedHouse).keysOn ⟨"window"⟩).count ⟨sentry.id, 2⟩ = 1 ∧
    ∀ index, ((after .zero guardedHouse).unwatch sentry.id).2.subscriptions.get? ⟨sentry.id, index⟩ =
      none := by
  have keys : (after .zero guardedHouse).keysOn ⟨"door"⟩ =
      [⟨doorbell.id, 1⟩, ⟨sentry.id, 0⟩, ⟨sentry.id, 3⟩] := by decide +kernel
  obtain ⟨exact, -, -, forgotten⟩ := index_exact .zero guardedHouse
  refine ⟨keys, ?_, ?_, (forgotten sentry.id).1⟩
  · have listed := exact.map_key_subscriptionsFor ⟨"door"⟩
    rw [keys] at listed
    simpa using congrArg List.length listed
  · have device : ((after .zero guardedHouse).subscriptions.get? ⟨sentry.id, 2⟩).map
        Subscription.device = some ⟨"window"⟩ := by decide +kernel
    obtain ⟨s, found, here⟩ := Option.map_eq_some_iff.1 device
    rw [exact.count found, if_pos here.symm]

end Watchlist

end Hearth

import Hearth.Proofs.Table
import Hearth.Watch.Watchlist

/-!
# Hearth.Proofs.Watch.Index

The subscriptions and the index that finds them by device.

## Main definitions

`Watchlist.keysOn`: the keys that the index has for a device.
`Watchlist.Indexed`: the index has every subscription under its device, once, and nothing else.
`Watchlist.isWatchable`: whether an automation is watched at all.

## Main results

`Watchlist.Indexed.detach`: taking the subscriptions of an automation out keeps the index.
`Watchlist.Indexed.watch`: what watching an automation puts in their place.
-/

namespace Hearth.Watchlist

/-- The keys that the index has for a device. -/
def keysOn (w : Watchlist) (device : DeviceId) : List WatchKey := (w.byDevice.get? device).getD []

/-- The index has every subscription under its device, once, and nothing else; automations stand
under their identifiers. -/
structure Indexed (w : Watchlist) : Prop where
  nodup_devices : w.byDevice.keys.Nodup
  nodup_keysOn : ∀ device, (w.keysOn device).Nodup
  mem_keysOn : ∀ {device key}, key ∈ w.keysOn device ↔
    ∃ s, w.subscriptions.get? key = some s ∧ s.device = device
  named : ∀ {id a}, w.automations.get? id = some a → a.id = id

theorem Indexed.empty : Watchlist.empty.Indexed where
  nodup_devices := .nil
  nodup_keysOn _ := .nil
  mem_keysOn := ⟨nofun, nofun⟩
  named := nofun

/-! ### Taking subscriptions out -/

theorem keysOn_detach {w : Watchlist} (nodup : w.byDevice.keys.Nodup) (id : AutomationId)
    (device : DeviceId) :
    (w.detach id).keysOn device = (w.keysOn device).filter fun key => key.automation ≠ id :=
  Table.getD_get?_thin nodup _ device

theorem subscriptions_detach (w : Watchlist) (id : AutomationId) (key : WatchKey) :
    (w.detach id).subscriptions.get? key =
      if key.automation = id then none else w.subscriptions.get? key := by
  have looked := Table.get?_filter_keys w.subscriptions (fun key => decide (key.automation ≠ id)) key
  refine looked.trans ?_
  by_cases owned : key.automation = id <;> simp [owned]

theorem automations_detach (w : Watchlist) (id other : AutomationId) :
    (w.detach id).automations.get? other =
      if other = id then none else w.automations.get? other :=
  Table.get?_erase _ _ _

theorem Indexed.detach {w : Watchlist} (indexed : w.Indexed) (id : AutomationId) :
    (w.detach id).Indexed where
  nodup_devices := Table.nodup_keys_thin indexed.nodup_devices _
  nodup_keysOn device := by
    rw [keysOn_detach indexed.nodup_devices]
    exact (indexed.nodup_keysOn device).filter _
  mem_keysOn := by
    intro device key
    rw [keysOn_detach indexed.nodup_devices, List.mem_filter, indexed.mem_keysOn,
      subscriptions_detach]
    by_cases owned : key.automation = id <;> simp [owned]
  named := by
    intro other a found
    rw [automations_detach] at found
    split at found
    · cases found
    · exact indexed.named found

/-! ### Adding subscriptions -/

theorem keysOn_subscribe (w : Watchlist) (s : Subscription) (device : DeviceId) :
    (w.subscribe s).keysOn device =
      if device = s.device then w.keysOn s.device ++ [s.key] else w.keysOn device := by
  unfold keysOn subscribe
  rw [Table.get?_insert]
  split
  · next same => rfl
  · rfl

theorem Indexed.key_not_mem_keysOn {w : Watchlist} (indexed : w.Indexed) {key : WatchKey}
    (fresh : w.subscriptions.get? key = none) (device : DeviceId) : key ∉ w.keysOn device := by
  intro present
  obtain ⟨s, found, -⟩ := indexed.mem_keysOn.1 present
  exact absurd (fresh.symm.trans found) nofun

/-- A subscription with a key of its own is added. -/
theorem Indexed.subscribe {w : Watchlist} (indexed : w.Indexed) {s : Subscription}
    (fresh : w.subscriptions.get? s.key = none) : (w.subscribe s).Indexed where
  nodup_devices := Table.nodup_keys_insert indexed.nodup_devices _ _
  nodup_keysOn device := by
    rw [keysOn_subscribe]
    split
    · rw [← List.concat_eq_append]
      exact List.Nodup.concat (indexed.key_not_mem_keysOn fresh _) (indexed.nodup_keysOn _)
    · exact indexed.nodup_keysOn device
  mem_keysOn := by
    intro device key
    have looked : (w.subscribe s).subscriptions.get? key =
        if key = s.key then some s else w.subscriptions.get? key := Table.get?_insert _ _ _ _
    rw [keysOn_subscribe, looked]
    by_cases own : key = s.key
    · subst own
      have absent := indexed.key_not_mem_keysOn fresh device
      by_cases here : device = s.device
      · simp [here]
      · simp [here, absent, Ne.symm here]
    · by_cases here : device = s.device
      · simp [here, own, indexed.mem_keysOn]
      · simp [here, own, indexed.mem_keysOn]
  named := indexed.named

theorem Indexed.foldl_subscribe (added : List Subscription) {w : Watchlist} (indexed : w.Indexed)
    (distinct : (added.map Subscription.key).Nodup)
    (fresh : ∀ s ∈ added, w.subscriptions.get? s.key = none) :
    (added.foldl Watchlist.subscribe w).Indexed ∧
    (∀ {key s}, (added.foldl Watchlist.subscribe w).subscriptions.get? key = some s ↔
      s ∈ added ∧ s.key = key ∨ w.subscriptions.get? key = some s) := by
  -- Each subscription is new to the watchlist that the ones before it have led to.
  induction added generalizing w with
  | nil => exact ⟨indexed, by simp⟩
  | cons first rest ih =>
    rw [List.map_cons, List.nodup_cons] at distinct
    have looked (key : WatchKey) : (w.subscribe first).subscriptions.get? key =
        if key = first.key then some first else w.subscriptions.get? key := Table.get?_insert _ _ _ _
    have unused := fresh first List.mem_cons_self
    have freshAfter : ∀ s ∈ rest, (w.subscribe first).subscriptions.get? s.key = none := by
      intro s member
      have other : s.key ≠ first.key := fun same =>
        distinct.1 (same ▸ List.mem_map_of_mem member)
      rw [looked, if_neg other]
      exact fresh s (List.mem_cons_of_mem _ member)
    obtain ⟨indexedAfter, found⟩ := ih (indexed.subscribe unused) distinct.2 freshAfter
    refine ⟨indexedAfter, ?_⟩
    intro key s
    rw [List.foldl_cons, found, looked, List.mem_cons]
    by_cases own : key = first.key
    · subst own
      simp only [↓reduceIte, unused, Option.some.injEq, reduceCtorEq, or_false]
      constructor
      · rintro (⟨member, same⟩ | rfl)
        · exact ⟨.inr member, same⟩
        · exact ⟨.inl rfl, rfl⟩
      · rintro ⟨rfl | member, same⟩
        · exact .inr rfl
        · exact .inl ⟨member, same⟩
    · rw [if_neg own]
      constructor
      · rintro (⟨member, same⟩ | old)
        · exact .inl ⟨.inr member, same⟩
        · exact .inr old
      · rintro (⟨rfl | member, same⟩ | old)
        · exact absurd same.symm own
        · exact .inl ⟨member, same⟩
        · exact .inr old

theorem foldl_subscribe_others (added : List Subscription) (w : Watchlist) :
    (added.foldl subscribe w).automations = w.automations ∧
    (added.foldl subscribe w).lastFired = w.lastFired := by
  induction added generalizing w with
  | nil => exact ⟨rfl, rfl⟩
  | cons first rest ih => exact ih (w.subscribe first)

theorem isCondition_of_device? {t : Trigger} {device : DeviceId} (watched : t.device? = some device) :
    t.isCondition = true := by
  cases t with
  | condition device comparison threshold value => rfl
  | _ => cases watched

/-- There is a subscription for every trigger with a device. -/
theorem mem_subscriptionsOf {lookup : DeviceId → Option Device} {a : Automation} {s : Subscription} :
    s ∈ subscriptionsOf lookup a ↔
      ∃ index t device, a.triggers[index]? = some t ∧ t.device? = some device ∧
        s = { key := ⟨a.id, index⟩, device, trigger := t,
              lastResult := (lookup device).map fun d => (t.evaluate d.value).met } := by
  simp only [subscriptionsOf, Automation.conditionTriggers, Automation.positions, List.mem_filterMap,
    List.mem_filter, List.mem_map, Prod.exists, List.mem_zipIdx_iff_getElem?, Option.map_eq_some_iff]
  constructor
  · rintro ⟨index, t, ⟨⟨t, index, found, ⟨rfl, rfl⟩⟩, -⟩, device, watched, rfl⟩
    exact ⟨index, t, device, found, watched, rfl⟩
  · rintro ⟨index, t, device, found, watched, rfl⟩
    exact ⟨index, t, ⟨⟨t, index, found, rfl⟩, isCondition_of_device? watched⟩, device, watched, rfl⟩

theorem nodup_keys_subscriptionsOf (lookup : DeviceId → Option Device) (a : Automation) :
    ((subscriptionsOf lookup a).map Subscription.key).Nodup := by
  have places : (a.triggers.zipIdx.map Prod.snd).Nodup := by
    rw [List.zipIdx_map_snd]
    exact List.nodup_range'
  have apart : a.conditionTriggers.Pairwise fun p q => p.1 ≠ q.1 := by
    refine List.Pairwise.filter _ ?_
    exact List.pairwise_map.2 (List.pairwise_map.1 places)
  -- Two subscriptions with one key would come from one position.
  rw [List.Nodup, List.pairwise_map, subscriptionsOf, List.pairwise_filterMap]
  refine apart.imp ?_
  rintro ⟨i, t⟩ ⟨j, u⟩ different s made s' made' same
  obtain ⟨device, -, rfl⟩ := Option.map_eq_some_iff.1 made
  obtain ⟨device', -, rfl⟩ := Option.map_eq_some_iff.1 made'
  exact different (congrArg WatchKey.index same)

/-! ### Watching -/

/-- An automation that is enabled and in order is watched; any other is forgotten. -/
def isWatchable (a : Automation) : Bool := a.enabled && a.checkTriggers.isOk

theorem watch_of_not_isWatchable {a : Automation} (refused : isWatchable a = false) (w : Watchlist)
    (lookup : DeviceId → Option Device) : (w.watch lookup a).2 = (w.unwatch a.id).2 := by
  unfold watch
  split
  · rfl
  · next checked =>
    have disabled : a.enabled = false := by
      simpa [isWatchable, checked, Except.isOk, Except.toBool] using refused
    rw [disabled]
    rfl

theorem checkTriggers_of_isWatchable {a : Automation} (accepted : isWatchable a = true) :
    a.checkTriggers = .ok () := by
  cases result : a.checkTriggers with
  | ok u => rfl
  | error fault => simp [isWatchable, result, Except.isOk, Except.toBool] at accepted

/-- An automation that is watched loses what it had and gets what it asks for. -/
theorem watch_of_isWatchable {a : Automation} (accepted : isWatchable a = true) (w : Watchlist)
    (lookup : DeviceId → Option Device) :
    (w.watch lookup a).2 =
      let bare := (subscriptionsOf lookup a).foldl subscribe (w.detach a.id)
      if (subscriptionsOf lookup a).isEmpty then bare
      else { bare with automations := bare.automations.insert a.id a } := by
  have enabled : a.enabled = true := (Bool.and_eq_true _ _ ▸ accepted).1
  simp only [watch, checkTriggers_of_isWatchable accepted, enabled, Bool.not_true,
    Bool.false_eq_true, ↓reduceIte]

/-- Watching puts the subscriptions of an automation in place of those that it had. -/
theorem Indexed.watch {w : Watchlist} (indexed : w.Indexed) (lookup : DeviceId → Option Device)
    {a : Automation} (accepted : isWatchable a = true) :
    (w.watch lookup a).2.Indexed ∧
    (∀ {key s}, (w.watch lookup a).2.subscriptions.get? key = some s ↔
      s ∈ subscriptionsOf lookup a ∧ s.key = key ∨
      key.automation ≠ a.id ∧ w.subscriptions.get? key = some s) ∧
    (∀ {id x}, (w.watch lookup a).2.automations.get? id = some x ↔
      id = a.id ∧ x = a ∧ subscriptionsOf lookup a ≠ [] ∨
      id ≠ a.id ∧ w.automations.get? id = some x) ∧
    (w.watch lookup a).2.lastFired = w.lastFired := by
  let added := subscriptionsOf lookup a
  let bare := added.foldl Watchlist.subscribe (w.detach a.id)
  have answer : (w.watch lookup a).2 = if added.isEmpty then bare else
      { bare with automations := bare.automations.insert a.id a } :=
    watch_of_isWatchable accepted w lookup
  have foreign : ∀ s ∈ added, (w.detach a.id).subscriptions.get? s.key = none := by
    intro s member
    obtain ⟨index, t, device, -, -, rfl⟩ := mem_subscriptionsOf.1 member
    rw [subscriptions_detach, if_pos rfl]
  obtain ⟨subscribed, found⟩ :=
    (indexed.detach a.id).foldl_subscribe added (nodup_keys_subscriptionsOf lookup a) foreign
  -- What the old subscriptions were does not matter any more, as they have been detached.
  obtain ⟨automations, lastFired⟩ := foldl_subscribe_others added (w.detach a.id)
  have subscriptions {key : WatchKey} {s : Subscription} :
      bare.subscriptions.get? key = some s ↔
        s ∈ added ∧ s.key = key ∨ key.automation ≠ a.id ∧ w.subscriptions.get? key = some s := by
    rw [found, subscriptions_detach]
    by_cases own : key.automation = a.id <;> simp [own]
  have others {id : AutomationId} {x : Automation} :
      bare.automations.get? id = some x ↔ id ≠ a.id ∧ w.automations.get? id = some x := by
    rw [automations, automations_detach]
    by_cases own : id = a.id <;> simp [own]
  rw [answer]
  cases nothing : added.isEmpty with
  | true =>
    have empty : added = [] := List.isEmpty_iff.1 nothing
    refine ⟨subscribed, subscriptions, ?_, lastFired⟩
    intro id x
    refine others.trans ⟨.inr, ?_⟩
    rintro (⟨-, -, present⟩ | old)
    · exact absurd empty present
    · exact old
  | false =>
    have present : added ≠ [] := by simpa using nothing
    have renamed {id : AutomationId} {x : Automation} :
        (bare.automations.insert a.id a).get? id = some x ↔
          id = a.id ∧ x = a ∧ added ≠ [] ∨ id ≠ a.id ∧ w.automations.get? id = some x := by
      rw [Table.get?_insert]
      by_cases own : id = a.id
      · simp [own, present, eq_comm]
      · simp [own, others]
    refine ⟨{ subscribed with named := ?_ }, subscriptions, renamed, lastFired⟩
    intro id x found
    rcases renamed.1 found with ⟨same, rfl, -⟩ | ⟨-, old⟩
    · exact same.symm
    · exact indexed.named old

end Hearth.Watchlist

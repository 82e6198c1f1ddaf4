import Hearth.Proofs.Watch.Index

/-!
# Hearth.Proofs.Watch.Update

What an update answers and what it leaves behind.

## Main definitions

`Watchlist.Fires`: a condition has become met and its automation is not resting.
`Watchlist.Looked`: what has become of a watchlist when some of the keys on a device have been
looked at.

## Main results

`Watchlist.Looked.reevaluate`: one more look.
`Watchlist.Indexed.looked_update`: an update looks at all the keys on its device.
-/

namespace Hearth

namespace Watchlist

variable {cooldown now : Duration} {value : DeviceValue}

/-! ### One update -/

/-- The subscription after a look at its condition. -/
def look (value : DeviceValue) (s : Subscription) : Subscription :=
  { s with lastResult := some (s.trigger.evaluate value).met }

/-- The condition under a key was known not to be met, is met now, and may fire its automation. -/
structure Fires (w : Watchlist) (cooldown now : Duration) (value : DeviceValue) (key : WatchKey)
    (a : Automation) : Prop where
  edge : ∃ s, w.subscriptions.get? key = some s ∧ s.lastResult = some false ∧
    (s.trigger.evaluate value).met = true
  watched : w.automations.get? key.automation = some a
  rested : w.isResting cooldown now key.automation = false

/-- What has become of a watchlist and of the list of those that fire when some keys have been looked
at. -/
structure Looked (w : Watchlist) (cooldown now : Duration) (value : DeviceValue)
    (seen : List WatchKey) (state : List Automation × Watchlist) : Prop where
  automations : state.2.automations = w.automations
  byDevice : state.2.byDevice = w.byDevice
  subscriptions : ∀ key, state.2.subscriptions.get? key =
    if key ∈ seen then (w.subscriptions.get? key).map (look value) else w.subscriptions.get? key
  mem_iff : ∀ x, x ∈ state.1 ↔ ∃ key ∈ seen, w.Fires cooldown now value key x
  nodup : (state.1.map Automation.id).Nodup
  lastFired : ∀ id, state.2.lastFired.get? id =
    if id ∈ state.1.map Automation.id then some now else w.lastFired.get? id

theorem Looked.start (w : Watchlist) : w.Looked cooldown now value [] ([], w) :=
  ⟨rfl, rfl, fun _ => rfl, by simp, .nil, fun _ => rfl⟩

theorem isResting_congr {w u : Watchlist} {id : AutomationId}
    (same : u.lastFired.get? id = w.lastFired.get? id) :
    u.isResting cooldown now id = w.isResting cooldown now id := by
  simp only [isResting, same]

theorem exists_mem_snoc {seen : List WatchKey} {key : WatchKey} {p : WatchKey → Prop} :
    (∃ k ∈ seen ++ [key], p k) ↔ (∃ k ∈ seen, p k) ∨ p key := by
  simp only [List.mem_append, List.mem_singleton, or_and_right, exists_or, exists_eq_left]

theorem Looked.subscriptions_snoc {w v : Watchlist} {seen : List WatchKey}
    {state : List Automation × Watchlist} (looked : w.Looked cooldown now value seen state)
    {key : WatchKey}
    (marked : ∀ k, v.subscriptions.get? k =
      if k = key then (w.subscriptions.get? key).map (look value)
      else state.2.subscriptions.get? k) (k : WatchKey) :
    v.subscriptions.get? k = if k ∈ seen ++ [key] then (w.subscriptions.get? k).map (look value)
      else w.subscriptions.get? k := by
  rw [marked, looked.subscriptions]
  by_cases here : k = key
  · simp [here]
  · simp [here]

/-- A look that fires nothing new only takes the result down. -/
theorem Looked.note {w u v : Watchlist} {seen : List WatchKey} {firing : List Automation}
    (looked : w.Looked cooldown now value seen (firing, u)) {key : WatchKey}
    (automations : v.automations = u.automations) (byDevice : v.byDevice = u.byDevice)
    (lastFired : v.lastFired = u.lastFired)
    (marked : ∀ k, v.subscriptions.get? k =
      if k = key then (w.subscriptions.get? key).map (look value) else u.subscriptions.get? k)
    (nothing : ∀ x, w.Fires cooldown now value key x → x ∈ firing) :
    w.Looked cooldown now value (seen ++ [key]) (firing, v) where
  automations := automations.trans looked.automations
  byDevice := byDevice.trans looked.byDevice
  subscriptions := looked.subscriptions_snoc marked
  mem_iff x := by
    rw [exists_mem_snoc, ← looked.mem_iff]
    exact ⟨.inl, fun either => either.elim id (nothing x)⟩
  nodup := looked.nodup
  lastFired id := by
    rw [lastFired]
    exact looked.lastFired id

/-- A look that fires an automation puts it behind the others and takes down when. -/
theorem Looked.fire {w u v : Watchlist} {seen : List WatchKey} {firing : List Automation}
    (looked : w.Looked cooldown now value seen (firing, u)) {key : WatchKey} {a : Automation}
    (automations : v.automations = u.automations) (byDevice : v.byDevice = u.byDevice)
    (lastFired : v.lastFired = u.lastFired.insert a.id now)
    (marked : ∀ k, v.subscriptions.get? k =
      if k = key then (w.subscriptions.get? key).map (look value) else u.subscriptions.get? k)
    (missing : a.id ∉ firing.map Automation.id) (fires : w.Fires cooldown now value key a) :
    w.Looked cooldown now value (seen ++ [key]) (firing ++ [a], v) where
  automations := automations.trans looked.automations
  byDevice := byDevice.trans looked.byDevice
  subscriptions := looked.subscriptions_snoc marked
  mem_iff x := by
    rw [exists_mem_snoc, ← looked.mem_iff, List.mem_append, List.mem_singleton]
    refine or_congr_right ⟨?_, ?_⟩
    · rintro rfl
      exact fires
    · intro also
      exact Option.some.inj (also.watched.symm.trans fires.watched)
  nodup := by
    rw [List.map_append, List.map_singleton, ← List.concat_eq_append]
    exact List.Nodup.concat missing looked.nodup
  lastFired id := by
    have found := looked.lastFired id
    simp only [lastFired, Table.get?_insert, List.map_append, List.mem_append, List.map_singleton,
      List.mem_singleton]
    by_cases own : id = a.id
    · simp [own]
    · simpa [own] using found

theorem Looked.mem_of_watched {w : Watchlist} (indexed : w.Indexed) {seen : List WatchKey}
    {state : List Automation × Watchlist} (looked : w.Looked cooldown now value seen state)
    {id : AutomationId} (among : id ∈ state.1.map Automation.id) {a : Automation}
    (watched : w.automations.get? id = some a) : a ∈ state.1 := by
  obtain ⟨other, member, rfl⟩ := List.mem_map.1 among
  obtain ⟨key, -, fires⟩ := (looked.mem_iff other).1 member
  have same : other.id = key.automation := indexed.named fires.watched
  rw [same] at watched
  exact Option.some.inj (fires.watched.symm.trans watched) ▸ member

theorem Looked.reevaluate {w : Watchlist} (indexed : w.Indexed) {seen : List WatchKey}
    {state : List Automation × Watchlist} (looked : w.Looked cooldown now value seen state)
    {key : WatchKey} (new : key ∉ seen) :
    w.Looked cooldown now value (seen ++ [key]) (Watchlist.reevaluate cooldown now value state key) := by
  obtain ⟨firing, u⟩ := state
  -- No earlier look has touched this key, so the result is the one from before the update.
  have unseen : u.subscriptions.get? key = w.subscriptions.get? key := by
    rw [looked.subscriptions, if_neg new]
  unfold Watchlist.reevaluate
  dsimp only
  split
  · next absent =>
    rw [absent] at unseen
    refine looked.note rfl rfl rfl ?_ ?_
    · intro k
      by_cases here : k = key
      · simp [here, absent, ← unseen]
      · simp [here]
    · rintro x ⟨⟨s, found, -, -⟩, -, -⟩
      exact absurd (unseen.trans found) nofun
  · next s found =>
    rw [found, eq_comm] at unseen
    have marked (k : WatchKey) :
        (u.subscriptions.insert key (look value s)).get? k =
          if k = key then (w.subscriptions.get? key).map (look value)
          else u.subscriptions.get? k := by
      rw [Table.get?_insert, unseen, Option.map_some]
    -- An automation that has not fired in this update rests if it rested before it.
    have alone : key.automation ∉ firing.map Automation.id →
        u.isResting cooldown now key.automation = w.isResting cooldown now key.automation := by
      intro missing
      exact isResting_congr ((looked.lastFired _).trans (if_neg missing))
    split
    · next blocked =>
      refine looked.note rfl rfl rfl marked ?_
      rintro x ⟨⟨t, known, unmet, met⟩, watched, rested⟩
      obtain rfl : s = t := Option.some.inj (unseen.symm.trans known)
      -- Among those that fire already, it is the very automation that is watched under the key.
      by_cases among : key.automation ∈ firing.map Automation.id
      · exact looked.mem_of_watched indexed among watched
      · have missing : (firing.any fun a => a.id == key.automation) = false := by
          rw [Bool.eq_false_iff]
          exact mt Automation.any_id_iff.1 among
        simp [unmet, met, missing, alone among, rested] at blocked
    · next free =>
      simp only [Bool.or_eq_true, Bool.not_eq_true', not_or, Bool.not_eq_false, Bool.and_eq_true,
        beq_iff_eq, Automation.any_id_iff, Bool.not_eq_true] at free
      obtain ⟨⟨⟨unmet, met⟩, missing⟩, rested⟩ := free
      split
      · next unwatched =>
        refine looked.note rfl rfl rfl marked ?_
        intro x fires
        rw [looked.automations] at unwatched
        exact absurd (unwatched.symm.trans fires.watched) nofun
      · next a watched =>
        rw [looked.automations] at watched
        have named : a.id = key.automation := indexed.named watched
        have fires : w.Fires cooldown now value key a :=
          ⟨⟨s, unseen, unmet, met⟩, watched, alone missing ▸ rested⟩
        exact looked.fire rfl rfl rfl marked (named ▸ missing) fires

theorem Looked.foldl {w : Watchlist} (indexed : w.Indexed) (left : List WatchKey)
    {seen : List WatchKey} {state : List Automation × Watchlist}
    (looked : w.Looked cooldown now value seen state) (distinct : (seen ++ left).Nodup) :
    w.Looked cooldown now value (seen ++ left)
      (left.foldl (Watchlist.reevaluate cooldown now value) state) := by
  induction left generalizing seen state with
  | nil => simpa using looked
  | cons key rest ih =>
    have new : key ∉ seen := by
      intro old
      exact (List.nodup_append.1 distinct).2.2 key old key List.mem_cons_self rfl
    rw [List.append_cons] at distinct ⊢
    exact ih (looked.reevaluate indexed new) distinct

/-- What an update answers, and what it leaves behind. -/
theorem Indexed.looked_update {w : Watchlist} (indexed : w.Indexed) (cooldown now : Duration)
    (d : Device) :
    w.Looked cooldown now d.value (w.keysOn d.id) (w.update cooldown now d) :=
  (Looked.start w).foldl indexed (w.keysOn d.id) (indexed.nodup_keysOn d.id)

theorem Indexed.update {w : Watchlist} (indexed : w.Indexed) (cooldown now : Duration) (d : Device) :
    (w.update cooldown now d).2.Indexed := by
  have looked := indexed.looked_update cooldown now d
  have keysOn (device : DeviceId) : (w.update cooldown now d).2.keysOn device = w.keysOn device := by
    rw [Watchlist.keysOn, looked.byDevice]
    rfl
  refine ⟨?_, ?_, ?_, ?_⟩
  · rw [looked.byDevice]
    exact indexed.nodup_devices
  · intro device
    rw [keysOn]
    exact indexed.nodup_keysOn device
  · intro device key
    rw [keysOn, indexed.mem_keysOn, looked.subscriptions]
    split
    · simp [look]
    · rfl
  · intro id a found
    rw [looked.automations] at found
    exact indexed.named found

end Watchlist

end Hearth

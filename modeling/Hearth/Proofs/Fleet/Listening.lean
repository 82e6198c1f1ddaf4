import Mathlib.Logic.Function.Iterate
import Hearth.Household
import Hearth.Proofs.Channel
import Hearth.Proofs.Watch.Rewatch

/-!
# Hearth.Proofs.Fleet.Listening

The one who listens to a fleet: taking what the fleet announces one item at a time, and entering all
that is left at once.

## Main definition

`Household.takeUpdate`: the listener takes one item.

## Main results

`Household.takeUpdate_iterate`: all that the listener gets when it takes as much as there can be.
`HouseholdHost.enterUpdates_takes`: entering all updates is taking one after another, and those who watch
hear of each together with the registry.
-/

namespace Hearth

namespace Household

/-- The listener takes the next item of the stream, if there is one, and enters it. What the stream has
lost is passed over. -/
def takeUpdate (h : Household) : Household :=
  match h.fleet.updates.receive h.listener with
  | (.item d, next) => { h with registry := h.registry.upsert d, listener := next }
  | (_, next) => { h with listener := next }

/-! ### Taking everything -/

variable {h : Household} {items : List Device}

/-- A listener that has not fallen behind gets all that is left. -/
theorem takeUpdate_iterate_near (holds : h.fleet.updates.Holds items)
    (near : items.length ≤ h.listener + h.fleet.updates.capacity)
    (inside : h.listener ≤ items.length) {count : Nat} (enough : items.length ≤ h.listener + count) :
    takeUpdate^[count] h =
      { h with
        registry := (items.drop h.listener).foldl Registry.upsert h.registry
        listener := items.length } := by
  induction count generalizing h with
  | zero =>
    have all : h.listener = items.length := by omega
    rw [all, List.drop_length]
    show h = { h with listener := items.length }
    rw [← all]
  | succ count ih =>
    rw [Function.iterate_succ_apply]
    cases next : items[h.listener]? with
    | none =>
      -- Nothing is left, and the rest of the turns change nothing.
      have all : items.length ≤ h.listener := List.getElem?_eq_none_iff.1 next
      have same : h.takeUpdate = h := by simp only [takeUpdate, holds.receive_of_le all]
      rw [same]
      exact ih holds near inside (by omega)
    | some d =>
      have place := (List.getElem?_eq_some_iff.1 next).1
      have moved : h.takeUpdate =
          { h with registry := h.registry.upsert d, listener := h.listener + 1 } := by
        simp only [takeUpdate, holds.receive_of_get near next]
      have rest : items.drop h.listener = d :: items.drop (h.listener + 1) := by
        rw [List.drop_eq_getElem_cons place, (List.getElem?_eq_some_iff.1 next).2]
      rw [moved, rest]
      refine ih (h := { h with registry := h.registry.upsert d, listener := h.listener + 1 }) holds
        ?_ place ?_
      all_goals
        dsimp only
        omega

/-- Taking as many items as the stream can keep, and one more, is entering all that is left. -/
theorem takeUpdate_iterate (holds : h.fleet.updates.Holds items) (inside : h.listener ≤ items.length) :
    takeUpdate^[h.fleet.updates.capacity + 1] h =
      { h with
        registry := (h.fleet.updates.drain h.listener).foldl Registry.upsert h.registry
        listener := h.fleet.updates.sent } := by
  rw [holds.drain_eq, holds.sent]
  by_cases far : h.listener + h.fleet.updates.capacity < items.length
  · -- The first thing that the listener gets is that it has fallen behind.
    have moved : h.takeUpdate =
        { h with listener := items.length - h.fleet.updates.capacity } := by
      simp only [takeUpdate, holds.receive_of_lt far]
    have place : max h.listener (items.length - h.fleet.updates.capacity) =
        items.length - h.fleet.updates.capacity := by omega
    rw [Function.iterate_succ_apply, moved, place]
    refine takeUpdate_iterate_near
      (h := { h with listener := items.length - h.fleet.updates.capacity }) holds ?_ ?_ ?_
    all_goals
      dsimp only
      omega
  · have place : max h.listener (items.length - h.fleet.updates.capacity) = h.listener := by omega
    rw [place]
    exact takeUpdate_iterate_near holds (by omega) inside (by omega)

/-! ### Entering everything -/

/-- The listener enters a device, and those who watch hear of it. -/
def enter (cooldown now : Duration) (h : Household) (d : Device) : Household :=
  { h with
    registry := h.registry.upsert d
    watchlist := (h.watchlist.update cooldown now d).2 }

theorem foldl_enter (cooldown now : Duration) (pending : List Device) (h : Household) :
    ∃ watchlist, pending.foldl (enter cooldown now) h =
      { h with registry := pending.foldl Registry.upsert h.registry, watchlist } := by
  induction pending generalizing h with
  | nil => exact ⟨h.watchlist, rfl⟩
  | cons d rest ih =>
    obtain ⟨watchlist, entered⟩ := ih (h.enter cooldown now d)
    exact ⟨watchlist, entered⟩

theorem lookout_foldl_enter (cooldown now : Duration) (pending : List Device) (h : Household) :
    let later := pending.foldl (enter cooldown now) h
    (⟨later.registry, later.watchlist⟩ : Lookout) =
      pending.foldl (fun l d => LookoutEvent.apply cooldown l (.change now d))
        ⟨h.registry, h.watchlist⟩ := by
  induction pending generalizing h with
  | nil => rfl
  | cons d rest ih => exact ih _

end Household

namespace HouseholdHost

variable {σ : Type}

theorem part_dispatch (host : HouseholdHost σ) (config : WatchConfig)
    (run : Automation → Process σ (Except Failure Unit)) (d : Device) (now : Nat) (s : σ) :
    host.part.get ((host.watchlist config run).dispatch d now
        (host.registry.modify (·.upsert d) s)).2.1 =
      (host.part.get s).enter config.cooldown (.ofMillis now) d := by
  simp only [WatchHost.dispatch, WatchHost.collect, watchlist, registry, Field.modify, Field.update,
    Field.comp, host.part.get_set]
  rfl

theorem part_enterUpdates (host : HouseholdHost σ) (config : WatchConfig)
    (run : Automation → Process σ (Except Failure Unit)) (now : Nat) (s : σ) :
    let h := host.part.get s
    host.part.get (host.enterUpdates (host.watchlist config run) now s).1 =
      (h.fleet.updates.drain h.listener).foldl (Household.enter config.cooldown (.ofMillis now))
        { h with listener := h.fleet.updates.sent } := by
  intro h
  -- The place of the listener is moved first; entering does not look at it.
  let known (entered : σ × List (Process σ Unit)) : Household := host.part.get entered.1
  let entering : Household → Device → Household := Household.enter config.cooldown (.ofMillis now)
  refine (@List.foldl_hom _ _ _ known _ entering _ _ ?_).symm.trans ?_
  · intro entered device
    exact (part_dispatch host config run device now entered.1).symm
  · dsimp only [known]
    rw [host.part.get_modify]
    rfl

/-- When the fleet is told from all that it has announced, entering all updates at once does to fleet,
registry and listener what taking them one after another does; and the registry and the watchlist hear of
every update in one step. -/
theorem enterUpdates_takes (host : HouseholdHost σ) (config : WatchConfig)
    (run : Automation → Process σ (Except Failure Unit)) (now : Nat) (s : σ) {items : List Device}
    (holds : (host.part.get s).fleet.updates.Holds items)
    (inside : (host.part.get s).listener ≤ items.length) :
    let h := host.part.get s
    let later := host.part.get (host.enterUpdates (host.watchlist config run) now s).1
    { later with watchlist := h.watchlist } =
      Household.takeUpdate^[h.fleet.updates.capacity + 1] h ∧
    (⟨later.registry, later.watchlist⟩ : Lookout) =
      (h.fleet.updates.drain h.listener).foldl
        (fun l d => LookoutEvent.apply config.cooldown l (.change (.ofMillis now) d))
        ⟨h.registry, h.watchlist⟩ := by
  intro h later
  have entered : later = (h.fleet.updates.drain h.listener).foldl
      (Household.enter config.cooldown (.ofMillis now)) { h with listener := h.fleet.updates.sent } :=
    host.part_enterUpdates config run now s
  constructor
  · obtain ⟨watchlist, same⟩ := Household.foldl_enter config.cooldown (.ofMillis now)
      (h.fleet.updates.drain h.listener) { h with listener := h.fleet.updates.sent }
    rw [Household.takeUpdate_iterate holds inside, entered, same]
  · rw [entered]
    exact Household.lookout_foldl_enter ..

end HouseholdHost

end Hearth

import Hearth.Proofs.Fleet.Announcements
import Hearth.Proofs.Fleet.Listening

/-!
# Hearth.Proofs.Fleet.Convergence

How the registry follows the fleet. It begins with the snapshots of all devices, and a listener enters
what the fleet announces, one item at a time and whenever it gets to run. A listener that falls behind
too far loses announcements.

## Main definitions

`FeedEvent`: what can happen to a fleet and its listener.
`Household.announced`, `Household.skipped`, `Household.taken`: what the fleet has announced so far, which
of it the listener has lost, and what the listener has got.
`Household.Follows`: what every event keeps.

## Main results

`Household.Follows.run`: the registry is what the listener has got, and the fleet is what it has
announced.
`Household.Follows.mem_skipped_iff`: which announcements are lost.
`Household.converges`: a registry whose listener has got everything that is left agrees with every
device whose latest announcement was not lost.
`Household.Follows.enterUpdates`: entering all updates at once gives such a registry.
-/

namespace Hearth

inductive FeedEvent
  | fleet (e : FleetEvent)
  /-- The listener gets to run and takes one item. -/
  | take

def FeedEvent.apply (h : Household) : FeedEvent → Household
  | fleet e => { h with fleet := e.apply h.fleet }
  | take => h.takeUpdate

namespace Household

/-! ### What has happened so far -/

/-- A household after a history, the latest event first. -/
def after (start : Household) : List FeedEvent → Household
  | [] => start
  | event :: past => event.apply (after start past)

/-- What the fleet has announced, the oldest first. -/
def announced (start : Household) : List FeedEvent → List Device
  | [] => []
  | .fleet e :: past => announced start past ++ (e.announces (after start past).fleet).toList
  | .take :: past => announced start past

/-- The numbers of the announcements that the listener was told to have lost. -/
def skipped (start : Household) : List FeedEvent → List Nat
  | [] => []
  | .fleet _ :: past => skipped start past
  | .take :: past =>
    let h := after start past
    match h.fleet.updates.receive h.listener with
    | (.lagged missed, _) => skipped start past ++ List.range' h.listener missed
    | _ => skipped start past

/-- What the listener has got. -/
def taken (start : Household) (past : List FeedEvent) : List Device :=
  Channel.unlost (skipped start past) ((announced start past).take (after start past).listener)

/-- What every event keeps. -/
structure Follows (start : Household) (past : List FeedEvent) : Prop where
  capacity : (after start past).fleet.updates.capacity = Fleet.channelCapacity
  holds : (after start past).fleet.updates.Holds (announced start past)
  near : (after start past).listener ≤ (announced start past).length
  past_skipped : ∀ n ∈ skipped start past, n < (after start past).listener
  registry : (after start past).registry = (taken start past).foldl Registry.upsert start.registry
  sorted : (after start past).fleet.Sorted
  /-- A registry that had heard of everything would agree with the fleet. -/
  fleet : ∀ id a, (after start past).fleet.get? id = some a →
    (((announced start past).foldl Registry.upsert start.registry).get? id).map Device.value =
      some a.value

variable {start : Household} {past : List FeedEvent}

/-! ### Events of the fleet -/

/-- What the fleet announces now does not change what the listener has got. -/
theorem Follows.taken_fleet (follows : Follows start past) (e : FleetEvent) :
    taken start (.fleet e :: past) = taken start past := by
  simp only [taken, announced, skipped, after, FeedEvent.apply]
  rw [List.take_append_of_le_length follows.near]

theorem Follows.event_quiet (follows : Follows start past) {e : FleetEvent}
    (nothing : e.announces (after start past).fleet = none)
    (updates : (e.apply (after start past).fleet).updates = (after start past).fleet.updates)
    (appliances : (e.apply (after start past).fleet).appliances =
      (after start past).fleet.appliances) : Follows start (.fleet e :: past) := by
  have same : announced start (.fleet e :: past) = announced start past := by
    simp only [announced, nothing, Option.toList_none, List.append_nil]
  constructor
  case capacity => exact (congrArg Channel.capacity updates).trans follows.capacity
  case holds =>
    simp only [same, after, FeedEvent.apply, updates]
    exact follows.holds
  case near => exact same ▸ follows.near
  -- The listener has not moved, and has got what it had got.
  case past_skipped => exact follows.past_skipped
  case registry => exact follows.taken_fleet e ▸ follows.registry
  case sorted =>
    simp only [Fleet.Sorted, after, FeedEvent.apply, appliances]
    exact follows.sorted
  case fleet =>
    simp only [same, Fleet.get?, after, FeedEvent.apply, appliances]
    exact follows.fleet

theorem Follows.event_announced (follows : Follows start past) {e : FleetEvent} {a : Appliance}
    {now : Instant} (told : e.announces (after start past).fleet = some (a.device now))
    (changed : e.apply (after start past).fleet =
      ((after start past).fleet.add a).announce (a.device now)) :
    Follows start (.fleet e :: past) := by
  have longer : announced start (.fleet e :: past) = announced start past ++ [a.device now] := by
    simp only [announced, told, Option.toList_some]
  constructor
  case capacity =>
    simp only [after, FeedEvent.apply, changed]
    exact follows.capacity
  case holds =>
    simp only [longer, after, FeedEvent.apply, changed]
    exact follows.holds.send _
  case near =>
    rw [longer, List.length_append]
    exact Nat.le_add_right_of_le follows.near
  case past_skipped => exact follows.past_skipped
  case registry => exact follows.taken_fleet e ▸ follows.registry
  case sorted =>
    simp only [after, FeedEvent.apply, changed]
    exact follows.sorted.add a
  case fleet =>
    intro id b known
    simp only [after, FeedEvent.apply, changed] at known
    have known := (Fleet.get?_add _ a id).symm.trans known
    rw [longer, List.foldl_append, List.foldl_cons, List.foldl_nil, Registry.get?_upsert]
    -- The device that has changed is the one that is announced; the others stay as they were.
    by_cases own : id = (a.device now).id
    · rw [if_pos (show id = a.id from own)] at known
      obtain rfl := Option.some.inj known
      rw [if_pos own]
      rfl
    · rw [if_neg (show ¬id = a.id from own)] at known
      rw [if_neg own]
      exact follows.fleet id b known

theorem Follows.event (follows : Follows start past) (e : FleetEvent) :
    Follows start (.fleet e :: past) := by
  rcases e.quiet_or_announced (after start past).fleet with
    ⟨nothing, updates, appliances⟩ | ⟨a, now, told, changed⟩
  · exact follows.event_quiet nothing updates appliances
  · exact follows.event_announced told changed

/-! ### The listener -/

/-- A listener that has fallen behind too far goes on with the oldest item that is left. -/
theorem Follows.behind (follows : Follows start past)
    (far : (after start past).listener + Fleet.channelCapacity < (announced start past).length) :
    let h := after start past
    let oldest := (announced start past).length - Fleet.channelCapacity
    after start (.take :: past) = { h with listener := oldest } ∧
    skipped start (.take :: past) =
      skipped start past ++ List.range' h.listener (oldest - h.listener) := by
  have received := follows.holds.receive_of_lt (follows.capacity.symm ▸ far)
  rw [follows.capacity] at received
  constructor
  · simp only [after, FeedEvent.apply, takeUpdate, received]
  · simp only [skipped, received]

theorem Follows.next (follows : Follows start past)
    (near : (announced start past).length ≤ (after start past).listener + Fleet.channelCapacity)
    {d : Device} (item : (announced start past)[(after start past).listener]? = some d) :
    let h := after start past
    after start (.take :: past) =
      { h with registry := h.registry.upsert d, listener := h.listener + 1 } ∧
    skipped start (.take :: past) = skipped start past := by
  have received := follows.holds.receive_of_get (follows.capacity.symm ▸ near) item
  constructor
  · simp only [after, FeedEvent.apply, takeUpdate, received]
  · simp only [skipped, received]

theorem Follows.done (follows : Follows start past)
    (all : (announced start past).length ≤ (after start past).listener) :
    after start (.take :: past) = after start past ∧
    skipped start (.take :: past) = skipped start past := by
  have received := follows.holds.receive_of_le all
  constructor
  · simp only [after, FeedEvent.apply, takeUpdate, received]
  · simp only [skipped, received]

/-- The listener leaves the fleet alone. -/
theorem Follows.of_moved (follows : Follows start past) {registry : Registry} {listener : Nat}
    (moved : after start (.take :: past) = { after start past with registry, listener })
    (near : listener ≤ (announced start past).length)
    (past_skipped : ∀ n ∈ skipped start (.take :: past), n < listener)
    (entered : registry = (taken start (.take :: past)).foldl Registry.upsert start.registry) :
    Follows start (.take :: past) where
  capacity := moved ▸ follows.capacity
  holds := moved ▸ follows.holds
  near := moved ▸ near
  past_skipped := moved ▸ past_skipped
  registry := (congrArg Household.registry moved).trans entered
  sorted := moved ▸ follows.sorted
  fleet := moved ▸ follows.fleet

/-- All that lies between the old and the new place of the listener is lost. -/
theorem Follows.taken_behind (follows : Follows start past)
    (far : (after start past).listener + Fleet.channelCapacity < (announced start past).length) :
    taken start (.take :: past) = taken start past := by
  obtain ⟨moved, lost⟩ := follows.behind far
  obtain ⟨missed, oldest⟩ : ∃ missed, (announced start past).length - Fleet.channelCapacity =
      (after start past).listener + missed := Nat.exists_eq_add_of_le (by omega)
  rw [oldest, Nat.add_sub_cancel_left] at lost
  have before : ((announced start past).take (after start past).listener).length =
      (after start past).listener := List.length_take_of_le follows.near
  have between : (((announced start past).drop (after start past).listener).take missed).length =
      missed := by
    rw [List.length_take, List.length_drop]
    omega
  have same := Channel.unlost_append_lost (skipped start past)
    ((announced start past).take (after start past).listener)
    (((announced start past).drop (after start past).listener).take missed)
  rw [before, between, ← List.take_add] at same
  simp only [taken, moved, lost, announced, oldest]
  exact same

theorem Follows.take_behind (follows : Follows start past)
    (far : (after start past).listener + Fleet.channelCapacity < (announced start past).length) :
    Follows start (.take :: past) := by
  obtain ⟨moved, lost⟩ := follows.behind far
  refine follows.of_moved moved (Nat.sub_le ..) ?_ (follows.taken_behind far ▸ follows.registry)
  intro n member
  rw [lost, List.mem_append, List.mem_range'_1] at member
  rcases member with early | late
  · have near := follows.past_skipped n early
    omega
  · omega

theorem Follows.take_next (follows : Follows start past)
    (near : (announced start past).length ≤ (after start past).listener + Fleet.channelCapacity)
    {d : Device} (item : (announced start past)[(after start past).listener]? = some d) :
    Follows start (.take :: past) := by
  obtain ⟨moved, lost⟩ := follows.next near item
  have before : ((announced start past).take (after start past).listener).length =
      (after start past).listener := List.length_take_of_le follows.near
  -- Only items before the place of the listener have been lost, so this one has not.
  have new : ((announced start past).take (after start past).listener).length ∉
      skipped start past := by
    rw [before]
    exact fun member => Nat.lt_irrefl _ (follows.past_skipped _ member)
  have got : taken start (.take :: past) = taken start past ++ [d] := by
    simp only [taken, moved, lost, announced, List.take_add_one, item, Option.toList_some]
    exact Channel.unlost_append_one new d
  refine follows.of_moved moved (List.getElem?_eq_some_iff.1 item).1 ?_ ?_
  · intro n member
    exact Nat.lt_succ_of_lt (follows.past_skipped n (lost ▸ member))
  · rw [got, List.foldl_append, ← follows.registry]
    rfl

theorem Follows.take (follows : Follows start past) : Follows start (.take :: past) := by
  by_cases far :
      (after start past).listener + Fleet.channelCapacity < (announced start past).length
  · exact follows.take_behind far
  · cases item : (announced start past)[(after start past).listener]? with
    | some d => exact follows.take_next (Nat.le_of_not_lt far) item
    | none =>
      obtain ⟨same, lost⟩ := follows.done (List.getElem?_eq_none_iff.1 item)
      have kept : taken start (.take :: past) = taken start past := by
        simp only [taken, same, lost, announced]
      refine follows.of_moved same follows.near ?_ (kept ▸ follows.registry)
      exact fun n member => follows.past_skipped n (lost ▸ member)

theorem Follows.run (begins : Follows start []) (past : List FeedEvent) : Follows start past := by
  induction past with
  | nil => exact begins
  | cons event past ih =>
    cases event with
    | fleet e => exact ih.event e
    | take => exact ih.take

/-! ### What is lost -/

theorem Follows.mem_skipped_take (follows : Follows start past) (n : Nat) :
    n ∈ skipped start (.take :: past) ↔ n ∈ skipped start past ∨
      ((after start past).listener ≤ n ∧
        n + Fleet.channelCapacity < (announced start past).length) := by
  by_cases far :
      (after start past).listener + Fleet.channelCapacity < (announced start past).length
  · rw [(follows.behind far).2, List.mem_append, List.mem_range'_1]
    exact or_congr_right (by omega)
  · have kept : skipped start (.take :: past) = skipped start past := by
      cases item : (announced start past)[(after start past).listener]? with
      | some d => exact (follows.next (Nat.le_of_not_lt far) item).2
      | none => exact (follows.done (List.getElem?_eq_none_iff.1 item)).2
    rw [kept]
    exact (or_iff_left (by omega)).symm

/-- An announcement is lost exactly if the listener came for it, or for one before it, when the stream
held newer ones only. -/
theorem Follows.mem_skipped_iff (begins : Follows start []) (n : Nat) :
    n ∈ skipped start past ↔ ∃ later before, past = later ++ .take :: before ∧
      (after start before).listener ≤ n ∧
      n + Fleet.channelCapacity < (announced start before).length := by
  induction past with
  | nil => simp [skipped]
  | cons event past ih =>
    -- Either the announcement is lost by the latest event, or it has been lost before.
    constructor
    · intro member
      have earlier (member : n ∈ skipped start past) : ∃ later before,
          event :: past = later ++ .take :: before ∧ (after start before).listener ≤ n ∧
          n + Fleet.channelCapacity < (announced start before).length := by
        obtain ⟨later, before, rfl, due, gone⟩ := ih.1 member
        exact ⟨event :: later, before, rfl, due, gone⟩
      cases event with
      | fleet e => exact earlier member
      | take =>
        rcases ((begins.run past).mem_skipped_take n).1 member with old | ⟨due, gone⟩
        · exact earlier old
        · exact ⟨[], past, rfl, due, gone⟩
    · rintro ⟨later, before, parts, due, gone⟩
      cases later with
      | nil =>
        obtain ⟨rfl, rfl⟩ := List.cons.inj parts
        exact ((begins.run past).mem_skipped_take n).2 (.inr ⟨due, gone⟩)
      | cons first later =>
        obtain ⟨rfl, rfl⟩ := List.cons.inj parts
        have old := ih.2 ⟨later, before, rfl, due, gone⟩
        cases event with
        | fleet e => exact old
        | take => exact ((begins.run _).mem_skipped_take n).2 (.inl old)

/-! ### A listener that has got everything -/

/-- When nothing is left for the listener, the registry agrees with a device whose latest announcement
was not lost. -/
theorem Follows.agrees (follows : Follows start past)
    (drained : (after start past).fleet.updates.hasItems (after start past).listener = false)
    {now : Instant} {d : Device} (member : d ∈ (after start past).fleet.devices now)
    (heard : ∀ e ∈ Registry.latest? d.id (announced start past), e.2 ∉ skipped start past) :
    ((after start past).registry.get? d.id).map Device.value = some d.value := by
  obtain ⟨a, present, rfl⟩ := List.mem_map.1 member
  have all : (announced start past).take (after start past).listener = announced start past :=
    List.take_of_length_le (follows.holds.hasItems_iff.1 drained)
  rw [follows.registry, taken, all, Registry.get?_foldl_upsert_unlost heard]
  exact follows.fleet a.id a (follows.sorted.get?_of_mem present)

theorem after_takes (start : Household) (past : List FeedEvent) (count : Nat) :
    after start (List.replicate count .take ++ past) = takeUpdate^[count] (after start past) := by
  induction count with
  | zero => rfl
  | succ count ih =>
    rw [Function.iterate_succ_apply', ← ih]
    rfl

/-- Entering all updates at once is a part of such a history, but for those who watch. -/
theorem Follows.enterUpdates (follows : Follows start past) {σ : Type} (host : HouseholdHost σ)
    (config : WatchConfig) (run : Automation → Process σ (Except Failure Unit)) (now : Nat) {s : σ}
    (here : host.part.get s = after start past) :
    { host.part.get (host.enterUpdates (host.watchlist config run) now s).1 with
      watchlist := (after start past).watchlist } =
        after start (List.replicate (Fleet.channelCapacity + 1) .take ++ past) := by
  have entered := (host.enterUpdates_takes config run now s (here ▸ follows.holds)
    (here ▸ follows.near)).1
  rw [here, follows.capacity] at entered
  rw [after_takes, entered]

/-- A household around a new fleet. The registry begins with the snapshots of all devices. -/
def wired (clock : WallClock) (appliances : List Appliance) (latency : Duration)
    (positioning : Positioning) (time : Instant) : Household :=
  let fleet := { Fleet.ofList appliances with latency }
  .create clock (.ofList (fleet.devices time)) fleet positioning

theorem updates_ofList (appliances : List Appliance) :
    (Fleet.ofList appliances).updates = .ofCapacity Fleet.channelCapacity := by
  have kept (f : Fleet) : (appliances.foldl Fleet.add f).updates = f.updates := by
    induction appliances generalizing f with
    | nil => rfl
    | cons a rest ih => exact ih _
  exact kept .empty

theorem follows_wired (clock : WallClock) (appliances : List Appliance) (latency : Duration)
    (positioning : Positioning) (time : Instant) :
    Follows (wired clock appliances latency positioning time) [] := by
  have new := updates_ofList appliances
  constructor
  case capacity => exact congrArg Channel.capacity new
  case holds => exact new ▸ Channel.Holds.ofCapacity _
  case near => exact Nat.le_of_eq (congrArg Channel.sent new)
  case past_skipped => nofun
  case registry =>
    simp only [taken, announced, List.take_nil]
    rfl
  case sorted => exact Fleet.sorted_ofList appliances
  case fleet =>
    intro id a known
    have seeded := (Fleet.sorted_ofList appliances).get?_ofList_devices time id
    have known : (Fleet.ofList appliances).get? id = some a := known
    rw [known] at seeded
    exact congrArg (Option.map Device.value) seeded

/-- The stream of a household holds what the fleet has announced, and the registry is what the listener
has got of it, entered one after another over the snapshots with which it began. When nothing is left for the listener, the registry has the present value
of every device whose latest announcement was not lost; and an announcement is lost exactly if the
listener came for it, or for one before it, when the stream held newer ones only. -/
theorem converges (clock : WallClock) (appliances : List Appliance) (latency : Duration)
    (positioning : Positioning) (time : Instant) (past : List FeedEvent) :
    let start := wired clock appliances latency positioning time
    let h := after start past
    h.fleet.updates.Holds (announced start past) ∧
    h.registry = (taken start past).foldl Registry.upsert start.registry ∧
    (h.fleet.updates.hasItems h.listener = false → ∀ now, ∀ d ∈ h.fleet.devices now,
      (∀ e ∈ Registry.latest? d.id (announced start past), e.2 ∉ skipped start past) →
      (h.registry.get? d.id).map Device.value = some d.value) ∧
    (∀ n, n ∈ skipped start past ↔ ∃ later before, past = later ++ .take :: before ∧
      (after start before).listener ≤ n ∧
      n + Fleet.channelCapacity < (announced start before).length) := by
  intro start h
  have begins := follows_wired clock appliances latency positioning time
  have follows := begins.run past
  refine ⟨follows.holds, follows.registry, ?_, begins.mem_skipped_iff⟩
  intro drained now d member heard
  exact follows.agrees drained member heard

/-- A lamp and a fan, both switched off. -/
def lampAndFan : Household :=
  wired default [.light "lamp" "Lamp", .switch "fan" "Fan"] .zero default default

def switchOn (id : DeviceId) : FeedEvent := .fleet (.command default 0 id .turnOn)

/-- The lamp is switched on once and the fan many times before the listener gets to run. -/
def flurry : List FeedEvent :=
  List.replicate (Fleet.channelCapacity + 1) .take ++
    (List.replicate Fleet.channelCapacity (switchOn ⟨"fan"⟩) ++ [switchOn ⟨"lamp"⟩])

/-- The listener has lost the announcement of the lamp, but not the latest of the fan. -/
theorem converges_fan :
    (after lampAndFan flurry).fleet.updates.hasItems (after lampAndFan flurry).listener = false ∧
    skipped lampAndFan flurry = [0] ∧
    ((after lampAndFan flurry).fleet.get? ⟨"fan"⟩).map (·.value.asBool?) = some (some true) ∧
    ((after lampAndFan flurry).registry.get? ⟨"fan"⟩).map (·.value.asBool?) = some (some true) := by
  have drained : (after lampAndFan flurry).fleet.updates.hasItems
      (after lampAndFan flurry).listener = false := by decide +kernel
  have lost : skipped lampAndFan flurry = [0] := by decide +kernel
  have switched : ((after lampAndFan flurry).fleet.get? ⟨"fan"⟩).map (·.value.asBool?) =
      some (some true) := by decide +kernel
  have heard : ∀ e ∈ Registry.latest? ⟨"fan"⟩ (announced lampAndFan flurry),
      e.2 ∉ skipped lampAndFan flurry := by decide +kernel
  refine ⟨drained, lost, switched, ?_⟩
  -- From here on the events do not matter, and are not to be gone through again.
  generalize flurry = past at drained switched heard ⊢
  obtain ⟨a, known, on⟩ := Option.map_eq_some_iff.1 switched
  obtain ⟨present, own⟩ := Fleet.of_get?_eq_some known
  have own : (a.device default).id = ⟨"fan"⟩ := own
  rw [← own] at heard ⊢
  have entry := (converges default [.light "lamp" "Lamp", .switch "fan" "Fan"] .zero default default
    past).2.2.1 drained default _ (List.mem_map_of_mem present) heard
  obtain ⟨d, found, same⟩ := Option.map_eq_some_iff.1 entry
  exact Option.map_eq_some_iff.2 ⟨d, found, (congrArg DeviceValue.asBool? same).trans on⟩

/-- The registry goes on without the lamp that is on: its only announcement has made room for others. -/
theorem registry_misses_lamp :
    (after lampAndFan flurry).fleet.updates.hasItems (after lampAndFan flurry).listener = false ∧
    ∃ d ∈ (after lampAndFan flurry).fleet.devices default,
      ((after lampAndFan flurry).registry.get? d.id).map Device.value ≠ some d.value := by
  have switched : ((after lampAndFan flurry).fleet.get? ⟨"lamp"⟩).map (·.value.asBool?) =
      some (some true) := by decide +kernel
  have remembered : ((after lampAndFan flurry).registry.get? ⟨"lamp"⟩).map (·.value.asBool?) =
      some (some false) := by decide +kernel
  obtain ⟨a, known, on⟩ := Option.map_eq_some_iff.1 switched
  obtain ⟨present, own⟩ := Fleet.of_get?_eq_some known
  refine ⟨by decide +kernel, a.device default, List.mem_map_of_mem present, fun agreed => ?_⟩
  -- The registry would have a lamp that is on, as the fleet has.
  have entry : ((after lampAndFan flurry).registry.get? ⟨"lamp"⟩).map Device.value = some a.value :=
    own ▸ agreed
  obtain ⟨d, found, same⟩ := Option.map_eq_some_iff.1 entry
  simp [found, same, on] at remembered

end Household

end Hearth

import Hearth.Proofs.Fleet.Switching
import Hearth.Proofs.Process.Promises

/-!
# Hearth.Proofs.Execution.Rollback

A batch that switches devices on and off and is undone: what becomes of each device of the fleet.

## Main definition

`Batch.effects`: the switchings of a batch that succeeded, in order.

## Main result

`Batch.rollback_inverts_first`: after a failed batch that was undone altogether, a device all of whose
actions succeeded is in the state opposite to the one that its first action asks for.
-/

namespace Hearth

namespace Batch

variable {σ : Type} {host : HouseholdHost σ} {others : σ → σ → Prop} {v : Switches}

/-! ### One command -/

theorem send_ensures (spares : host.Spares others) (d : Device) (on : Bool) (timeout : Duration) :
    (host.link.send d (.ofSwitch on)).Ensures others (host.Shows v) (host.Shows v) fun answer =>
      host.Shows (if (verdict timeout (some answer)).isOk then v.set d.id on else v) := by
  have read : (Process.view fun s => (host.fleet.get s).latency).Ensures others (host.Shows v)
      (host.Shows v) fun _ => host.Shows v :=
    Process.Ensures.view.mono (fun _ shows => shows) (fun _ shows => shows) fun _ _ shows => shows.1
  refine Process.Ensures.now.bind fun start => read.bind fun latency =>
    (Process.Ensures.sleep latency spares.shows).bind fun _ => Process.Ensures.step ?_
  intro now s shows
  have carried := Fleet.switched?_carryOut (host.fleet.get s) (host.stamp now) (now - start) d.id on
    timeout
  rw [← shows.switched]
  constructor
  · intro id device known
    exact shows.consistent id device (by rwa [← host.lookup_fleet_set])
  · show (host.fleet.get (host.fleet.set _ s)).switched? = _
    rw [host.fleet.get_set]
    exact carried

theorem attempt_ensures (spares : host.Spares others) (d : Device) (on : Bool) (timeout : Duration) :
    (attempt host.link d (.ofSwitch on) timeout).Ensures others (host.Shows v) (host.Shows v)
      fun outcome => host.Shows (if outcome.isOk then v.set d.id on else v) := by
  have resolved : resolve d (.ofSwitch on) = .ofSwitch on := by cases on <;> rfl
  unfold attempt
  rw [resolved]
  refine ((send_ensures spares d on timeout).limited timeout).bind fun answer => .pure ?_
  intro s holds
  cases answer with
  | none => exact holds
  | some answer => exact holds

/-- However often a command is tried, it has been carried out if it succeeded at last, and not at all
otherwise. -/
theorem retrying_ensures (spares : host.Spares others) (options : ExecutionOptions)
    {attempt : Process σ (Except Failure Unit)} {v' : Switches}
    (once : attempt.Ensures others (host.Shows v) (host.Shows v) fun outcome =>
      host.Shows (if outcome.isOk then v' else v)) (remaining retries : Nat) :
    (retrying options attempt remaining retries).Ensures others (host.Shows v) (host.Shows v)
      fun outcome => host.Shows (if outcome.1.isNone then v' else v) := by
  induction remaining generalizing retries with
  | zero =>
    apply once.bind
    intro outcome
    cases outcome with
    | ok => exact .pure fun _ shows => shows
    | error failure => exact .pure fun _ shows => shows
  | succ remaining ih =>
    apply once.bind
    intro outcome
    cases outcome with
    | ok => exact .pure fun _ shows => shows
    | error failure =>
      -- The failure has left the switches as they were, so the next attempt begins like this one.
      by_cases passing : failure.isPassing = true
      · simp only [passing]
        exact (Process.Ensures.sleep _ spares.shows).bind fun _ => ih (retries + 1)
      · simp only [passing]
        exact .pure fun _ shows => shows

/-! ### The actions of a batch -/

variable {options : ExecutionOptions}

theorem executeOne_ensures (spares : host.Spares others) {a : Action} (isSwitch : a.IsSwitch) :
    (executeOne host.link options a).Ensures others (host.Shows v) (host.Shows v) fun result =>
      host.Shows (if result.success then v.set a.device a.switchesOn else v) := by
  apply Process.Ensures.now.bind
  intro start
  rw [isSwitch.command_eq]
  apply Process.Ensures.view.bind
  intro known
  cases known with
  | none =>
    -- A device that the registry does not know is left alone.
    exact Process.Ensures.now.bind fun finish => .pure fun _ shows => shows.1
  | some d =>
    refine .given (fun s begun => begun.1.consistent _ _ begun.2.symm) fun name => ?_
    have tried := retrying_ensures spares options
      (attempt_ensures (v := v) spares d a.switchesOn options.timeout) options.maxRetries 0
    rw [name] at tried
    apply (tried.pre fun _ begun => begun.1).bind
    intro outcome
    exact Process.Ensures.now.bind fun finish => .pure fun _ shows => shows

/-- What a list of actions with their results has switched, in order. -/
def effects (carried : List (Action × ActionResult)) : List (DeviceId × Bool) :=
  (carried.filter fun (_, result) => result.success).map fun (a, _) => (a.device, a.switchesOn)

theorem effects_cons (a : Action) (result : ActionResult) (rest : List (Action × ActionResult)) :
    effects ((a, result) :: rest) =
      if result.success then (a.device, a.switchesOn) :: effects rest else effects rest := by
  cases success : result.success <;> simp [effects, success]

theorem executeInOrder_ensures (spares : host.Spares others) (actions : List Action)
    (switches : ∀ a ∈ actions, a.IsSwitch) :
    (executeInOrder host.link options true actions).Ensures others (fun _ => True) (host.Shows v)
      fun results s => results.length = actions.length ∧
        host.Shows (v.after (effects (actions.zip results))) s := by
  induction actions generalizing v with
  | nil => exact .pure fun _ shows => ⟨rfl, shows⟩
  | cons a rest ih =>
    rw [List.forall_mem_cons] at switches
    -- A failure does not stop the batch, so there is a result for every action.
    apply (executeOne_ensures spares switches.1).forget.bind
    intro result
    simp only [Bool.or_true, ↓reduceIte]
    refine (ih switches.2).bind fun results => .pure ?_
    rintro s ⟨length, shows⟩
    refine ⟨congrArg (· + 1) length, ?_⟩
    rw [List.zip_cons_cons, effects_cons]
    cases success : result.success
    · simpa [success] using shows
    · simpa [success, Switches.after] using shows

/-! ### Undoing -/

def opposite (switched : List (DeviceId × Bool)) : List (DeviceId × Bool) :=
  switched.map fun (id, on) => (id, !on)

/-- Where as many actions are undone as had succeeded, every device has been switched back from each
of them, in the order of the list. -/
theorem undo_ensures (spares : host.Spares others) (options : ExecutionOptions)
    (carried : List (Action × ActionResult))
    (switches : ∀ entry ∈ carried, entry.1.IsSwitch) :
    (undo host.link options carried).Ensures others (fun _ => True) (host.Shows v)
      fun undone s => undone.length ≤ (effects carried).length ∧
        (undone.length = (effects carried).length →
          host.Shows (v.after (opposite (effects carried))) s) := by
  induction carried generalizing v with
  | nil => exact .pure fun _ shows => ⟨Nat.le_refl 0, fun _ => shows⟩
  | cons entry rest ih =>
    obtain ⟨a, result⟩ := entry
    rw [List.forall_mem_cons] at switches
    obtain ⟨kind, inverse, command⟩ := switches.1.inverse?
    rw [effects_cons]
    unfold undo
    cases success : result.success with
    | false =>
      apply (ih switches.2).bind
      intro undone
      exact .pure fun _ holds => holds
    | true =>
      simp only [↓reduceIte, inverse, command]
      -- With this action not undone, too few are undone in all.
      have onward (undone : Bool) : (do
          let rest ← undo host.link options rest
          return if undone then a.device :: rest else rest : Process σ _).Ensures others
          (fun _ => True) (host.Shows (if undone then v.set a.device (!a.switchesOn) else v))
          fun undone s => undone.length ≤ (effects rest).length + 1 ∧
            (undone.length = (effects rest).length + 1 →
              host.Shows (v.after ((a.device, !a.switchesOn) :: opposite (effects rest))) s) := by
        refine (ih switches.2).bind fun undoneRest => .pure ?_
        rintro s ⟨few, all⟩
        cases undone with
        | false =>
          refine ⟨Nat.le_succ_of_le few, fun length => ?_⟩
          simp only [Bool.false_eq_true, ↓reduceIte] at length
          omega
        | true => exact ⟨Nat.succ_le_succ few, fun length => all (Nat.succ.inj length)⟩
      apply Process.Ensures.view.bind
      intro known
      cases known with
      | none =>
        exact (onward false).pre fun _ begun => begun.1
      | some d =>
        refine .given (fun s begun => begun.1.consistent _ _ begun.2.symm) fun name => ?_
        have sent := attempt_ensures (v := v) spares d (!a.switchesOn) options.timeout
        rw [name] at sent
        exact (sent.forget.bind fun answer => onward answer.isOk).pre fun _ begun => begun.1

/-- Each device ends in the state opposite to the first switching. -/
theorem after_opposite (v : Switches) (switched : List (DeviceId × Bool)) (id : DeviceId) :
    (v.after switched).after (opposite switched.reverse) id =
      match switched.find? fun (other, _) => other = id with
      | some (_, on) => some (!on)
      | none => v id := by
  induction switched generalizing v with
  | nil => rfl
  | cons first rest ih =>
    -- The first switching is the last to be undone, so it has the last word on its device.
    obtain ⟨other, on⟩ := first
    have last : (v.after ((other, on) :: rest)).after (opposite ((other, on) :: rest).reverse) =
        (((v.set other on).after rest).after (opposite rest.reverse)).set other (!on) := by
      simp only [Switches.after, opposite, List.reverse_cons, List.map_append, List.foldl_append,
        List.foldl_cons, List.map_cons, List.map_nil, List.foldl_nil]
    rw [last, Switches.set, ih]
    by_cases same : other = id
    · simp [same]
    · simp [same, Ne.symm same, Switches.set]

theorem length_effects {actions : List Action} {results : List ActionResult}
    (length : results.length = actions.length) :
    (effects (actions.zip results)).length = (results.filter fun r => r.success).length := by
  have second : (actions.zip results).map Prod.snd = results :=
    List.map_snd_zip (Nat.le_of_eq length)
  rw [effects, List.length_map]
  conv => rhs; rw [← second]
  rw [List.filter_map, List.length_map]
  rfl

theorem effects_reverse (carried : List (Action × ActionResult)) :
    effects carried.reverse = (effects carried).reverse := by
  simp only [effects, List.filter_reverse, List.map_reverse]

/-- The switches after a batch that failed and was undone altogether. -/
def undone (v : Switches) (actions : List Action) (results : List ActionResult) : Switches :=
  (v.after (effects (actions.zip results))).after (opposite (effects (actions.zip results)).reverse)

/-- What a batch leaves behind. -/
structure Leaves (host : HouseholdHost σ) (v : Switches) (actions : List Action)
    (results : List ActionResult) (rolledBack : List DeviceId) (s : σ) : Prop where
  length : results.length = actions.length
  undone : allSucceeded actions results = false →
    rolledBack.length = (results.filter fun r => r.success).length →
    host.Shows (undone v actions results) s

theorem orchestrate_ensures (spares : host.Spares others) (sequential : options.parallel = false)
    (undoing : options.rollback = true) {actions : List Action}
    (switches : ∀ a ∈ actions, a.IsSwitch) :
    (orchestrate host.link options actions).Ensures others (fun _ => True) (host.Shows v)
      fun outcome => Leaves host v actions outcome.1 outcome.2 := by
  unfold orchestrate
  simp only [sequential, undoing, Bool.true_and, Bool.false_eq_true, ↓reduceIte]
  apply (executeInOrder_ensures spares actions switches).bind
  intro results
  refine .given (fun s begun => begun.1) fun length => ?_
  cases all : allSucceeded actions results with
  | true =>
    refine .pure fun s _ => ⟨length, ?_⟩
    rw [all]
    nofun
  | false =>
    have back := undo_ensures (v := v.after (effects (actions.zip results))) spares options
      (actions.zip results).reverse fun entry member =>
        switches _ (List.of_mem_zip (List.mem_reverse.1 member)).1
    rw [effects_reverse, List.length_reverse, length_effects length] at back
    refine Process.Ensures.bind (back.pre fun _ begun => begun.2) fun rolledBack => .pure ?_
    intro s ended
    exact ⟨length, fun _ => ended.2⟩

theorem execute_ensures (spares : host.Spares others) (sequential : options.parallel = false)
    (undoing : options.rollback = true) {actions : List Action}
    (switches : ∀ a ∈ actions, a.IsSwitch) :
    (execute host.link options actions).Ensures others (fun _ => True) (host.Shows v)
      fun result s => result.success = allSucceeded actions result.actions ∧
        Leaves host v actions result.actions result.rolledBack s := by
  apply Process.Ensures.now.bind
  intro start
  apply (orchestrate_ensures spares sequential undoing switches).rescue.bind
  intro outcome
  apply Process.Ensures.now.bind
  intro finish
  cases outcome with
  | ok carried =>
    refine .pure fun s begun => ?_
    obtain ⟨_, same, leaves⟩ := begun
    cases same
    exact ⟨rfl, leaves⟩
  | error cause =>
    -- The fleet never makes a batch crash.
    refine .pure fun s begun => ?_
    obtain ⟨_, never, _⟩ := begun
    cases never

/-- Where all switchings of a device succeeded, the first that succeeded is the first of all. -/
theorem find?_effects {carried : List (Action × ActionResult)} {id : DeviceId}
    (succeeded : ∀ entry ∈ carried, entry.1.device = id → entry.2.success = true) :
    (effects carried).find? (fun (other, _) => other = id) =
      ((carried.map Prod.fst).find? fun a => a.device = id).map
        fun a => (a.device, a.switchesOn) := by
  induction carried with
  | nil => rfl
  | cons entry rest ih =>
    obtain ⟨a, result⟩ := entry
    rw [List.forall_mem_cons] at succeeded
    have later := ih succeeded.2
    rw [effects_cons]
    by_cases same : a.device = id
    · have success : result.success = true := succeeded.1 same
      simp [success, same]
    · cases success : result.success
      · simp [same, later]
      · simp [same, later]

/-- After a failed batch of switchings that was undone altogether, a device all of whose actions
succeeded is in the state opposite to the one that its first action asks for, and a device without
actions is as it was. So a device is as it was before the batch exactly if it has no action, or if its first
action switched it. -/
theorem rollback_inverts_first (spares : host.Spares others) (sequential : options.parallel = false)
    (undoing : options.rollback = true) {actions : List Action}
    (switches : ∀ a ∈ actions, a.IsSwitch) {now t : Nat} {s s' : σ} {result : BatchResult}
    (known : host.Consistent s)
    (ended : (execute host.link options actions).Reaches others now s (.done result) t s')
    (failed : result.success = false)
    (undoneAll : result.rolledBack.length = (result.actions.filter fun r => r.success).length) :
    result.actions.length = actions.length ∧
    ∀ id, (∀ entry ∈ actions.zip result.actions, entry.1.device = id → entry.2.success = true) →
      host.switched? s' id = (match actions.find? fun a => a.device = id with
        | some first => some (!first.switchesOn)
        | none => host.switched? s id) ∧
      (host.switched? s' id = host.switched? s id ↔
        ∀ first, (actions.find? fun a => a.device = id) = some first →
          host.switched? s id = some (!first.switchesOn)) := by
  have left := (execute_ensures spares sequential undoing switches).stands ⟨known, rfl⟩ ended
  obtain ⟨success, leaves⟩ : result.success = allSucceeded actions result.actions ∧
    Leaves host (host.switched? s) actions result.actions result.rolledBack s' := left
  refine ⟨leaves.length, fun id succeeded => ?_⟩
  have shows := leaves.undone (success.symm.trans failed) undoneAll
  have all : (actions.zip result.actions).map Prod.fst = actions :=
    List.map_fst_zip (Nat.le_of_eq leaves.length.symm)
  have final : host.switched? s' id = match actions.find? fun a => a.device = id with
      | some first => some (!first.switchesOn)
      | none => host.switched? s id := by
    rw [shows.switched, undone, after_opposite, find?_effects succeeded, all]
    cases actions.find? fun a => a.device = id <;> rfl
  refine ⟨final, ?_⟩
  rw [final]
  cases actions.find? fun a => a.device = id with
  | none => exact ⟨fun _ => nofun, fun _ => rfl⟩
  | some first =>
    constructor
    · rintro same _ ⟨⟩
      exact same.symm
    · intro same
      exact (same first rfl).symm

/-! ### A house with one lamp -/

/-- A household that is a world of its own. -/
def wholeHouse : HouseholdHost Household where
  part := .whole
  stamp _ := default
  publish _ _ h := h

def lampHouse (on : Bool) : Household :=
  let fleet := Fleet.ofList [⟨⟨"lamp"⟩, "Lamp", .light on 100 none none⟩]
  .create default (.ofList (fleet.devices default)) fleet default

def lampThenFan : List Action := [⟨⟨"lamp"⟩, .turnOn, none⟩, ⟨⟨"fan"⟩, .turnOn, none⟩]

def undoingOptions : ExecutionOptions :=
  { ExecutionOptions.standard with maxRetries := 0, rollback := true }

def lampRun (on : Bool) : Process.Progress Household BatchResult :=
  (execute wholeHouse.link undoingOptions lampThenFan).poll 0 (lampHouse on)

def lampResult : BatchResult where
  actions :=
    [{ device := ⟨"lamp"⟩, kind := .turnOn, success := true, elapsed := 0, retries := 0,
        error := none },
      { device := ⟨"fan"⟩, kind := .turnOn, success := false, elapsed := 0, retries := 0,
        error := some "Device not found: fan" }]
  success := false
  elapsed := 0
  rolledBack := [⟨"lamp"⟩]
  error := none

theorem left_lampRun (on : Bool) : (lampRun on).left = .done lampResult :=
  Process.eq_done (by cases on <;> decide +kernel)

/-- One poll carries the batch to its end. -/
theorem reaches_lampRun (on : Bool) :
    (execute wholeHouse.link undoingOptions lampThenFan).Reaches Eq 0 (lampHouse on)
      (.done lampResult) 0 (lampRun on).state := by
  rw [← left_lampRun on]
  exact .first

theorem spares_eq : wholeHouse.Spares Eq where
  switched same := by rw [same]
  consistent same known := by rwa [← same]

theorem consistent_lampHouse (on : Bool) : wholeHouse.Consistent (lampHouse on) := by
  intro id d known
  have entered : Table.lookup id [((⟨"lamp"⟩ : DeviceId),
      (Appliance.mk ⟨"lamp"⟩ "Lamp" (.light on 100 none none)).device default)] = some d := known
  simp only [Table.lookup] at entered
  split at entered
  · next same =>
    obtain rfl := Option.some.inj entered
    exact same.symm
  · cases entered

theorem rollback_inverts_first_lamp :
    (execute wholeHouse.link undoingOptions lampThenFan).Reaches Eq 0 (lampHouse false)
      (.done lampResult) 0 (lampRun false).state ∧
    lampResult.success = false ∧
    wholeHouse.switched? (lampHouse false) ⟨"lamp"⟩ = some false ∧
    wholeHouse.switched? (lampRun false).state ⟨"lamp"⟩ =
      wholeHouse.switched? (lampHouse false) ⟨"lamp"⟩ := by
  have before : wholeHouse.switched? (lampHouse false) ⟨"lamp"⟩ = some false := by decide +kernel
  obtain ⟨-, devices⟩ := rollback_inverts_first spares_eq rfl rfl (by decide)
    (consistent_lampHouse false) (reaches_lampRun false) rfl rfl
  refine ⟨reaches_lampRun false, rfl, before, (devices ⟨"lamp"⟩ (by decide)).2.2 ?_⟩
  intro first found
  obtain rfl : (⟨⟨"lamp"⟩, .turnOn, none⟩ : Action) = first := by
    simpa [lampThenFan] using found
  exact before

/-- A lamp that had been on already is switched off, although every command that was to undo an
action succeeded. -/
theorem rollback_darkens_lamp :
    (execute wholeHouse.link undoingOptions lampThenFan).Reaches Eq 0 (lampHouse true)
      (.done lampResult) 0 (lampRun true).state ∧
    wholeHouse.Spares Eq ∧ wholeHouse.Consistent (lampHouse true) ∧
    (∀ a ∈ lampThenFan, a.IsSwitch) ∧ lampResult.success = false ∧
    lampResult.rolledBack.length = (lampResult.actions.filter fun r => r.success).length ∧
    (∀ entry ∈ lampThenFan.zip lampResult.actions,
      entry.1.device = ⟨"lamp"⟩ → entry.2.success = true) ∧
    (wholeHouse.lookup (lampHouse true) ⟨"lamp"⟩).map Device.isOn = some true ∧
    wholeHouse.switched? (lampHouse true) ⟨"lamp"⟩ = some true ∧
    wholeHouse.switched? (lampRun true).state ⟨"lamp"⟩ = some false := by
  refine ⟨reaches_lampRun true, spares_eq, consistent_lampHouse true, by decide, rfl, rfl,
    by decide, ?_, ?_, ?_⟩
  · decide +kernel
  · decide +kernel
  · decide +kernel

end Batch

end Hearth

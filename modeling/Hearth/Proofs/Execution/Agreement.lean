import Hearth.Proofs.Execution.Retrying
import Hearth.Proofs.Execution.Stages

/-!
# Hearth.Proofs.Execution.Agreement

Whether the actions of a batch go on side by side or one after the other makes no difference to what
becomes of them, as long as no two of them are for one device and every device responds by the number
of calls that it has had.

## Main definitions

* `Troupe.Counts`: how many calls the devices of some actions have had.
* `Batch.Fates`: what becomes of each action, whatever the mode.

## Main results

* `Batch.Fates.executeInOrder_delivers` and `Batch.Fates.together_delivers`: in both modes each action
  comes to its fate.
* `Batch.execute_agrees`: the results of a batch, apart from the time that they take, and the devices
  whose action is undone are the same, except that a batch in sequence that is not to be undone stops
  at the first failure.
-/

namespace Hearth

/-- A result without the time that it took. -/
def ActionResult.untimed (r : ActionResult) : ActionResult := { r with elapsed := 0 }

theorem ActionResult.success_of_untimed_eq {r result : ActionResult} (same : r.untimed = result) :
    r.success = result.success := by
  rw [← same]
  rfl

/-! ### The devices of a batch -/

namespace Batch

/-- The devices of some actions. -/
def devices (actions : List Action) : Set DeviceId := {id | id ∈ actions.map Action.device}

variable {a : Action} {rest : List Action}

theorem devices_nil_subset (mine : Set DeviceId) : devices [] ⊆ mine :=
  fun _ member => absurd member List.not_mem_nil

theorem devices_singleton (a : Action) : devices [a] = {a.device} := by
  ext id
  simp [devices]

theorem devices_reverse (actions : List Action) : devices actions.reverse = devices actions := by
  ext id
  simp [devices]

theorem singleton_subset_devices : {a.device} ⊆ devices (a :: rest) :=
  Set.singleton_subset_iff.2 List.mem_cons_self

theorem devices_subset_cons : devices rest ⊆ devices (a :: rest) :=
  fun _ member => List.mem_cons_of_mem _ member

end Batch

/-- A number of calls for the device of each action. -/
structure Troupe.Counts {σ : Type} (troupe : Troupe σ) (known : DeviceId → Bool)
    (counts : Action → Nat) (actions : List Action) (s : σ) : Prop where
  valid : troupe.Valid s
  known : ∀ id, (troupe.lookup s id).isSome = known id
  calls : ∀ a ∈ actions, (troupe.calls s a.device).length = counts a

namespace Troupe.Counts

variable {σ : Type} {troupe : Troupe σ} {known : DeviceId → Bool} {counts : Action → Nat}
variable {a : Action} {actions : List Action} {s s' : σ}

theorem spared (held : troupe.Counts known counts actions s) {spared : Set DeviceId}
    (inside : Batch.devices actions ⊆ spared) (spares : troupe.Spares spared s s') :
    troupe.Counts known counts actions s' where
  valid := spares.valid held.valid
  known id := (spares.known id).trans (held.known id)
  calls a member := by
    rw [spares.calls a.device (inside (List.mem_map_of_mem member))]
    exact held.calls a member

/-- A process that calls other devices leaves the counts alone. -/
theorem frame {α : Type} {mine called : Set DeviceId} {W : σ → Prop} {Q : α → Nat → σ → Prop}
    {p : Process σ α} {now : Nat} (held : troupe.Counts known counts actions s)
    (inside : Batch.devices actions ⊆ mine) (apart : Batch.devices actions ⊆ calledᶜ)
    (delivers : p.Delivers (troupe.terms mine called) W Q now s) :
    p.Delivers (troupe.terms mine called) W
      (fun a t s => Q a t s ∧ troupe.Counts known counts actions s) now s :=
  delivers.frame (troupe.Counts known counts actions)
    (fun _ _ spares held => held.spared inside spares)
    (fun _ _ spares held => held.spared apart spares) held

theorem cons (first : troupe.Counts known counts [a] s)
    (rest : troupe.Counts known counts actions s) :
    troupe.Counts known counts (a :: actions) s :=
  { first with calls := List.forall_mem_cons.2 ⟨first.calls a List.mem_cons_self, rest.calls⟩ }

theorem head (held : troupe.Counts known counts (a :: actions) s) :
    troupe.Counts known counts [a] s :=
  { held with calls := List.forall_mem_singleton.2 (held.calls a List.mem_cons_self) }

theorem tail (held : troupe.Counts known counts (a :: actions) s) :
    troupe.Counts known counts actions s :=
  { held with calls := (List.forall_mem_cons.1 held.calls).2 }

theorem reverse (held : troupe.Counts known counts actions s) :
    troupe.Counts known counts actions.reverse s :=
  { held with calls := fun a member => held.calls a (List.mem_reverse.1 member) }

theorem called (held : troupe.Counts known counts [a] s) :
    troupe.Called a.device (troupe.calls s a.device) s :=
  ⟨held.valid, rfl⟩

end Troupe.Counts

namespace Batch

variable {σ : Type} {troupe : Troupe σ}

/-! ### Up to the first failure -/

/-- The results up to the first failure, unless the batch goes on throughout. -/
def carried (throughout : Bool) : List ActionResult → List ActionResult
  | [] => []
  | r :: rest => if r.success || throughout then r :: carried throughout rest else [r]

theorem carried_true (results : List ActionResult) : carried true results = results := by
  induction results with
  | nil => rfl
  | cons r rest ih => simp [carried, ih]

theorem carried_false (results : List ActionResult) :
    carried false results = results.take (results.findIdx (fun r => !r.success) + 1) := by
  induction results with
  | nil => rfl
  | cons r rest ih =>
    cases success : r.success with
    | true => simp [carried, success, ih, List.findIdx_cons]
    | false => simp [carried, success, List.findIdx_cons]

/-! ### One action -/

/-- What becomes of an action depends on nothing but the calls that its device has had, and on
whether the device is known. -/
theorem exists_fate (scripted : troupe.Scripted) (options : ExecutionOptions)
    (known : DeviceId → Bool) (before : Action → Nat) (a : Action) :
    ∃ (result : ActionResult) (extra : Nat), ∀ (parallel rollback : Bool) (now : Nat) (s : σ),
      troupe.Counts known before [a] s →
      (executeOne troupe.toDeviceLink { options with parallel, rollback } a).Delivers
        (troupe.terms {a.device} {a.device}) (fun _ => True)
        (fun r _ s' => r.untimed = result ∧
          troupe.Counts known (fun a => before a + extra) [a] s') now s := by
  cases refused : refusal? a (known a.device) with
  | some failure =>
    refine ⟨(refusedResult a failure).untimed, 0, fun parallel rollback now s held => ?_⟩
    have refused : refusal? a (troupe.lookup s a.device).isSome = some failure := by
      rw [held.known, refused]
    refine (executeOne_delivers_refused refused).imp ?_
    rintro _ _ _ ⟨rfl, rfl, rfl⟩
    exact ⟨rfl, held⟩
  | none =>
    -- The responses begin where the calls before the action end, whenever the action begins.
    let responses (k : Nat) : Response := troupe.response a.device (before a + k)
    obtain ⟨last, least⟩ := exists_lastAttempt options responses
    refine ⟨(triedResult options a responses last).untimed, last + 1,
      fun parallel rollback now s held => ?_⟩
    have played (k : Nat) :
        responses k = troupe.response a.device ((troupe.calls s a.device).length + k) := by
      rw [held.calls a List.mem_cons_self]
    have accepted : refusal? a (troupe.lookup s a.device).isSome = none := by
      rw [held.known, refused]
    have tried : (executeOne troupe.toDeviceLink { options with parallel, rollback } a).Delivers
        _ _ _ now s := executeOne_delivers scripted accepted played least held.called
    have nothing : troupe.Counts known before [] s := { held with calls := List.forall_mem_nil _ }
    refine (nothing.frame (devices_nil_subset _) (devices_nil_subset _) tried).imp ?_
    rintro r t s' ⟨⟨rfl, -, called⟩, nothing⟩
    refine ⟨rfl, called.valid, nothing.known, List.forall_mem_singleton.2 ?_⟩
    rw [called.calls, List.length_append, held.calls a List.mem_cons_self, attempts,
      List.length_map, List.length_range]

/-- Whether an action that came to this is undone by a device that responds like that. -/
def reverts (options : ExecutionOptions) (a : Action) (success known : Bool) (r : Response) : Bool :=
  success && a.kind.inverse?.isSome && known && (r.verdict options.timeout).isOk

theorem undoOne_delivers (scripted : troupe.Scripted) (options : ExecutionOptions) (a : Action)
    (success : Bool) {past : List Nat} (now : Nat) {s : σ}
    (called : troupe.Called a.device past s) :
    (undoOne troupe.toDeviceLink options a success).Delivers (troupe.terms {a.device} {a.device})
      (fun _ => True)
      (fun undone _ _ => undone = reverts options a success (troupe.lookup s a.device).isSome
        (troupe.response a.device past.length)) now s := by
  unfold undoOne reverts
  cases success with
  | false => exact .pure rfl
  | true =>
    cases a.kind.inverse? with
    | none => exact .pure rfl
    | some kind =>
      refine (Process.Delivers.view _).bind ?_
      rintro _ now s ⟨rfl, rfl, rfl⟩
      cases found : troupe.lookup s a.device with
      | none => exact .pure rfl
      | some d =>
        have name := scripted.id_of_lookup called.valid found
        rw [← name] at called ⊢
        refine (attempt_delivers scripted d _ options.timeout now called).bind ?_
        rintro _ _ _ ⟨rfl, -, -⟩
        exact .pure rfl

/-! ### All actions -/

/-- What becomes of each action, whatever the mode: its result, and the calls that it makes. -/
structure Fates (troupe : Troupe σ) (options : ExecutionOptions) (known : DeviceId → Bool)
    (before : Action → Nat) where
  result : Action → ActionResult
  extra : Action → Nat
  delivers : ∀ (a : Action) (parallel rollback : Bool) {now : Nat} {s : σ},
    troupe.Counts known before [a] s →
    (executeOne troupe.toDeviceLink { options with parallel, rollback } a).Delivers
      (troupe.terms {a.device} {a.device}) (fun _ => True)
      (fun r _ s' => r.untimed = result a ∧
        troupe.Counts known (fun a => before a + extra a) [a] s') now s

theorem nonempty_fates (scripted : troupe.Scripted) (options : ExecutionOptions)
    (known : DeviceId → Bool) (before : Action → Nat) :
    Nonempty (Fates troupe options known before) := by
  choose result extra delivers using exists_fate scripted options known before
  refine ⟨result, extra, fun a parallel rollback now s held => ?_⟩
  refine (delivers a parallel rollback now s held).imp ?_
  rintro r t s' ⟨same, counts⟩
  exact ⟨same, { counts with calls := List.forall_mem_singleton.2 (counts.calls a (by simp)) }⟩

namespace Fates

variable {options : ExecutionOptions} {known : DeviceId → Bool} {before : Action → Nat}
variable (fates : Fates troupe options known before) {parallel rollback : Bool}
variable {a : Action} {actions rest : List Action} {now : Nat} {s : σ}

/-- The calls that the device of an action has had after it. -/
def after (a : Action) : Nat := before a + fates.extra a

/-- What becomes of the actions if all of them are carried out. -/
def outcomes (actions : List Action) : List ActionResult := actions.map fates.result

/-! ### In sequence -/

theorem executeInOrder_delivers (throughout : Bool) (distinct : (actions.map Action.device).Nodup)
    {mine : Set DeviceId} (inside : devices actions ⊆ mine)
    (counts : troupe.Counts known before actions s) :
    (executeInOrder troupe.toDeviceLink { options with parallel, rollback } throughout
      actions).Delivers (troupe.terms mine (devices actions)) (fun _ => True)
      (fun results _ s' =>
        results.map ActionResult.untimed = carried throughout (fates.outcomes actions) ∧
        (throughout = true → troupe.Counts known fates.after actions s')) now s := by
  induction actions generalizing now s with
  | nil => exact .pure ⟨rfl, fun _ => { counts with calls := List.forall_mem_nil _ }⟩
  | cons a rest ih =>
    obtain ⟨apart, distinct⟩ := List.nodup_cons.1 distinct
    have first_inside : {a.device} ⊆ mine := singleton_subset_devices.trans inside
    have rest_inside : devices rest ⊆ mine := devices_subset_cons.trans inside
    refine (Troupe.delivers_mono subset_rfl singleton_subset_devices (counts.tail.frame rest_inside
      (Set.subset_compl_singleton_iff.2 apart) (Troupe.delivers_mono first_inside subset_rfl
        (fates.delivers a parallel rollback counts.head)))).bind ?_
    rintro r t s' ⟨⟨same, done⟩, counts⟩
    -- Whether the batch goes on is up to the result of this action.
    rw [outcomes, List.map_cons, carried, ← ActionResult.success_of_untimed_eq same]
    cases success : r.success || throughout with
    | false =>
      refine .pure ⟨by simp [same], fun throughout => ?_⟩
      simp [throughout] at success
    | true =>
      refine (Troupe.delivers_mono subset_rfl devices_subset_cons (done.frame
        ((devices_singleton a).subset.trans first_inside)
        ((devices_singleton a).subset.trans (Set.singleton_subset_iff.2 apart))
        (ih distinct rest_inside counts))).bind ?_
      rintro results t s'' ⟨⟨sames, counts⟩, done⟩
      exact .pure ⟨by simp [same, sames, outcomes],
        fun throughout => done.cons (counts throughout)⟩

/-! ### Side by side -/

/-- The first action and the others keep to devices of their own. -/
theorem beside (apart : a.device ∉ devices rest) :
    Process.Beside (troupe.terms (devices (a :: rest)) (devices (a :: rest)))
      (troupe.terms {a.device} {a.device}) (troupe.terms (devices rest) (devices rest)) where
  others_left spares := spares.mono singleton_subset_devices
  others_right spares := spares.mono devices_subset_cons
  own_left spares := spares.mono (Set.compl_subset_compl.2 singleton_subset_devices)
  own_right spares := spares.mono (Set.compl_subset_compl.2 devices_subset_cons)
  left_right spares := spares.mono (Set.subset_compl_singleton_iff.2 apart)
  right_left spares := spares.mono (Set.singleton_subset_iff.2 apart)

theorem together_delivers (distinct : (actions.map Action.device).Nodup)
    (counts : troupe.Counts known before actions s) :
    (Process.together (actions.map
        (executeOne troupe.toDeviceLink { options with parallel, rollback }))).Delivers
      (troupe.terms (devices actions) (devices actions)) (fun _ => True)
      (fun results _ s' => results.map ActionResult.untimed = fates.outcomes actions ∧
        troupe.Counts known fates.after actions s') now s := by
  induction actions generalizing now s with
  | nil => exact .pure ⟨rfl, { counts with calls := List.forall_mem_nil _ }⟩
  | cons a rest ih =>
    obtain ⟨apart, distinct⟩ := List.nodup_cons.1 distinct
    refine (Process.Delivers.both (f := List.cons) (beside apart) ?stableL ?stableR
      (fates.delivers a parallel rollback counts.head)
      fun s' spares => ih distinct (counts.tail.spared subset_rfl spares)).imp ?ended
    case stableL =>
      exact fun _ _ _ spares ⟨same, done⟩ =>
        ⟨same, done.spared (devices_singleton a).subset spares⟩
    case stableR =>
      exact fun _ _ _ spares ⟨sames, counts⟩ => ⟨sames, counts.spared subset_rfl spares⟩
    case ended =>
      rintro _ _ s' ⟨r, results, rfl, ⟨same, done⟩, sames, counts⟩
      exact ⟨by simp [same, sames, outcomes], done.cons counts⟩

/-- Both modes carry out the actions on their own devices. -/
theorem carryOut_delivers (distinct : (actions.map Action.device).Nodup)
    (counts : troupe.Counts known before actions s) :
    (carryOut troupe.toDeviceLink { options with parallel, rollback } actions).Delivers
      (troupe.terms (devices actions) (devices actions)) (fun _ => True)
      (fun results _ s' =>
        results.map ActionResult.untimed =
          carried (parallel || rollback) (fates.outcomes actions) ∧
        (rollback = true → troupe.Counts known fates.after actions s')) now s := by
  cases parallel with
  | true =>
    rw [Bool.true_or, carried_true]
    refine (fates.together_delivers distinct counts).imp ?_
    exact fun _ _ _ ended => ⟨ended.1, fun _ => ended.2⟩
  | false => exact fates.executeInOrder_delivers rollback distinct subset_rfl counts

/-! ### Undoing -/

/-- Whether an action would be undone. -/
def reverted (a : Action) : Bool :=
  reverts options a (fates.result a).success (known a.device)
    (troupe.response a.device (fates.after a))

/-- The devices whose action is undone, if the batch is to be undone. -/
def undone (actions : List Action) : List DeviceId :=
  if (fates.outcomes actions).all (·.success) then []
  else (actions.reverse.filter fates.reverted).map Action.device

theorem undo_delivers (scripted : troupe.Scripted) {pairs : List (Action × ActionResult)}
    (undoing : pairs.map Prod.fst = actions) (distinct : (actions.map Action.device).Nodup)
    (same : ∀ pair ∈ pairs, pair.2.success = (fates.result pair.1).success)
    {mine : Set DeviceId} (inside : devices actions ⊆ mine)
    (counts : troupe.Counts known fates.after actions s) :
    (undo troupe.toDeviceLink { options with parallel, rollback } pairs).Delivers
      (troupe.terms mine mine) (fun _ => True)
      (fun undone _ _ => undone = (actions.filter fates.reverted).map Action.device) now s := by
  induction pairs generalizing actions now s with
  | nil =>
    obtain rfl := undoing
    exact .pure rfl
  | cons pair rest ih =>
    obtain ⟨a, result⟩ := pair
    obtain rfl := undoing
    obtain ⟨apart, distinct⟩ := List.nodup_cons.1 distinct
    obtain ⟨success, same⟩ := List.forall_mem_cons.1 same
    have first_inside : {a.device} ⊆ mine := singleton_subset_devices.trans inside
    have rest_inside : devices (rest.map Prod.fst) ⊆ mine := devices_subset_cons.trans inside
    have fate : reverts { options with parallel, rollback } a result.success
        (troupe.lookup s a.device).isSome
        (troupe.response a.device (troupe.calls s a.device).length) = fates.reverted a := by
      rw [counts.known, counts.calls a List.mem_cons_self, success]
      rfl
    have undoes := undoOne_delivers scripted { options with parallel, rollback } a result.success now
      counts.head.called
    rw [fate] at undoes
    rw [undo_cons]
    refine (Troupe.delivers_mono subset_rfl first_inside (counts.tail.frame rest_inside
      (Set.subset_compl_singleton_iff.2 apart)
      (Troupe.delivers_mono first_inside subset_rfl undoes))).bind ?_
    rintro _ t s' ⟨rfl, counts⟩
    refine (ih rfl distinct same rest_inside counts).bind ?_
    rintro _ _ _ rfl
    refine .pure ?_
    cases reverted : fates.reverted a with
    | true => simp [reverted]
    | false => simp [reverted]

section

variable {results : List ActionResult}
variable (same : results.map ActionResult.untimed = fates.outcomes actions)

include same

theorem length_eq : results.length = actions.length := by
  simpa [outcomes] using congrArg List.length same

/-- A full list of results shows whether all actions succeed. -/
theorem allSucceeded_eq :
    allSucceeded actions results = (fates.outcomes actions).all (·.success) := by
  rw [allSucceeded, fates.length_eq same, ← same, List.all_map]
  simp [Function.comp_def, ActionResult.untimed]

theorem success_of_mem_zip :
    ∀ pair ∈ actions.zip results, pair.2.success = (fates.result pair.1).success := by
  induction actions generalizing results with
  | nil => simp
  | cons a rest ih =>
    cases results with
    | nil => simp
    | cons r results =>
      obtain ⟨first, same⟩ := List.cons_eq_cons.1 same
      exact List.forall_mem_cons.2 ⟨ActionResult.success_of_untimed_eq first, ih same⟩

end

theorem takeBack_delivers (scripted : troupe.Scripted)
    (distinct : (actions.map Action.device).Nodup) {results : List ActionResult}
    (same : results.map ActionResult.untimed =
      carried (parallel || rollback) (fates.outcomes actions))
    (counts : rollback = true → troupe.Counts known fates.after actions s) :
    (takeBack troupe.toDeviceLink { options with parallel, rollback } actions results).Delivers
      (troupe.terms (devices actions) (devices actions)) (fun _ => True)
      (fun rolledBack _ _ => rolledBack = if rollback then fates.undone actions else []) now s := by
  cases rollback with
  | false => exact .pure rfl
  | true =>
    rw [Bool.or_true, carried_true] at same
    rw [takeBack, fates.allSucceeded_eq same, if_pos rfl, undone, Bool.true_and]
    cases (fates.outcomes actions).all (·.success) with
    | true => exact .pure rfl
    | false =>
      have length : actions.length ≤ results.length := (fates.length_eq same).ge
      have counts := counts rfl
      refine fates.undo_delivers scripted ?_ ?_ ?_ ?_ ?_
      · rw [List.map_reverse, List.map_fst_zip length]
      · rwa [List.map_reverse, List.nodup_reverse]
      · exact fun pair member => fates.success_of_mem_zip same pair (List.mem_reverse.1 member)
      · exact (devices_reverse actions).subset
      · exact counts.reverse

/-! ### The whole batch -/

theorem orchestrate_delivers (scripted : troupe.Scripted)
    (distinct : (actions.map Action.device).Nodup)
    (counts : troupe.Counts known before actions s) :
    (orchestrate troupe.toDeviceLink { options with parallel, rollback } actions).Delivers
      (troupe.terms (devices actions) (devices actions)) (fun _ => True)
      (fun done _ _ =>
        done.1.map ActionResult.untimed =
          carried (parallel || rollback) (fates.outcomes actions) ∧
        done.2 = if rollback then fates.undone actions else []) now s := by
  rw [orchestrate_eq]
  refine (fates.carryOut_delivers distinct counts).bind ?_
  rintro results t s' ⟨same, counts⟩
  refine (fates.takeBack_delivers scripted distinct same counts).bind ?_
  rintro _ _ _ rfl
  exact .pure ⟨same, rfl⟩

/-- A batch does not crash. -/
theorem execute_delivers (scripted : troupe.Scripted)
    (distinct : (actions.map Action.device).Nodup)
    (counts : troupe.Counts known before actions s) :
    (execute troupe.toDeviceLink { options with parallel, rollback } actions).Delivers
      (troupe.terms (devices actions) (devices actions)) (fun _ => True)
      (fun result _ _ => result.error = none ∧
        result.actions.map ActionResult.untimed =
          carried (parallel || rollback) (fates.outcomes actions) ∧
        result.rolledBack = if rollback then fates.undone actions else []) now s := by
  refine Process.Delivers.clock.bind ?_
  rintro _ _ _ ⟨rfl, rfl, rfl⟩
  refine (fates.orchestrate_delivers scripted distinct counts).guarded.bind ?_
  rintro _ _ _ ⟨done, rfl, same, rolledBack⟩
  refine Process.Delivers.clock.bind ?_
  rintro _ _ _ ⟨rfl, rfl, rfl⟩
  exact .pure ⟨rfl, same, rolledBack⟩

end Fates

/-- A batch of actions for distinct devices comes to the same in every mode: to the same results,
apart from the time that they take, and to the same undoing, if it is to be undone. In sequence a
batch that is not to be undone stops at the first failure. -/
theorem execute_agrees (scripted : troupe.Scripted) (options : ExecutionOptions)
    {actions : List Action} (distinct : (actions.map Action.device).Nodup) {t : Timeline σ}
    (alone : t.Alone) (valid : troupe.Valid t.state) :
    ∃ outcomes undone, outcomes.length = actions.length ∧ ∀ parallel rollback, ∃ result t',
      t.Concludes (execute troupe.toDeviceLink { options with parallel, rollback } actions)
        result t' ∧
      result.error = none ∧
      result.actions.map ActionResult.untimed =
        (if parallel || rollback then outcomes
          else outcomes.take (outcomes.findIdx (fun r => !r.success) + 1)) ∧
      result.rolledBack = if rollback then undone else [] := by
  -- The fates are those from the calls that the devices have had when the batch begins.
  obtain ⟨fates⟩ := nonempty_fates scripted options
    (fun id => (troupe.lookup t.state id).isSome)
    (fun a => (troupe.calls t.state a.device).length)
  have counts : troupe.Counts _ _ actions t.state := ⟨valid, fun _ => rfl, fun _ _ => rfl⟩
  refine ⟨fates.outcomes actions, fates.undone actions, List.length_map _, ?_⟩
  intro parallel rollback
  have delivers : (execute troupe.toDeviceLink { options with parallel, rollback }
      actions).Delivers _ _ _ t.now t.state := fates.execute_delivers scripted distinct counts
  obtain ⟨result, now, s, concludes, calm, same, undone⟩ := alone.concludes delivers
  refine ⟨result, _, concludes, calm, same.trans ?_, undone⟩
  cases parallel || rollback with
  | true => exact carried_true _
  | false => exact carried_false _

/-! ### A fan that refuses, and a lamp that is busy twice -/

def startFan : Action := ⟨⟨"fan"⟩, .turnOn, none⟩

/-- The fan is tried once. -/
def stillResult : ActionResult where
  device := ⟨"fan"⟩
  kind := .turnOn
  success := false
  elapsed := 0
  retries := 0
  error := some "device error: device reported failure"

/-- In a mode the fan and the lamp come to these results, and the actions for these devices are
undone. -/
def FanAndLampFare (parallel rollback : Bool) (results : List ActionResult)
    (undone : List DeviceId) : Prop :=
  ∃ result t', (Timeline.start Rehearsal.lampAndFan []).Concludes
      (execute Rehearsal.lampAndFanTroupe.toDeviceLink
        { ExecutionOptions.standard with parallel, rollback } [startFan, lightLamp]) result t' ∧
    result.actions.map ActionResult.untimed = results ∧ result.rolledBack = undone

/-- The lamp is lit and put out again if the batch is to be undone. In sequence it is not touched if
the batch is not to be undone. -/
theorem execute_agrees_fanAndLamp :
    FanAndLampFare true true [stillResult, litResult 0] [⟨"lamp"⟩] ∧
    FanAndLampFare false true [stillResult, litResult 0] [⟨"lamp"⟩] ∧
    FanAndLampFare true false [stillResult, litResult 0] [] ∧
    FanAndLampFare false false [stillResult] [] := by
  obtain ⟨outcomes, undone, -, agrees⟩ := execute_agrees Rehearsal.scripted_lampAndFan .standard
    (by decide : ([startFan, lightLamp].map Action.device).Nodup)
    (t := .start Rehearsal.lampAndFan []) ⟨rfl, rfl⟩ Rehearsal.valid_lampAndFan
  -- One of the modes shows what becomes of the actions in all of them.
  obtain ⟨shown, _, concludes, -, same, undoing⟩ := agrees true true
  have played : (Timeline.start Rehearsal.lampAndFan []).Concludes
      (execute Rehearsal.lampAndFanTroupe.toDeviceLink
        { ExecutionOptions.standard with parallel := true, rollback := true } [startFan, lightLamp])
      { actions := [stillResult, litResult 3000], success := false, elapsed := 3000,
        rolledBack := [⟨"lamp"⟩], error := none } _ :=
    Timeline.Concludes.of_complete (n := 8) (by decide +kernel)
  obtain rfl := (concludes.unique played).1
  obtain rfl : _ = outcomes := same
  obtain rfl : _ = undone := undoing
  have fare (parallel rollback : Bool) :
      FanAndLampFare parallel rollback
        (if parallel || rollback then [stillResult, litResult 0] else [stillResult])
        (if rollback then [⟨"lamp"⟩] else []) := by
    obtain ⟨result, t', concludes, -, same, undoing⟩ := agrees parallel rollback
    exact ⟨result, t', concludes, same, undoing⟩
  exact ⟨fare true true, fare false true, fare true false, fare false false⟩

end Batch

end Hearth

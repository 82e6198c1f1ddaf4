import Hearth.Proofs.Execution.Agreement
import Hearth.Proofs.Execution.Calls
import Hearth.Proofs.Process.Halting

/-!
# Hearth.Proofs.Execution.Contract

What can be relied on when a batch has answered, whatever its devices do.

## Main definitions

- `Batch.Carried`: the results of a batch in sequence, with the calls that were made for them.
- `Batch.Fulfils`: the contract of a batch that has not crashed.

## Main result

- `Batch.execute_contract`: every batch answers, and what it answers keeps to the contract.

## Proof strategy

In sequence, `executeInOrder_carried` goes along the actions and splits the record at each of them, and
everything else about the results is read off `Carried`. Side by side there is no order of the calls, but
the results are those of the actions one by one. `Complies` is all that has to be known of the results for
success, summary and answer to agree.
-/

namespace Hearth.Batch

variable {σ : Type} {link : DeviceLink σ} {options : ExecutionOptions} {others : σ → σ → Prop}
variable {actions : List Action} {results : List ActionResult} {calls : List Call}

/-- A result belongs to an action. -/
structure Belongs (a : Action) (r : ActionResult) : Prop where
  device : r.device = a.device
  kind : r.kind = a.kind

theorem executeOne_belongs (link : DeviceLink σ) (options : ExecutionOptions) (a : Action) :
    (executeOne link options a).Answers (Belongs a) := by
  rw [executeOne_eq]
  exact (Process.Answers.any _).bind fun _ _ => (Process.Answers.any _).bind fun _ _ =>
    (Process.Answers.any _).bind fun _ _ => .pure ⟨rfl, rfl⟩

/-! ### In sequence -/

/-- The calls made for an action that has come to a result, given what was known of its device when the
action began. -/
def Made (link : DeviceLink σ) (entry : Action × ActionResult) (calls : List Call) : Prop :=
  ∃ s, Served (target? link entry.1 s) entry.1 entry.2 calls

/-- The results of some actions in order, and all calls made for them. -/
inductive Carried (link : DeviceLink σ) (throughout : Bool) :
    List Action → List ActionResult → List Call → Prop
  | nil : Carried link throughout [] [] []
  | last {a : Action} {rest : List Action} {r : ActionResult} {calls : List Call}
      (made : Made link (a, r) calls) (stops : (r.success || throughout) = false) :
      Carried link throughout (a :: rest) [r] calls
  | next {a : Action} {rest : List Action} {r : ActionResult} {results : List ActionResult}
      {calls later : List Call} (made : Made link (a, r) calls)
      (onward : (r.success || throughout) = true)
      (carried : Carried link throughout rest results later) :
      Carried link throughout (a :: rest) (r :: results) (calls ++ later)

theorem executeOne_made (a : Action) (log : List Call) :
    (executeOne link.recorded options a).Leads (Process.OffRecord others) (fun _ _ => True)
      (fun _ _ => True) (fun _ x => x.2 = log)
      (fun r _ x => ∃ calls, x.2 = log ++ calls ∧ Made link (a, r) calls) := by
  have begun (s : σ) : (executeOne link.recorded options a).Leads (Process.OffRecord others)
      (fun _ _ => True) (fun _ _ => True) (fun _ x => x.2 = log ∧ x.1 = s)
      (fun r _ x => ∃ calls, x.2 = log ++ calls ∧ Made link (a, r) calls) :=
    (executeOne_calls options a (target? link a s)).mono
      (fun _ x ⟨same, known⟩ => ⟨same, congrArg (target? link a) known⟩) (fun _ _ _ => trivial)
      (fun _ _ _ => trivial) fun r _ x ⟨calls, same, served⟩ => ⟨calls, same, s, served⟩
  exact (Process.Leads.any begun).pre fun _ x same => ⟨x.1, same, rfl⟩

theorem executeInOrder_carried (throughout : Bool) (actions : List Action) (log : List Call) :
    (executeInOrder link.recorded options throughout actions).Leads (Process.OffRecord others)
      (fun _ _ => True) (fun _ _ => True) (fun _ x => x.2 = log)
      (fun results _ x => ∃ calls, x.2 = log ++ calls ∧
        Carried link throughout actions results calls) := by
  induction actions generalizing log with
  | nil => exact .pure fun _ x same => ⟨[], same.trans (List.append_nil log).symm, .nil⟩
  | cons a rest ih =>
    refine (executeOne_made a log).bind fun r => ?_
    cases onward : r.success || throughout with
    | false =>
      simp only [Bool.false_eq_true, ↓reduceIte]
      exact .pure fun _ x ⟨calls, same, made⟩ => ⟨calls, same, .last made onward⟩
    | true =>
      simp only [↓reduceIte]
      -- The rest adds to the calls that were made for the first action.
      refine Process.Leads.any (P := fun calls _ (x : σ × List Call) =>
        x.2 = log ++ calls ∧ Made link (a, r) calls) fun calls => ?_
      refine .given (fun _ _ begun => begun.2) fun made => ?_
      refine ((ih (log ++ calls)).pre fun _ _ begun => begun.1).bind fun results => .pure ?_
      rintro _ x ⟨later, same, carried⟩
      exact ⟨calls ++ later, same.trans (List.append_assoc _ _ _), .next made onward carried⟩

theorem Made.belongs {a : Action} {r : ActionResult} (made : Made link (a, r) calls) : Belongs a r := by
  obtain ⟨_, served⟩ := made
  exact ⟨served.device, served.kind⟩

namespace Carried

variable {throughout : Bool} (carried : Carried link throughout actions results calls)

include carried

/-- There are results for the first of the actions. -/
theorem belongs : List.Forall₂ Belongs (actions.take results.length) results := by
  induction carried with
  | nil => exact .nil
  | last made _ => exact .cons made.belongs .nil
  | next made _ _ ih => exact .cons made.belongs ih

theorem length_eq (always : throughout = true) : results.length = actions.length := by
  induction carried with
  | nil => rfl
  | last _ stops => simp [always] at stops
  | next _ _ _ ih => exact congrArg (· + 1) ih

/-- Only the last result may be a failure. -/
theorem success_of_mem_dropLast (halting : throughout = false) :
    ∀ r ∈ results.dropLast, r.success = true := by
  induction carried with
  | nil => exact List.forall_mem_nil _
  | last _ _ => exact List.forall_mem_nil _
  | @next a rest r results _ _ _ onward _ ih =>
    have success : r.success = true := by simpa [halting] using onward
    cases results with
    | nil => exact List.forall_mem_nil _
    | cons r' results => exact List.forall_mem_cons.2 ⟨success, ih⟩

/-- A batch that was not carried out to its end has stopped at a failure. -/
theorem failed_last (short : results.length < actions.length) :
    ∃ r, results.getLast? = some r ∧ r.success = false := by
  induction carried with
  | nil => exact absurd short (Nat.lt_irrefl 0)
  | @last a rest r _ _ stops =>
    have failed : r.success = false := by simp_all
    exact ⟨r, rfl, failed⟩
  | @next a rest r results _ _ _ _ _ ih =>
    obtain ⟨last, found, failed⟩ := ih (Nat.lt_of_succ_lt_succ short)
    exact ⟨last, by simp [List.getLast?_cons, found], failed⟩

/-- Every call was made for an action that has a result. -/
theorem segments : ∃ segments : List (List Call),
    calls = segments.flatten ∧ List.Forall₂ (Made link) (actions.zip results) segments := by
  induction carried with
  | nil => exact ⟨[], rfl, .nil⟩
  | @last a rest r calls made _ =>
    refine ⟨[calls], by simp, ?_⟩
    rw [List.zip_cons_cons, List.zip_nil_right]
    exact .cons made .nil
  | @next a rest r results calls later made _ _ ih =>
    obtain ⟨segments, same, all⟩ := ih
    exact ⟨calls :: segments, by simp [same], .cons made all⟩

end Carried

/-! ### What the results tell -/

/-- The results belong to the first of the actions, in order. Side by side, or if the batch may have to
be undone, these are all actions; else only the last result may be a failure. Actions without a result
come after a failure. -/
structure Complies (options : ExecutionOptions) (actions : List Action)
    (results : List ActionResult) : Prop where
  belongs : List.Forall₂ Belongs (actions.take results.length) results
  whole : (options.parallel || options.rollback) = true → results.length = actions.length
  onward : (options.parallel || options.rollback) = false → ∀ r ∈ results.dropLast, r.success = true
  halted : results.length < actions.length → ∃ r, results.getLast? = some r ∧ r.success = false

theorem together_complies (beside : options.parallel = true) (link : DeviceLink σ) :
    (Process.together (actions.map (executeOne link options))).Answers (Complies options actions) := by
  constructor
  intro others now s results t s' course
  have belongs := (Process.Answers.together fun a _ => executeOne_belongs link options a).answer course
  have length := belongs.length_eq
  exact {
    belongs := by rwa [← length, List.take_length]
    whole := fun _ => length.symm
    onward := by simp [beside]
    halted := fun short => absurd length (Nat.ne_of_gt short) }

theorem Carried.complies (carried : Carried link options.rollback actions results calls)
    (sequential : options.parallel = false) : Complies options actions results where
  belongs := carried.belongs
  whole always := carried.length_eq (by simpa [sequential] using always)
  onward halting := carried.success_of_mem_dropLast (by simpa [sequential] using halting)
  halted := carried.failed_last

/-- What has been carried out complies with its options. In sequence every call was made for an action
that has a result. -/
theorem carryOut_complies {now t : Nat} {s s' : σ}
    (course : (carryOut link.recorded options actions).Reaches (Process.OffRecord others) now (s, [])
      (.done results) t (s', calls)) :
    Complies options actions results ∧ (options.parallel = false → ∃ segments : List (List Call),
      calls = segments.flatten ∧ List.Forall₂ (Made link) (actions.zip results) segments) := by
  unfold carryOut at course
  cases mode : options.parallel with
  | true =>
    rw [mode] at course
    exact ⟨(together_complies mode link.recorded).answer course, nofun⟩
  | false =>
    rw [mode] at course
    obtain ⟨_, same, carried⟩ :=
      (executeInOrder_carried options.rollback actions []).stops rfl course
    obtain rfl : calls = _ := same
    exact ⟨carried.complies mode, fun _ => carried.segments⟩

namespace Complies

variable (complies : Complies options actions results)

include complies

/-- A batch succeeds if every action has a result and all of them are successes. -/
theorem allSucceeded_iff : allSucceeded actions results = true ↔
    List.Forall₂ (fun a r => Belongs a r ∧ r.success = true) actions results := by
  constructor
  · -- Where there are as many results as actions, the first of the actions are all of them.
    intro succeeded
    obtain ⟨length, all⟩ : results.length = actions.length ∧ ∀ r ∈ results, r.success = true := by
      simpa [allSucceeded] using succeeded
    have belongs := complies.belongs
    rw [length, List.take_length] at belongs
    refine List.forall₂_iff_zip.2 ⟨belongs.length_eq, fun member => ?_⟩
    exact ⟨List.forall₂_zip belongs member, all _ (List.of_mem_zip member).2⟩
  · intro succeeded
    have all : ∀ r ∈ results, r.success = true := by
      intro r member
      obtain ⟨i, inside, rfl⟩ := List.getElem_of_mem member
      have here := List.forall₂_iff_get.1 succeeded
      exact (here.2 i (here.1 ▸ inside) inside).2
    simpa [allSucceeded, succeeded.length_eq.symm] using all

/-- A batch that does not succeed has a failed result. -/
theorem exists_failed (failed : allSucceeded actions results = false) :
    ∃ r ∈ results, r.success = false := by
  by_cases short : results.length < actions.length
  · obtain ⟨r, last, failure⟩ := complies.halted short
    exact ⟨r, List.mem_of_getLast? last, failure⟩
  · have length : results.length = actions.length := by
      have := complies.belongs.length_eq
      rw [List.length_take] at this
      omega
    simpa [allSucceeded, length] using failed

end Complies

/-! ### The summary -/

theorem errorSummary?_eq_none_iff (r : BatchResult) : r.errorSummary? = none ↔ r.success = true := by
  unfold BatchResult.errorSummary?
  cases r.success with
  | true => simp
  | false =>
    cases r.error with
    | some error => simp
    | none =>
      simp only [Bool.false_eq_true, ↓reduceIte, iff_false]
      split <;> nofun

/-- The summary of a failed batch names what failed: it never says that there was no time for it. -/
theorem errorSummary?_ne {r : BatchResult} (calm : r.error = none)
    (failed : r.success = false → ∃ a ∈ r.actions, a.success = false) :
    r.errorSummary? ≠ some "not every action ran" := by
  unfold BatchResult.errorSummary?
  rw [calm]
  cases success : r.success with
  | true => nofun
  | false =>
    obtain ⟨a, member, failure⟩ := failed success
    have among : a ∈ r.actions.filter fun a => !a.success := List.mem_filter.2 ⟨member, by simp [failure]⟩
    cases failures : r.actions.filter fun a => !a.success with
    | nil => simp [failures] at among
    | cons first rest =>
      -- It begins with the name of a command, and none of these begins as that text does.
      simp only [List.map_cons, String.append_assoc, String.intercalate_cons_append, List.isEmpty_cons]
      intro same
      have begins := congrArg (Option.map fun text : String => text.toList.head?) same
      cases kind : first.kind <;> simp [kind, ActionKind.text] at begins

/-! ### The contract -/

/-- A batch without actions cannot crash. -/
theorem orchestrate_nil (link : DeviceLink σ) (options : ExecutionOptions) (now : Nat) (s : σ) :
    ((orchestrate link options []).poll now s).left = .done ([], []) := by
  obtain ⟨maxRetries, retryDelay, timeout, parallel, rollback⟩ := options
  cases parallel <;> cases rollback <;> rfl

/-- What a batch answers tells whether every action has succeeded, and so does its summary. -/
structure Tells (actions : List Action) (result : BatchResult) : Prop where
  success : result.success = true ↔
    List.Forall₂ (fun a r => Belongs a r ∧ r.success = true) actions result.actions
  summary : result.success = true ↔ result.errorSummary? = none

/-- What a batch answers that has come to its end with so many calls. -/
structure Fulfils (link : DeviceLink σ) (options : ExecutionOptions) (actions : List Action)
    (result : BatchResult) (calls : List Call) : Prop where
  error : result.error = none
  complies : Complies options actions result.actions
  failed : result.success = false → ∃ r ∈ result.actions, r.success = false
  named : result.errorSummary? ≠ some "not every action ran"
  /-- Every call was made for an action with a result. -/
  calls : (options.parallel || options.rollback) = false → ∃ segments : List (List Call),
    calls = segments.flatten ∧ List.Forall₂ (Made link) (actions.zip result.actions) segments

/-- What a batch answers that has crashed. -/
structure GivesUp (result : BatchResult) : Prop where
  actions : result.actions = []
  rolledBack : result.rolledBack = []
  success : result.success = false
  error : result.error.isSome

theorem fulfils_completed {now t : Nat} {s s' : σ} {elapsed : Nat}
    {outcome : List ActionResult × List DeviceId}
    (course : (orchestrate link.recorded options actions).Reaches (Process.OffRecord others) now
      (s, []) (.done outcome) t (s', calls)) :
    Tells actions (completed actions elapsed outcome) ∧
      Fulfils link options actions (completed actions elapsed outcome) calls := by
  obtain ⟨t₁, ⟨s₁, forward⟩, carried, back⟩ := reaches_orchestrate course
  obtain ⟨complies, segments⟩ := carryOut_complies carried
  refine ⟨⟨complies.allSucceeded_iff, (errorSummary?_eq_none_iff _).symm⟩, rfl, complies,
    complies.exists_failed, errorSummary?_ne rfl complies.exists_failed, fun plain => ?_⟩
  -- Nothing is taken back, so all calls were made on the way.
  obtain ⟨sequential, forth⟩ := Bool.or_eq_false_iff.1 plain
  rw [takeBack, forth, Bool.false_and, if_neg Bool.false_ne_true] at back
  obtain ⟨-, -, same⟩ := back.of_pure
  cases same
  exact segments sequential

theorem givesUp_abandoned {now t : Nat} {s s' : σ} {elapsed : Nat} {cause : Crash}
    (course : (orchestrate link options actions).Reaches others now s (.crash cause) t s') :
    Tells actions (abandoned elapsed cause) ∧ GivesUp (abandoned elapsed cause) := by
  refine ⟨⟨⟨nofun, fun succeeded => ?_⟩, (errorSummary?_eq_none_iff _).symm⟩, rfl, rfl, rfl, rfl⟩
  -- All actions can only have succeeded without a result if there are none, and then nothing crashes.
  cases succeeded
  have ended := orchestrate_nil link options now s
  have last := (course.eq_first (congrArg Process.answer? ended)).1
  exact absurd (last.trans ended) nofun

theorem ends_execute (link : DeviceLink σ) (options : ExecutionOptions) (actions : List Action) :
    (execute link options actions).Ends fun _ => True :=
  Process.Ends.now.bind fun _ _ => (Process.Ends.rescue _).bind fun outcome _ =>
    Process.Ends.now.bind fun _ _ => by cases outcome <;> exact .pure trivial

/-- Every batch answers. If it has not crashed, its results comply with its options, it makes no call for
an action without a result, and it tells what failed if it does not succeed; if it has crashed, it tells
so. In either case it succeeds exactly if every action has succeeded, exactly if it has no error to tell,
and exactly if all is well for someone who only asks for that. -/
theorem execute_contract (link : DeviceLink σ) (options : ExecutionOptions) (actions : List Action)
    (others : σ → σ → Prop) :
    (execute link options actions).Ends (fun _ => True) ∧
    (execute link.recorded options actions).Records others (execute link options actions) [] ∧
    (∀ {now s result t s' calls},
      (execute link.recorded options actions).Reaches (Process.OffRecord others) now (s, [])
        (.done result) t (s', calls) →
      Tells actions result ∧
      ((∃ outcome, (orchestrate link.recorded options actions).Reaches (Process.OffRecord others) now
          (s, []) (.done outcome) t (s', calls) ∧ Fulfils link options actions result calls) ∨
        ∃ cause, (orchestrate link.recorded options actions).Reaches (Process.OffRecord others) now
          (s, []) (.crash cause) t (s', calls) ∧ GivesUp result)) ∧
    (run link options actions).Ends (fun _ => True) ∧
    ∀ {now s answer t s'}, (run link options actions).Reaches others now s (.done answer) t s' →
      ∃ result, (execute link options actions).Reaches others now s (.done result) t s' ∧
        (answer = .ok () ↔ result.success = true) := by
  refine ⟨ends_execute link options actions, (follows_execute link options actions).records others [],
    ?_, ?_, ?_⟩
  · intro now s result t s' calls course
    obtain ⟨outcome, inner, rfl⟩ | ⟨cause, inner, rfl⟩ := reaches_execute course
    · obtain ⟨tells, fulfils⟩ := fulfils_completed inner
      exact ⟨tells, .inl ⟨outcome, inner, fulfils⟩⟩
    · obtain ⟨tells, gives⟩ := givesUp_abandoned inner
      exact ⟨tells, .inr ⟨cause, inner, gives⟩⟩
  · refine (ends_execute link options actions).bind fun result _ => ?_
    split <;> exact .pure trivial
  · intro now s answer t s' course
    obtain ⟨result, _, _, executed, rest⟩ := Process.Reaches.of_bind_done course
    cases summary : result.errorSummary? with
    | none =>
      simp only [summary] at rest
      obtain ⟨rfl, rfl, rfl⟩ := rest.of_pure
      exact ⟨result, executed, fun _ => (errorSummary?_eq_none_iff result).1 summary, fun _ => rfl⟩
    | some text =>
      simp only [summary] at rest
      obtain ⟨rfl, rfl, rfl⟩ := rest.of_pure
      refine ⟨result, executed, nofun, fun success => ?_⟩
      rw [(errorSummary?_eq_none_iff result).2 success] at summary
      cases summary

/-! ### A fan that refuses, before a lamp -/

def fanFirst : Process.Progress (Rehearsal × List Call) BatchResult :=
  (execute Rehearsal.lampAndFanTroupe.recorded .standard [startFan, lightLamp]).poll 0
    (Rehearsal.lampAndFan, [])

def fanFirstResult : BatchResult where
  actions := [stillResult]
  success := false
  elapsed := 0
  rolledBack := []
  error := none

theorem left_fanFirst : fanFirst.left = .done fanFirstResult := Process.eq_done (by decide +kernel)

theorem reaches_fanFirst :
    (execute Rehearsal.lampAndFanTroupe.recorded .standard [startFan, lightLamp]).Reaches
      (Process.OffRecord Eq) 0 (Rehearsal.lampAndFan, []) (.done fanFirstResult) 0 fanFirst.state := by
  rw [← left_fanFirst]
  exact .first

/-- The only call is for the fan: the lamp is left alone. -/
theorem execute_contract_fan :
    fanFirstResult.success = false ∧
    Complies .standard [startFan, lightLamp] fanFirstResult.actions ∧
    ∃ call, fanFirst.state.2 = [call] ∧ call.device.id = ⟨"fan"⟩ := by
  have kept := (execute_contract Rehearsal.lampAndFanTroupe.toDeviceLink .standard
    [startFan, lightLamp] Eq).2.2.1 reaches_fanFirst
  obtain ⟨-, ⟨outcome, -, fulfils⟩ | ⟨cause, -, gives⟩⟩ := kept
  · have once : fanFirst.state.2.length = 1 := by decide +kernel
    obtain ⟨call, same⟩ := List.length_eq_one_iff.1 once
    refine ⟨rfl, fulfils.complies, call, same, ?_⟩
    have name : (fanFirst.state.2.head?.map fun call => call.device.id) = some ⟨"fan"⟩ := by
      decide +kernel
    rw [same] at name
    exact Option.some.inj name
  · exact absurd gives.actions nofun

end Hearth.Batch

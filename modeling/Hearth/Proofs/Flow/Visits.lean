import Hearth.Proofs.Flow.DepthFirst
import Hearth.Proofs.Process.Promises

/-!
# Hearth.Proofs.Flow.Visits

What a visit takes down, and what the rounds of a walk keep, whatever the surroundings do.

## Main definitions

- `RunLog.Visited`: all that the visit of a node may make of the log.
- `RunLog.Gains`: what the log has gained by the visit of a node.

## Main results

- `visit_visited`: whatever the surroundings do, a visit makes nothing else of the log.
- `RunLog.Visited.gains`: a visit adds to the log what belongs to its node, and goes on along the
  connections that the node has selected by then.
- `walk_visits`: what each round of a walk keeps holds at its end.
- `run_answers` and `run_answers_log`: a run ends as its walk does, if it comes to a walk.
-/

namespace Hearth

theorem FlowNode.selected_of_role {n : FlowNode} (role : n.role ≠ .condition)
    (branch : Option Bool) : n.selected (.ok branch) = n.connections := by
  unfold selected
  split
  · next fault => cases fault
  · split
    · next is _ => exact absurd is role
    · next is _ => exact absurd is role
    · rfl

/-- Whatever a node has selected are connections of it. -/
theorem FlowNode.mem_connections_of_mem_selected {n : FlowNode}
    {outcome : Except FlowFault (Option Bool)} {id : NodeId} (chosen : id ∈ n.selected outcome) :
    id ∈ n.connections := by
  unfold selected at chosen
  split at chosen
  · exact absurd chosen List.not_mem_nil
  · split at chosen
    · exact List.mem_of_getElem? (Option.mem_toList.1 chosen)
    · exact List.mem_of_getElem? (Option.mem_toList.1 chosen)
    · exact chosen

namespace RunLog

/-! ### What a visit makes of the log -/

/-- The ways in which a node that is carried out may go, and what is noted of it then. -/
inductive Notes (log : RunLog) (n : FlowNode) : Except FlowFault (Option Bool) → RunLog → Prop
  | fired (role : n.role = .trigger) : Notes log n (.ok none) (log.keepTrigger n)
  | decided (role : n.role = .condition) (holds : Bool) :
      Notes log n (.ok (some holds)) { log with branches := log.branches.insert n.id holds }
  | acted (role : n.role = .action) {a : Action} (action : n.action = .ok a) :
      Notes log n (.ok none) (log.keepAction n a)
  | waited (role : n.role = .delay) : Notes log n (.ok none) log
  | failed (role : n.role ≠ .trigger) (fault : FlowFault) : Notes log n (.error fault) log

/-- What a visit makes of the log, and the nodes to go on with after it. -/
inductive Visited (log : RunLog) (probe : Probe) (n : FlowNode) (depth : Nat) :
    RunLog → List NodeId → Prop
  | passed {began ended duration : Nat} {branch : Option Bool} {ran : RunLog}
      (notes : (log.begin probe began n depth).Notes n (.ok branch) ran) :
      Visited log probe n depth (ran.finish probe ended duration n depth none) (n.following branch)
  | failed {began ended duration : Nat} {fault : FlowFault} (role : n.role ≠ .trigger) :
      Visited log probe n depth
        ((log.begin probe began n depth).finish probe ended duration n depth (some fault)) []

/-- What carrying a node out does to the log: it may keep the side on which a condition came out. -/
structure Keeps (log after : RunLog) (n : FlowNode) (outcome : Except FlowFault (Option Bool)) :
    Prop where
  executed : after.executed = log.executed
  failed : after.failed = log.failed
  trace : after.trace = log.trace
  elsewhere : ∀ id, id ≠ n.id → after.branches.get? id = log.branches.get? id
  side : ∀ branch, outcome = .ok branch →
    (n.role = .condition ∧ branch = after.branches.get? n.id ∧ branch ≠ none) ∨
    (n.role ≠ .condition ∧ branch = none)

theorem Keeps.of_error (log : RunLog) (n : FlowNode) (fault : FlowFault) :
    log.Keeps log n (.error fault) :=
  ⟨rfl, rfl, rfl, fun _ _ => rfl, nofun⟩

/-- Nodes that are no conditions only change the variables. -/
theorem Keeps.of_role {log : RunLog} {n : FlowNode} (role : n.role ≠ .condition)
    (memory : List (String × Data)) : log.Keeps { log with memory } n (.ok none) where
  executed := rfl
  failed := rfl
  trace := rfl
  elsewhere _ _ := rfl
  side _ same := .inr ⟨role, (Except.ok.inj same).symm⟩

theorem Notes.keeps {log after : RunLog} {n : FlowNode} {outcome : Except FlowFault (Option Bool)}
    (notes : log.Notes n outcome after) : log.Keeps after n outcome := by
  cases notes with
  | fired role => exact .of_role (by simp [role]) _
  | decided role holds =>
    refine ⟨rfl, rfl, rfl, fun id other => Table.get?_insert_ne _ _ other, ?_⟩
    intro branch same
    cases same
    exact .inl ⟨role, (Table.get?_insert_self ..).symm, Option.some_ne_none _⟩
  | acted role action => exact .of_role (by simp [role]) _
  | waited role => exact .of_role (by simp [role]) log.memory
  | failed role fault => exact .of_error log n fault

/-- Whatever is noted of a node that goes well, is noted in the variables and, for a condition, with the
sides. -/
theorem Notes.eq_of_ok {log after : RunLog} {n : FlowNode} {branch : Option Bool}
    (notes : log.Notes n (.ok branch) after) :
    ∃ memory branches, after = { log with memory, branches } ∧
      ((n.role = .condition ∧ ∃ holds, branches = log.branches.insert n.id holds) ∨
        (n.role ≠ .condition ∧ branches = log.branches)) := by
  cases notes with
  | fired role => exact ⟨_, _, rfl, .inr ⟨by simp [role], rfl⟩⟩
  | decided role holds => exact ⟨_, _, rfl, .inl ⟨role, holds, rfl⟩⟩
  | acted role action => exact ⟨_, _, rfl, .inr ⟨by simp [role], rfl⟩⟩
  | waited role => exact ⟨log.memory, _, rfl, .inr ⟨by simp [role], rfl⟩⟩

/-- What the log has gained by the visit of a node at some depth, from which the nodes `next` are to
come. -/
structure Gains (log after : RunLog) (n : FlowNode) (depth : Nat) (stepwise : Bool)
    (next : List NodeId) : Prop where
  executed : after.executed = log.executed ++ [n.id]
  elsewhere : ∀ id, id ≠ n.id → after.branches.get? id = log.branches.get? id
  outcome : (after.failed = log.failed ++ [n.id] ∧ next = []) ∨
    (after.failed = log.failed ∧ next = n.selected (.ok (after.branches.get? n.id)) ∧
      (n.role = .condition → after.branches.get? n.id ≠ none))
  trace : ∃ entries, after.trace = log.trace ++ entries ∧
    (∀ entry ∈ entries, entry.node = n.id ∧ entry.depth = depth) ∧
    (stepwise = true → entries ≠ [])

theorem Gains.along {log after : RunLog} {n : FlowNode} {depth : Nat} {stepwise : Bool}
    {next : List NodeId} (gains : log.Gains after n depth stepwise next) :
    ∀ id ∈ next, id ∈ n.connections := by
  rcases gains.outcome with ⟨-, rfl⟩ | ⟨-, rfl, -⟩
  · nofun
  · exact fun _ => FlowNode.mem_connections_of_mem_selected

theorem Gains.failed_subset {log after : RunLog} {n : FlowNode} {depth : Nat} {stepwise : Bool}
    {next : List NodeId} (gains : log.Gains after n depth stepwise next)
    (ran : log.failed ⊆ log.executed) : after.failed ⊆ after.executed := by
  rw [gains.executed]
  rcases gains.outcome with ⟨grown, -⟩ | ⟨same, -⟩
  · rw [grown]
    exact List.append_subset.2
      ⟨List.subset_append_of_subset_left _ ran, List.subset_append_right ..⟩
  · rw [same]
    exact List.subset_append_of_subset_left _ ran

theorem Gains.mem_executed_iff {log after : RunLog} {n : FlowNode} {depth : Nat} {stepwise : Bool}
    {next : List NodeId} (gains : log.Gains after n depth stepwise next) {id : NodeId}
    (other : id ≠ n.id) : id ∈ after.executed ↔ id ∈ log.executed := by
  simp [gains.executed, other]

/-- By a visit no other node fails. -/
theorem Gains.mem_failed_iff {log after : RunLog} {n : FlowNode} {depth : Nat} {stepwise : Bool}
    {next : List NodeId} (gains : log.Gains after n depth stepwise next) {id : NodeId}
    (other : id ≠ n.id) : id ∈ after.failed ↔ id ∈ log.failed := by
  rcases gains.outcome with ⟨grown, -⟩ | ⟨same, -⟩
  · simp [grown, other]
  · rw [same]

theorem trace_setStatus (r : RunLog) (probe : Probe) (elapsed : Nat) (node : NodeId)
    (status : NodeStatus) (depth : Nat) :
    (r.setStatus probe elapsed node status depth).trace =
      r.trace ++ if probe.stepwise then [⟨node, status, depth, elapsed⟩] else [] := by
  cases stepwise : probe.stepwise <;> simp [setStatus, stepwise]

variable {log after : RunLog} {probe : Probe} {n : FlowNode} {depth began ended duration : Nat}

/-- A node that has run is taken down twice: when it begins and when it is over. -/
theorem trace_finish {outcome : Except FlowFault (Option Bool)}
    (keeps : (log.begin probe began n depth).Keeps after n outcome) (fault? : Option FlowFault) :
    ∃ entries, (after.finish probe ended duration n depth fault?).trace = log.trace ++ entries ∧
      (∀ entry ∈ entries, entry.node = n.id ∧ entry.depth = depth) ∧
      (probe.stepwise = true → entries ≠ []) := by
  have begun : (log.begin probe began n depth).trace =
      log.trace ++ if probe.stepwise then [⟨n.id, .running, depth, began⟩] else [] :=
    trace_setStatus ..
  obtain ⟨status, ended'⟩ : ∃ status, (after.finish probe ended duration n depth fault?).trace =
      after.trace ++ if probe.stepwise then [⟨n.id, status, depth, ended⟩] else [] := by
    cases fault? with
    | none => exact ⟨.succeeded, trace_setStatus ..⟩
    | some fault => exact ⟨.failed, trace_setStatus ..⟩
  rw [keeps.trace, begun, List.append_assoc] at ended'
  refine ⟨_, ended', fun entry member => ?_, fun stepwise => by simp [stepwise]⟩
  cases stepwise : probe.stepwise with
  | false => simp [stepwise] at member
  | true =>
    simp only [stepwise, ↓reduceIte, List.singleton_append, List.mem_cons, List.not_mem_nil,
      or_false] at member
    rcases member with rfl | rfl
    · exact ⟨rfl, rfl⟩
    · exact ⟨rfl, rfl⟩

theorem Keeps.gains_error {fault : FlowFault}
    (keeps : (log.begin probe began n depth).Keeps after n (.error fault)) :
    log.Gains (after.finish probe ended duration n depth (some fault)) n depth probe.stepwise [] where
  executed := (executed_finish ..).trans (congrArg (· ++ [n.id]) keeps.executed)
  elsewhere := keeps.elsewhere
  outcome := .inl ⟨congrArg (· ++ [n.id]) keeps.failed, rfl⟩
  trace := trace_finish keeps (some fault)

theorem Keeps.gains_ok {branch : Option Bool}
    (keeps : (log.begin probe began n depth).Keeps after n (.ok branch)) :
    log.Gains (after.finish probe ended duration n depth none) n depth probe.stepwise
      (n.following branch) := by
  refine ⟨(executed_finish ..).trans (congrArg (· ++ [n.id]) keeps.executed), keeps.elsewhere,
    .inr ⟨keeps.failed, ?_⟩, trace_finish keeps none⟩
  rcases keeps.side branch rfl with ⟨role, kept, sided⟩ | ⟨role, rfl⟩
  · rw [← FlowNode.selected_ok fun _ => role]
    exact ⟨congrArg (fun side => n.selected (.ok side)) kept, fun _ => kept ▸ sided⟩
  · exact ⟨(FlowNode.selected_of_role role _).symm, fun is => absurd is role⟩

theorem Visited.gains {next : List NodeId} (visited : log.Visited probe n depth after next) :
    log.Gains after n depth probe.stepwise next := by
  cases visited with
  | passed notes => exact notes.keeps.gains_ok
  | failed role => exact (Keeps.of_error _ n _).gains_error

end RunLog

namespace FlowHost

variable {σ : Type} {host : FlowHost σ} {probe : Probe} {start : Nat} {f : Flow}

/-! ### A visit -/

theorem execute_notes (n : FlowNode) (log : RunLog) :
    (host.execute n log).Answers fun answer => log.Notes n answer.1 answer.2 := by
  simp only [execute]
  cases role : n.role with
  | trigger => exact .pure (.fired role)
  | condition =>
    refine (Process.Answers.any _).bind fun inputs _ => ?_
    cases n.holds inputs with
    | error fault => exact .pure (.failed (by simp [role]) fault)
    | ok holds => exact .pure (.decided role holds)
  | action =>
    cases action : n.action with
    | error fault => exact .pure (.failed (by simp [role]) fault)
    | ok a =>
      refine (Process.Answers.any _).bind fun answer _ => ?_
      cases answer with
      | ok => exact .pure (.acted role action)
      | error failure => exact .pure (.failed (by simp [role]) _)
  | delay =>
    cases n.delay with
    | error fault => exact .pure (.failed (by simp [role]) fault)
    | ok delay => exact (Process.Answers.any _).bind fun _ _ => .pure (.waited role)

theorem visit_visited (n : FlowNode) (depth : Nat) (log : RunLog) :
    (host.visit probe start n depth log).Answers fun answer =>
      log.Visited probe n depth answer.2 answer.1 := by
  have attempted : (host.attempt probe start n depth log).Answers fun answer =>
      (∀ branch, answer.1 = .ok branch →
        log.Visited probe n depth answer.2 (n.following branch)) ∧
      ∀ fault, answer.1 = .error fault → log.Visited probe n depth answer.2 [] := by
    refine (Process.Answers.any _).bind fun began _ => (execute_notes n _).bind ?_
    rintro ⟨outcome, after⟩ notes
    refine (Process.Answers.any _).bind fun ended _ => .pure ⟨?_, ?_⟩
    · rintro branch rfl
      exact .passed notes
    · rintro fault rfl
      cases notes with
      | failed role => exact .failed role
  refine attempted.bind ?_
  rintro ⟨outcome, after⟩ ⟨passed, failed⟩
  cases outcome with
  | ok branch => exact .pure (passed branch rfl)
  | error fault => exact .pure (failed fault rfl)

/-! ### A walk -/

section

variable {w : Walk f} {log : RunLog} {n : FlowNode} {depth : Nat} {rest : List (FlowNode × Nat)}

theorem walk_of_nil (empty : w.stack = []) : host.walk probe start w log = pure (none, log) := by
  rw [walk]
  split
  · rfl
  · next front => cases empty.symm.trans front

theorem walk_of_cons (front : w.stack = (n, depth) :: rest) :
    host.walk probe start w log =
      if n.id ∈ w.visited then host.walk probe start (w.skip front) log
      else if depthLimit < depth then pure (some (.tooDeep depthLimit), log)
      else host.visit probe start n depth log >>= fun (next, log) =>
        host.walk probe start (w.enter front next) log := by
  rw [walk]
  split
  · next empty => cases empty.symm.trans front
  · next front' =>
    cases front'.symm.trans front
    simp only [dite_eq_ite]

end

section

variable {P : Walk f → RunLog → Prop} {Q : Option FlowFault × RunLog → Prop}
  (skipped : ∀ {w : Walk f} {log n depth rest} (front : w.stack = (n, depth) :: rest),
    P w log → n.id ∈ w.visited → P (w.skip front) log)
  (finished : ∀ {w : Walk f} {log}, P w log → w.stack = [] → Q (none, log))
  (givenUp : ∀ {w : Walk f} {log n depth rest}, P w log → w.stack = (n, depth) :: rest →
    n.id ∉ w.visited → depthLimit < depth → Q (some (.tooDeep depthLimit), log))

include skipped finished givenUp

/-- What holds at the start of a walk and is kept by each of its rounds holds at its end. -/
theorem walk_visits
    (entered : ∀ {w : Walk f} {log n depth rest next after} (front : w.stack = (n, depth) :: rest),
      P w log → n.id ∉ w.visited → depth ≤ depthLimit →
      log.Visited probe n depth after next → P (w.enter front next) after)
    (w : Walk f) (log : RunLog) (initial : P w log) :
    (host.walk probe start w log).Answers Q := by
  fun_induction FlowHost.walk host probe start w log with
  | case1 w log front => exact .pure (finished initial front)
  | case2 w log n depth rest front seen ih => exact ih (skipped front initial seen)
  | case3 w log n depth rest front fresh long => exact .pure (givenUp initial front fresh long)
  | case4 w log n depth rest front fresh short ih =>
    refine (visit_visited n depth log).bind ?_
    rintro ⟨next, after⟩ visited
    exact ih next after (entered front initial fresh (Nat.le_of_not_lt short) visited)

end

/-- What is kept whatever a round of a walk adds to the log holds at its end. -/
theorem walk_answers {P : Walk f → RunLog → Prop} {Q : Option FlowFault × RunLog → Prop}
    (skipped : ∀ {w : Walk f} {log n depth rest} (front : w.stack = (n, depth) :: rest),
      P w log → n.id ∈ w.visited → P (w.skip front) log)
    (entered : ∀ {w : Walk f} {log n depth rest next after} (front : w.stack = (n, depth) :: rest),
      P w log → n.id ∉ w.visited → depth ≤ depthLimit →
      log.Gains after n depth probe.stepwise next → P (w.enter front next) after)
    (finished : ∀ {w : Walk f} {log}, P w log → w.stack = [] → Q (none, log))
    (givenUp : ∀ {w : Walk f} {log n depth rest}, P w log → w.stack = (n, depth) :: rest →
      n.id ∉ w.visited → depthLimit < depth → Q (some (.tooDeep depthLimit), log))
    (w : Walk f) (log : RunLog) (initial : P w log) :
    (host.walk probe start w log).Answers Q :=
  walk_visits (P := P) (Q := Q) skipped finished givenUp
    (fun front kept fresh short visited => entered front kept fresh short visited.gains) w log initial

/-- A run that comes to no walk has executed nothing, and tells why. -/
theorem run_answers {Q : Option FlowFault × RunLog → Prop}
    (walked : f.report.isValid = true → ∀ start,
      (host.walk probe start (.start f) (.start f)).Answers Q) :
    (host.run probe f).Answers fun result => ∃ fault, result.error = fault.map FlowFault.message ∧
      ((f.report.isValid = true ∧ Q (fault, result.log)) ∨
        (result.log = .start f ∧
          (fault = some .disabled ∨ fault = some (.invalid f.report.errorMessages)))) := by
  have traversed (start : Nat) : (host.traverse probe start f).Answers fun answer =>
      (f.report.isValid = true ∧ Q answer) ∨ (answer.2 = .start f ∧
        (answer.1 = some .disabled ∨ answer.1 = some (.invalid f.report.errorMessages))) := by
    simp only [traverse]
    cases f.enabled with
    | false => exact .pure (.inr ⟨rfl, .inl rfl⟩)
    | true =>
      cases valid : f.report.isValid with
      | false => exact .pure (.inr ⟨rfl, .inr rfl⟩)
      | true => exact ⟨fun course => .inl ⟨rfl, (walked valid start).answer course⟩⟩
  refine (Process.Answers.any _).bind fun start _ => (traversed start).bind ?_
  rintro ⟨fault, log⟩ outcome
  refine (Process.Answers.any _).bind fun ended _ => (Process.Answers.any _).bind fun _ _ => ?_
  exact .pure ⟨fault, rfl, outcome⟩

/-- What holds of the log before a walk and after it holds of the log of a run. -/
theorem run_answers_log {Q : RunLog → Prop} (unwalked : Q (.start f))
    (walked : f.report.isValid = true → ∀ start,
      (host.walk probe start (.start f) (.start f)).Answers fun answer => Q answer.2) :
    (host.run probe f).Answers fun result => Q result.log := by
  constructor
  intro others now s result t s' course
  obtain ⟨fault, -, ⟨-, holds⟩ | ⟨untouched, -⟩⟩ := (run_answers walked).answer course
  · exact holds
  · exact untouched ▸ unwalked

end FlowHost

end Hearth

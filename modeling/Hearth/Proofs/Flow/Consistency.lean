import Hearth.Proofs.Flow.Deeds
import Hearth.Proofs.Flow.Findings
import Hearth.Proofs.Table

/-!
# Hearth.Proofs.Flow.Consistency

All that a run takes down agrees, and what it announces is what it has taken down.

## Main definitions

- `RunLog.Consistent`: the parts of a log agree on which nodes ran and which of them failed.
- `Notice.Reports`: what is announced of a result.

## Main result

`FlowHost.run_consistent`: a run that is over has a consistent log and has announced its result once.

## Proof strategy

A visit is the only thing that changes a log, and it changes all parts at once (`Consistent.visit`): a node
that has not run yet comes to the end of the nodes executed and of those timed, and either to the end of
those that failed and those with an error, or, if it is a condition, among those with a side. That other
nodes are not affected is seen part by part, since nodes that are to be told apart have different
identifiers in a flow that is walked through.
-/

namespace Hearth

namespace RunLog

/-- The parts of a log agree. -/
structure Consistent (log : RunLog) (f : Flow) : Prop where
  once : log.executed.Nodup
  known : log.executed ⊆ f.nodes.map FlowNode.id
  failed : log.failed.Sublist log.executed
  errors : log.errors.keys = log.failed
  timings : log.timings.keys = log.executed
  /-- The conditions that ran and did not fail have a side. -/
  branches : ∀ id, id ∈ log.branches.keys ↔
    id ∈ log.executed ∧ id ∉ log.failed ∧ ∃ n ∈ f.nodes, n.id = id ∧ n.role = .condition
  distinct : log.states.keys.Nodup
  /-- No node is left running, and those that have not run are pending. -/
  states : ∀ id, log.states.get? id =
    if id ∈ log.failed then some .failed
    else if id ∈ log.executed then some .succeeded
    else if id ∈ f.nodes.map FlowNode.id then some .pending
    else none

variable {f : Flow} {log after : RunLog} {probe : Probe} {n : FlowNode} {depth : Nat}
  {next : List NodeId}

theorem Consistent.start (f : Flow) : (RunLog.start f).Consistent f where
  once := List.nodup_nil
  known := List.nil_subset _
  failed := .slnil
  errors := rfl
  timings := rfl
  branches id := by simp [RunLog.start, Table.keys, Table.empty]
  distinct := Table.nodup_keys_ofList _
  states := Table.get?_ofList_map f.nodes FlowNode.id NodeStatus.pending

theorem Consistent.unfailed (consistent : log.Consistent f) (fresh : n.id ∉ log.executed) :
    n.id ∉ log.failed :=
  fun failed => fresh (consistent.failed.subset failed)

/-- A condition that has just passed has got its side, and another node has none. -/
theorem Consistent.branches_passed (consistent : log.Consistent f)
    (distinct : (f.nodes.map FlowNode.id).Nodup) (member : n ∈ f.nodes) (fresh : n.id ∉ log.executed)
    {branches : Table NodeId Bool}
    (sides : (n.role = .condition ∧ ∃ holds, branches = log.branches.insert n.id holds) ∨
      (n.role ≠ .condition ∧ branches = log.branches)) (id : NodeId) :
    id ∈ branches.keys ↔ id ∈ log.executed ++ [n.id] ∧ id ∉ log.failed ∧
      ∃ m ∈ f.nodes, m.id = id ∧ m.role = .condition := by
  have elsewhere (other : id ≠ n.id) : id ∈ log.branches.keys ↔ id ∈ log.executed ++ [n.id] ∧
      id ∉ log.failed ∧ ∃ m ∈ f.nodes, m.id = id ∧ m.role = .condition := by
    simpa [other] using consistent.branches id
  rcases sides with ⟨role, holds, rfl⟩ | ⟨role, rfl⟩
  · rw [Table.mem_keys_insert]
    by_cases here : id = n.id
    · subst here
      exact ⟨fun _ => ⟨by simp, consistent.unfailed fresh, n, member, rfl, role⟩, fun _ => .inl rfl⟩
    · simpa [here] using elsewhere here
  · by_cases here : id = n.id
    · subst here
      refine ⟨fun sided => absurd ((consistent.branches n.id).1 sided).1 fresh, ?_⟩
      rintro ⟨-, -, m, inside, same, condition⟩
      exact absurd (List.inj_on_of_nodup_map distinct inside member same ▸ condition) role
    · exact elsewhere here

/-- A node that has not run before joins the log, and the parts still agree. -/
theorem Consistent.visit (consistent : log.Consistent f) (distinct : (f.nodes.map FlowNode.id).Nodup)
    (member : n ∈ f.nodes) (fresh : n.id ∉ log.executed)
    (visited : log.Visited probe n depth after next) : after.Consistent f := by
  have unfailed := consistent.unfailed fresh
  have once : (log.executed ++ [n.id]).Nodup := by
    rw [← List.concat_eq_append]
    exact consistent.once.concat fresh
  have known : log.executed ++ [n.id] ⊆ f.nodes.map FlowNode.id :=
    List.append_subset.2 ⟨consistent.known,
      List.cons_subset.2 ⟨List.mem_map_of_mem member, List.nil_subset _⟩⟩
  have timings (duration : Nat) :
      (log.timings.insert n.id duration).keys = log.executed ++ [n.id] := by
    rw [Table.keys_insert, consistent.timings, if_neg fresh]
  -- The node was set running before it got the status that it ends with.
  have unique (status : NodeStatus) :
      ((log.states.insert n.id .running).insert n.id status).keys.Nodup :=
    Table.nodup_keys_insert (Table.nodup_keys_insert consistent.distinct _ _) _ _
  have states (status : NodeStatus) (id : NodeId) :
      ((log.states.insert n.id .running).insert n.id status).get? id =
        if id = n.id then some status else log.states.get? id := by
    simp only [Table.get?_insert]
    split <;> rfl
  cases visited with
  | passed notes =>
    obtain ⟨memory, branches, rfl, sides⟩ := notes.eq_of_ok
    refine ⟨once, known, consistent.failed.trans (List.sublist_append_left ..), consistent.errors,
      timings _, consistent.branches_passed distinct member fresh sides, unique .succeeded,
      fun id => (states .succeeded id).trans ?_⟩
    show _ = if id ∈ log.failed then some NodeStatus.failed
      else if id ∈ log.executed ++ [n.id] then some NodeStatus.succeeded else _
    by_cases here : id = n.id
    · simp [here, unfailed]
    · simpa [here] using consistent.states id
  | failed role =>
    -- A condition that fails has got no side, and had none before.
    refine ⟨once, known, consistent.failed.append (.refl _), ?_, timings _, fun id => ?_, unique .failed,
      fun id => (states .failed id).trans ?_⟩
    · show (log.errors.insert n.id _).keys = log.failed ++ [n.id]
      rw [Table.keys_insert, consistent.errors, if_neg unfailed]
    · show id ∈ log.branches.keys ↔ id ∈ log.executed ++ [n.id] ∧ id ∉ log.failed ++ [n.id] ∧ _
      by_cases here : id = n.id
      · simpa [here] using fun sided => absurd ((consistent.branches n.id).1 sided).1 fresh
      · simpa [here] using consistent.branches id
    · show _ = if id ∈ log.failed ++ [n.id] then some NodeStatus.failed
        else if id ∈ log.executed ++ [n.id] then some NodeStatus.succeeded else _
      by_cases here : id = n.id
      · simp [here]
      · simpa [here] using consistent.states id

end RunLog

/-- What is announced of a result: whether it is a success, the nodes that ran and those that failed,
and why the run was given up, if it was. -/
structure Notice.Reports (notice : Notice) (f : Flow) (result : FlowResult) : Prop where
  completed : notice.kind = .flowCompleted ↔ result.succeeded = true
  failed : notice.kind = .flowFailed ↔ result.succeeded = false
  subject : notice.subject = some f.id.text
  executed : notice.data.entry "executed_nodes" = .list (result.log.executed.map NodeId.toData)
  failedNodes : notice.data.entry "failed_nodes" = .list (result.log.failed.map NodeId.toData)
  error : notice.data.entry "error" = (result.error.map Data.text).getD .null

namespace FlowHost

variable {σ : Type} {host : FlowHost σ} {probe : Probe} {f : Flow}

theorem reports_notice (f : Flow) (result : FlowResult) : (notice f result).Reports f result where
  completed := by cases succeeded : result.succeeded <;> simp [notice, Notice.about, succeeded]
  failed := by cases succeeded : result.succeeded <;> simp [notice, Notice.about, succeeded]
  subject := rfl
  executed := rfl
  failedNodes := rfl
  error := rfl

theorem walk_consistent (distinct : (f.nodes.map FlowNode.id).Nodup) (start : Nat) :
    (host.walk probe start (.start f) (.start f)).Answers fun answer => answer.2.Consistent f := by
  refine walk_visits (P := fun w log => w.Logged log ∧ log.Consistent f) ?_ ?_ ?_ ?_ _ _
    ⟨⟨rfl, List.nodup_nil⟩, .start f⟩
  · exact fun front ⟨logged, consistent⟩ _ => ⟨⟨logged.executed, logged.once⟩, consistent⟩
  · exact fun ⟨_, consistent⟩ _ => consistent
  · exact fun ⟨_, consistent⟩ _ _ _ => consistent
  · intro w log n depth rest next after front ⟨logged, consistent⟩ unseen short visited
    exact ⟨logged.enter front unseen next visited.gains.executed,
      consistent.visit distinct (w.mem_of_front front) (logged.not_mem_executed unseen) visited⟩

/-- A flow that may not run is not walked through. -/
theorem traverse_refused (refused : f.enabled = false ∨ f.report.isValid = false)
    (host : FlowHost σ) (probe : Probe) (start : Nat) :
    ∃ fault, host.traverse probe start f = pure (some fault, .start f) := by
  unfold traverse
  cases enabled : f.enabled with
  | false => exact ⟨.disabled, rfl⟩
  | true =>
    have invalid : f.report.isValid = false := refused.resolve_left (by simp [enabled])
    exact ⟨.invalid f.report.errorMessages, by simp [invalid]⟩

/-- Whatever a run comes upon, what it takes down agrees; the run succeeds if it was not given up and no node
failed; and it is announced once, after everything else that it does. A flow that may not run has nothing
executed and no actions carried out. All of this holds of the courses of a run: those with a record are
those without. -/
theorem run_consistent (host : FlowHost σ) (probe : Probe) (f : Flow) (others : σ → σ → Prop)
    (deeds : List Deed) :
    (host.recorded.run probe f).Records others (host.run probe f) deeds ∧
    ∀ (now t : Nat) (s s' : σ) (deeds' : List Deed) (result : FlowResult),
      (host.recorded.run probe f).Reaches (Process.OffRecord others) now (s, deeds) (.done result) t
        (s', deeds') →
      result.log.Consistent f ∧
      (result.succeeded = true ↔ result.error = none ∧ result.log.failed = []) ∧
      ∃ (acts : List (Nat × List Action)) (notice : Notice),
        deeds' = deeds ++ (acts.map fun a => .acted a.1 a.2) ++ [.announced t notice] ∧
        notice.Reports f result ∧
        (f.enabled = false ∨ f.report.isValid = false → result.log.executed = [] ∧ acts = []) := by
  refine ⟨(follows_run host probe f).records others deeds, ?_⟩
  intro now t s s' deeds' result course
  have consistent := (run_answers_log (Q := fun log => log.Consistent f) (.start f) fun valid =>
    walk_consistent (Flow.isValid_iff.1 valid).2.1).answer course
  obtain ⟨fault, log, ⟨s₁, deeds₁⟩, walked, rfl, ended⟩ := reaches_run course
  obtain ⟨rfl, rfl⟩ := Prod.mk.inj ended
  obtain ⟨acts, rfl⟩ := traverse_deeds walked
  refine ⟨consistent, by simp [FlowResult.succeeded], acts, _, rfl, reports_notice f _, fun refused => ?_⟩
  -- A walk that does not begin takes no time and leaves no record.
  obtain ⟨fault', same⟩ := traverse_refused refused host.recorded probe now
  rw [same] at walked
  obtain ⟨answered, -, still⟩ := walked.of_pure
  refine ⟨congrArg (fun answer => answer.2.executed) answered, ?_⟩
  simpa using congrArg Prod.snd still

theorem run_consistent_ringFlow : ∃ result t deeds,
    (emptyHost.recorded.run .none ringFlow).Reaches (Process.OffRecord Eq) 0 ((), []) (.done result) t
      ((), deeds) ∧
    result.log.Consistent ringFlow ∧
    (result.succeeded = true ↔ result.error = none ∧ result.log.failed = []) ∧
    ∃ (acts : List (Nat × List Action)) (notice : Notice),
      deeds = [] ++ (acts.map fun a => .acted a.1 a.2) ++ [.announced t notice] ∧
      notice.Reports ringFlow result ∧
      (ringFlow.enabled = false ∨ ringFlow.report.isValid = false →
        result.log.executed = [] ∧ acts = []) := by
  obtain ⟨result, t, deeds, course⟩ := exists_course_recorded_emptyHost .none ringFlow
  exact ⟨result, t, deeds, course,
    (run_consistent emptyHost .none ringFlow Eq []).2 0 t () () deeds result course⟩

end FlowHost

end Hearth

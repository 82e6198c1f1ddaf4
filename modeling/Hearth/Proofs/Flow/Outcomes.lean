import Mathlib
import Hearth.Proofs.Flow.Findings
import Hearth.Proofs.Flow.Visits

/-!
# Hearth.Proofs.Flow.Outcomes

A run executes what its own outcomes select, all of it and nothing else.

## Main definitions

- `RunLog.Selects`: a node that ran and did not fail has selected another one.
- `RunLog.Closed`: a set that holds the roots, and with a node whatever it has selected.

## Main result

`run_isLeast`: the nodes that a run executes that is not given up are the least closed set.

## Proof strategy

A walk knows the nodes that it has visited and those that are on its stack. It knows the roots and
whatever the visited nodes have selected. It knows nothing else: a closed set holds all that it knows. In
the end the stack is empty.

What a node has selected is read off the log. Later visits are of other nodes and leave it alone, so a set
that is closed by the later log is closed by the earlier one.
-/

namespace Hearth

open Relation

namespace RunLog

variable {f : Flow} {log after : RunLog} {n : FlowNode} {depth : Nat} {stepwise : Bool}
  {next : List NodeId}

/-- A node that ran and did not fail has selected a node of the flow: by any connection, or by the one for
the side on which a condition came out. -/
def Selects (log : RunLog) (f : Flow) (source target : NodeId) : Prop :=
  source ∈ log.executed ∧ source ∉ log.failed ∧
    (∃ n ∈ f.nodes, n.id = source ∧ target ∈ n.selected (.ok (log.branches.get? source))) ∧
    ∃ n ∈ f.nodes, n.id = target

structure Closed (log : RunLog) (f : Flow) (S : Set NodeId) : Prop where
  roots : ∀ n ∈ f.roots, n.id ∈ S
  onward : ∀ {source target}, source ∈ S → log.Selects f source target → target ∈ S

/-- The conditions that ran and did not fail have come out on a side. -/
def Sided (log : RunLog) (f : Flow) : Prop :=
  ∀ n ∈ f.nodes, n.role = .condition → n.id ∈ log.executed → n.id ∉ log.failed →
    log.branches.get? n.id ≠ none

theorem Gains.sided (gains : log.Gains after n depth stepwise next)
    (distinct : (f.nodes.map FlowNode.id).Nodup) (member : n ∈ f.nodes)
    (sided : log.Sided f) : after.Sided f := by
  intro m inside role ran unfailed
  by_cases current : m.id = n.id
  · rw [List.inj_on_of_nodup_map distinct inside member current] at role unfailed ⊢
    rcases gains.outcome with ⟨failed, -⟩ | ⟨-, -, sided⟩
    · simp [failed] at unfailed
    · exact sided role
  · rw [gains.elsewhere _ current]
    refine sided m inside role ((gains.mem_executed_iff current).1 ran) fun failed => ?_
    exact unfailed ((gains.mem_failed_iff current).2 failed)

/-- A visit leaves alone what other nodes have selected. -/
theorem Gains.selects_iff (gains : log.Gains after n depth stepwise next) {source target : NodeId}
    (other : source ≠ n.id) : after.Selects f source target ↔ log.Selects f source target := by
  rw [Selects, Selects, gains.mem_executed_iff other, gains.mem_failed_iff other,
    gains.elsewhere source other]

theorem Gains.closed_before (gains : log.Gains after n depth stepwise next)
    (fresh : n.id ∉ log.executed) {S : Set NodeId} (closed : after.Closed f S) : log.Closed f S where
  roots := closed.roots
  onward := by
    intro source target inside selects
    have other : source ≠ n.id := fun same => fresh (same ▸ selects.1)
    exact closed.onward inside ((gains.selects_iff other).2 selects)

/-- What a node selects by its visit is what the visit goes on to, as far as the flow has such nodes. -/
theorem Gains.selects_self (gains : log.Gains after n depth stepwise next)
    (distinct : (f.nodes.map FlowNode.id).Nodup) (member : n ∈ f.nodes) (unfailed : n.id ∉ log.failed)
    {target : NodeId} :
    after.Selects f n.id target ↔ target ∈ next ∧ ∃ m ∈ f.nodes, m.id = target := by
  have only {m : FlowNode} (inside : m ∈ f.nodes) (same : m.id = n.id) : m = n :=
    List.inj_on_of_nodup_map distinct inside member same
  rcases gains.outcome with ⟨failed, rfl⟩ | ⟨same, rfl, -⟩
  · simp [Selects, failed]
  · constructor
    · rintro ⟨-, -, ⟨m, inside, named, selected⟩, known⟩
      exact ⟨only inside named ▸ selected, known⟩
    · rintro ⟨selected, known⟩
      exact ⟨by simp [gains.executed], same ▸ unfailed, ⟨n, member, rfl, selected⟩, known⟩

end RunLog

theorem Flow.known_iff {f : Flow} {id : NodeId} :
    (∃ m ∈ f.nodes, m.id = id) ↔ ∃ m, f.node? id = some m ∧ m.id = id := by
  constructor
  · rintro ⟨m, member, same⟩
    have found : (f.node? id).isSome = true := by
      rw [Flow.node?, List.find?_isSome]
      exact ⟨m, member, by simpa using same⟩
    obtain ⟨m', known⟩ := Option.isSome_iff_exists.1 found
    exact ⟨m', known, by simpa using List.find?_some known⟩
  · rintro ⟨m, known, same⟩
    exact ⟨m, List.mem_of_find?_eq_some known, same⟩

namespace Walk

variable {f : Flow} {w : Walk f} {log after : RunLog} {n : FlowNode} {depth : Nat}
  {rest : List (FlowNode × Nat)} {next : List NodeId}

/-- The nodes that have run and those that are to come. -/
def Knows (w : Walk f) (id : NodeId) : Prop := id ∈ w.visited ∨ ∃ entry ∈ w.stack, entry.1.id = id

theorem knows_skip (front : w.stack = (n, depth) :: rest) (seen : n.id ∈ w.visited) (id : NodeId) :
    (w.skip front).Knows id ↔ w.Knows id := by
  simp only [Knows, skip, front, List.exists_mem_cons_iff]
  constructor
  · exact Or.imp_right .inr
  · rintro (visited | rfl | later)
    · exact .inl visited
    · exact .inl seen
    · exact .inr later

theorem knows_enter (front : w.stack = (n, depth) :: rest) (id : NodeId) :
    (w.enter front next).Knows id ↔ w.Knows id ∨ (id ∈ next ∧ ∃ m ∈ f.nodes, m.id = id) := by
  have child : (∃ entry ∈ (next.filterMap f.node?).map fun child => (child, depth + 1),
      entry.1.id = id) ↔ id ∈ next ∧ ∃ m ∈ f.nodes, m.id = id := by
    rw [Flow.known_iff]
    simp only [List.mem_map, exists_exists_and_eq_and, List.mem_filterMap]
    constructor
    · rintro ⟨m, ⟨id', chosen, known⟩, rfl⟩
      have same : m.id = id' := by simpa using List.find?_some known
      exact ⟨same ▸ chosen, m, same ▸ known, rfl⟩
    · rintro ⟨chosen, m, known, same⟩
      exact ⟨m, ⟨id, chosen, known⟩, same⟩
  simp only [Knows, enter, front, List.mem_append, List.mem_cons, or_and_right, exists_or, child,
    exists_eq_left]
  constructor
  · rintro ((rfl | visited) | new | later)
    · exact .inl (.inr (.inl rfl))
    · exact .inl (.inl visited)
    · exact .inr new
    · exact .inl (.inr (.inr later))
  · rintro ((visited | rfl | later) | new)
    · exact .inl (.inr visited)
    · exact .inl (.inl rfl)
    · exact .inr (.inr later)
    · exact .inr (.inl new)

/-- What a walk knows are the roots and what visited nodes have selected, and nothing else. -/
structure Tracks (w : Walk f) (log : RunLog) : Prop where
  logged : w.Logged log
  failed : log.failed ⊆ log.executed
  roots : ∀ n ∈ f.roots, w.Knows n.id
  onward : ∀ {source target}, log.Selects f source target → w.Knows target
  least : ∀ {S : Set NodeId}, log.Closed f S → ∀ id, w.Knows id → id ∈ S
  sided : log.Sided f

namespace Tracks

theorem start (f : Flow) : (Walk.start f).Tracks (.start f) where
  logged := ⟨rfl, List.nodup_nil⟩
  failed := List.nil_subset _
  roots n isRoot := .inr ⟨(n, 1), List.mem_map_of_mem isRoot, rfl⟩
  onward selects := absurd selects.1 List.not_mem_nil
  least := by
    rintro S closed id (visited | ⟨entry, onStack, rfl⟩)
    · exact absurd visited List.not_mem_nil
    · obtain ⟨root, isRoot, rfl⟩ := List.mem_map.1 onStack
      exact closed.roots root isRoot
  sided _ _ _ ran := absurd ran List.not_mem_nil

theorem skip (tracks : w.Tracks log) (front : w.stack = (n, depth) :: rest)
    (seen : n.id ∈ w.visited) : (w.skip front).Tracks log where
  logged := ⟨tracks.logged.executed, tracks.logged.once⟩
  failed := tracks.failed
  roots m isRoot := (knows_skip front seen _).2 (tracks.roots m isRoot)
  onward selects := (knows_skip front seen _).2 (tracks.onward selects)
  least closed id known := tracks.least closed id ((knows_skip front seen id).1 known)
  sided := tracks.sided

theorem enter {stepwise : Bool} (tracks : w.Tracks log)
    (distinct : (f.nodes.map FlowNode.id).Nodup) (front : w.stack = (n, depth) :: rest)
    (fresh : n.id ∉ w.visited) (gains : log.Gains after n depth stepwise next) :
    (w.enter front next).Tracks after := by
  have member : n ∈ f.nodes := w.mem_of_front front
  have first : w.Knows n.id := .inr ⟨(n, depth), front ▸ List.mem_cons_self, rfl⟩
  have unexecuted : n.id ∉ log.executed := tracks.logged.not_mem_executed fresh
  have selected (target : NodeId) :
      after.Selects f n.id target ↔ target ∈ next ∧ ∃ m ∈ f.nodes, m.id = target :=
    gains.selects_self distinct member fun failed => unexecuted (tracks.failed failed)
  have kept (id : NodeId) (known : w.Knows id) : (w.enter front next).Knows id :=
    (knows_enter front id).2 (.inl known)
  refine ⟨tracks.logged.enter front fresh next gains.executed, gains.failed_subset tracks.failed,
    fun m isRoot => kept m.id (tracks.roots m isRoot), ?_, ?_, gains.sided distinct member tracks.sided⟩
  · -- The node that has just run selects what was put on the stack, the others what they did before.
    intro source target selects
    by_cases current : source = n.id
    · subst current
      exact (knows_enter front target).2 (.inr ((selected target).1 selects))
    · exact kept target (tracks.onward ((gains.selects_iff current).1 selects))
  · -- A set that is closed by the later log holds the node itself, since the earlier log will do for that.
    intro S closed id known
    have before := tracks.least (gains.closed_before unexecuted closed)
    rcases (knows_enter front id).1 known with earlier | new
    · exact before id earlier
    · exact closed.onward (before n.id first) ((selected id).2 new)

/-- When a walk is over, what it knows has been executed. -/
theorem knows_iff (tracks : w.Tracks log) (empty : w.stack = []) (id : NodeId) :
    w.Knows id ↔ id ∈ log.executed := by
  simp [Knows, empty, tracks.logged.executed]

theorem isLeast (tracks : w.Tracks log) (empty : w.stack = []) :
    IsLeast {S : Set NodeId | log.Closed f S} {id | id ∈ log.executed} := by
  have known := tracks.knows_iff empty
  refine ⟨⟨fun n isRoot => (known n.id).1 (tracks.roots n isRoot), ?_⟩, ?_⟩
  · exact fun _ selects => (known _).1 (tracks.onward selects)
  · exact fun S closed id executed => tracks.least closed id ((known id).2 executed)

end Tracks

end Walk

/-- What is in the least closed set can be reached from a root along what was selected. -/
theorem RunLog.mem_iff_of_isLeast {f : Flow} {log : RunLog} {S : Set NodeId}
    (least : IsLeast {S : Set NodeId | log.Closed f S} S) (id : NodeId) :
    id ∈ S ↔ ∃ root ∈ f.roots, ReflTransGen (log.Selects f) root.id id := by
  constructor
  · intro inside
    have closed : log.Closed f {id | ∃ root ∈ f.roots, ReflTransGen (log.Selects f) root.id id} := by
      refine ⟨fun n isRoot => ⟨n, isRoot, .refl⟩, ?_⟩
      rintro source target ⟨root, isRoot, path⟩ selects
      exact ⟨root, isRoot, path.tail selects⟩
    exact least.2 closed inside
  · rintro ⟨root, isRoot, path⟩
    induction path with
    | refl => exact least.1.roots root isRoot
    | tail _ selects ih => exact least.1.onward ih selects

namespace FlowHost

variable {σ : Type} {host : FlowHost σ} {probe : Probe} {f : Flow}

theorem walk_tracks (distinct : (f.nodes.map FlowNode.id).Nodup) (start : Nat) :
    (host.walk probe start (.start f) (.start f)).Answers fun answer =>
      answer.1 = none → ∃ w : Walk f, w.Tracks answer.2 ∧ w.stack = [] := by
  refine walk_answers (P := Walk.Tracks) ?_ ?_ ?_ ?_ _ _ (.start f)
  · exact fun front tracks seen => tracks.skip front seen
  · exact fun front tracks fresh _ gains => tracks.enter distinct front fresh gains
  · exact fun tracks empty _ => ⟨_, tracks, empty⟩
  · exact fun _ _ _ _ gone => nomatch gone

/-- A run that is not given up executes the least set of nodes that holds every root and, with each node
that was executed and did not fail, those nodes of the flow that it selected. So a node is executed if and
only if a path of selections leads to it from a root, whatever else leads to it from nodes that failed. -/
theorem run_isLeast {others : σ → σ → Prop} {now t : Nat} {s s' : σ} {result : FlowResult}
    (course : (host.run probe f).Reaches others now s (.done result) t s')
    (completed : result.error = none) :
    IsLeast {S : Set NodeId | result.log.Closed f S} {id | id ∈ result.log.executed} ∧
    (∀ id, id ∈ result.log.executed ↔
      ∃ root ∈ f.roots, ReflTransGen (result.log.Selects f) root.id id) ∧
    ∀ n ∈ f.nodes, n.role = .condition → n.id ∈ result.log.executed → n.id ∉ result.log.failed →
      result.log.branches.get? n.id ≠ none := by
  obtain ⟨w, tracks, empty⟩ : ∃ w : Walk f, w.Tracks result.log ∧ w.stack = [] := by
    obtain ⟨fault, error, outcome⟩ := (run_answers fun valid =>
      walk_tracks (Flow.isValid_iff.1 valid).2.1).answer course
    have unfailed : fault = none := Option.map_eq_none_iff.1 (error.symm.trans completed)
    -- A run that comes to no walk is given up.
    rcases outcome with ⟨-, walked⟩ | ⟨-, refused | refused⟩
    · exact walked unfailed
    · exact nomatch refused.symm.trans unfailed
    · exact nomatch refused.symm.trans unfailed
  have least := tracks.isLeast empty
  exact ⟨least, RunLog.mem_iff_of_isLeast least, tracks.sided⟩

/-- A condition with a lamp on the one side, which leads back to it, and a heater on the other. -/
def eveningFlow : Flow :=
  { id := ⟨.nil⟩, name := "evening", enabled := true
    nodes :=
      [⟨⟨"start"⟩, .trigger, "manual", [], [⟨"late"⟩]⟩,
        ⟨⟨"late"⟩, .condition, "presence", [], [⟨"lamp"⟩, ⟨"heater"⟩]⟩,
        ⟨⟨"lamp"⟩, .action, "light", [("action", .text "on"), ("device_id", .text "lamp")],
          [⟨"late"⟩]⟩,
        ⟨⟨"heater"⟩, .action, "switch", [("action", .text "on"), ("device_id", .text "heater")],
          []⟩] }

/-- Surroundings in which someone is at home. -/
def homeHost : FlowHost Unit := { emptyHost with
  inputs _ s := (⟨fun _ => none, fun _ => some true, 0⟩, s) }

theorem run_isLeast_eveningFlow :
    ∃ result, (homeHost.run .none eveningFlow).Reaches Eq 0 () (.done result) 0 () ∧
      result.error = none ∧
      IsLeast {S : Set NodeId | result.log.Closed eveningFlow S} {id | id ∈ result.log.executed} ∧
      ∀ id, id ∈ [⟨"start"⟩, ⟨"late"⟩, ⟨"lamp"⟩] ↔
        ∃ root ∈ eveningFlow.roots, ReflTransGen (result.log.Selects eveningFlow) root.id id := by
  have ran : ((homeHost.run .none eveningFlow).poll 0 ()).left.answer?.map
      (Except.map fun result => (result.error, result.log.executed)) =
        some (.ok (none, [⟨"start"⟩, ⟨"late"⟩, ⟨"lamp"⟩])) := by cbv
  cases ended : ((homeHost.run .none eveningFlow).poll 0 ()).left with
  | done result =>
    rw [ended] at ran
    have course : (homeHost.run .none eveningFlow).Reaches Eq 0 () (.done result) 0 () :=
      ended ▸ .first
    obtain ⟨completed, executed⟩ : result.error = none ∧
        result.log.executed = [⟨"start"⟩, ⟨"late"⟩, ⟨"lamp"⟩] := by
      simpa [Process.answer?, Except.map] using ran
    obtain ⟨least, paths, -⟩ := run_isLeast course completed
    exact ⟨result, course, completed, least, executed ▸ paths⟩
  | crash cause =>
    rw [ended] at ran
    cases ran
  | _ =>
    rw [ended] at ran
    cases ran

end FlowHost

end Hearth

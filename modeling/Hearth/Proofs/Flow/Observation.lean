import Hearth.Proofs.Flow.Deeds
import Hearth.Proofs.Flow.Outcomes

/-!
# Hearth.Proofs.Flow.Observation

A probe takes down what a run does and has no influence on it.

## Main definitions

- `RunLog.plain` and `FlowResult.plain`: what is left without that which a probe has taken down.
- `RunLog.Observed`: all that a probe takes down of a run.

## Main results

- `FlowHost.plain_run`: a run with a probe, whose result is stripped of what the probe took down, is the
  run without one.
- `FlowHost.run_observed`: two runs with whatever probes take the same courses, do the same deeds at the same
  times and have the same results; and all that a probe takes down of a run is told.

## Proof strategy

To strip a log before a step or after it is the same, so a run with a probe is turned into the one without,
step by step. What is taken down is told by an invariant of the walk: each node that has run has its entries,
at a depth at which it was waiting on the stack, and whatever waits there is a root or was selected by a node
that has run, one step less deep.
-/

namespace Hearth

/-- A log without what a probe has had taken down. -/
def RunLog.plain (log : RunLog) : RunLog := { log with breakpoints := [], trace := [] }

def FlowResult.plain (result : FlowResult) : FlowResult := { result with log := result.log.plain }

theorem RunLog.plain_begin (log : RunLog) (probe : Probe) (elapsed : Nat) (n : FlowNode) (depth : Nat) :
    (log.begin probe elapsed n depth).plain = log.plain.begin .none elapsed n depth := rfl

theorem RunLog.plain_finish (log : RunLog) (probe : Probe) (elapsed duration : Nat) (n : FlowNode)
    (depth : Nat) (fault : Option FlowFault) :
    (log.finish probe elapsed duration n depth fault).plain =
      log.plain.finish .none elapsed duration n depth fault := by
  cases fault <;> rfl

namespace FlowHost

variable {σ : Type} {host : FlowHost σ} {f : Flow}

/-! ### Without a probe -/

/-- Strips the log that comes with an answer. -/
def strip {α : Type} (answer : α × RunLog) : α × RunLog := (answer.1, answer.2.plain)

theorem plain_execute (n : FlowNode) (log : RunLog) :
    strip <$> host.execute n log = host.execute n log.plain := by
  simp only [execute]
  cases n.role with
  | trigger => rfl
  | condition =>
    rw [map_bind]
    refine bind_congr fun inputs => ?_
    cases n.holds inputs with
    | ok holds => rfl
    | error fault => rfl
  | action =>
    cases n.action with
    | error fault => rfl
    | ok a =>
      rw [map_bind]
      refine bind_congr fun answer => ?_
      cases answer with
      | ok => rfl
      | error failure => rfl
  | delay =>
    cases n.delay with
    | error fault => rfl
    | ok delay =>
      rw [map_bind]
      rfl

theorem plain_attempt (probe : Probe) (start : Nat) (n : FlowNode) (depth : Nat) (log : RunLog) :
    strip <$> host.attempt probe start n depth log = host.attempt .none start n depth log.plain := by
  unfold attempt
  rw [map_bind]
  refine bind_congr fun began => ?_
  rw [map_bind, ← RunLog.plain_begin, ← plain_execute, bind_map_left]
  refine bind_congr fun (outcome, after) => ?_
  rw [map_bind]
  refine bind_congr fun ended => ?_
  rw [map_pure]
  exact congrArg pure (Prod.ext rfl (RunLog.plain_finish ..))

theorem plain_visit (probe : Probe) (start : Nat) (n : FlowNode) (depth : Nat) (log : RunLog) :
    strip <$> host.visit probe start n depth log = host.visit .none start n depth log.plain := by
  unfold visit
  rw [map_bind, ← plain_attempt probe, bind_map_left]
  refine bind_congr fun (outcome, after) => ?_
  cases outcome with
  | ok branch => rfl
  | error fault => rfl

theorem plain_walk (probe : Probe) (start : Nat) (w : Walk f) (log : RunLog) :
    strip <$> host.walk probe start w log = host.walk .none start w log.plain := by
  fun_induction FlowHost.walk host probe start w log with
  | case1 w log front =>
    rw [walk_of_nil front]
    rfl
  | case2 w log n depth rest front seen ih => rw [ih, walk_of_cons front, if_pos seen]
  | case3 w log n depth rest front fresh long =>
    rw [walk_of_cons front, if_neg fresh, if_pos long]
    rfl
  | case4 w log n depth rest front fresh short ih =>
    rw [walk_of_cons front, if_neg fresh, if_neg short, map_bind, ← plain_visit probe, bind_map_left]
    exact bind_congr fun answer => ih answer.1 answer.2

theorem plain_traverse (probe : Probe) (start : Nat) (f : Flow) :
    strip <$> host.traverse probe start f = host.traverse .none start f := by
  simp only [traverse]
  split
  · rfl
  · split
    · rfl
    · exact plain_walk probe start _ _

/-- A run whose result is stripped of what the probe took down is the run without a probe. -/
theorem plain_run (host : FlowHost σ) (probe : Probe) (f : Flow) :
    FlowResult.plain <$> host.run probe f = host.run .none f := by
  unfold run
  rw [map_bind]
  refine bind_congr fun start => ?_
  rw [map_bind, ← plain_traverse probe, bind_map_left]
  refine bind_congr fun answer => ?_
  rw [map_bind]
  refine bind_congr fun ended => ?_
  -- What is announced does not tell of the probe.
  dsimp only
  rw [map_bind]
  rfl

end FlowHost

/-! ### What a probe takes down -/

/-- A node that has run: how deep in the walk, and when, in milliseconds since the run began. -/
structure Step where
  node : NodeId
  depth : Nat
  began : Nat
  ended : Nat

namespace RunLog

variable {f : Flow} {log after : RunLog} {probe : Probe} {n : FlowNode} {depth : Nat}
  {next : List NodeId} {steps : List Step}

/-- What is taken down of a node that has run: that it ran, and how it went. -/
def entries (log : RunLog) (step : Step) : List TraceEntry :=
  [⟨step.node, .running, step.depth, step.began⟩,
    ⟨step.node, if step.node ∈ log.failed then .failed else .succeeded, step.depth, step.ended⟩]

/-- How deep a node is after some steps. The roots are first, and any other node is one deeper than an
earlier one that has selected it. -/
structure Placed (log : RunLog) (f : Flow) (steps : List Step) (id : NodeId) (depth : Nat) : Prop where
  root : id ∈ f.roots.map FlowNode.id → depth = 1
  selected : id ∉ f.roots.map FlowNode.id →
    ∃ step ∈ steps, log.Selects f step.node id ∧ depth = step.depth + 1

/-- All that a probe takes down of a run. -/
structure Observed (log : RunLog) (f : Flow) (probe : Probe) (steps : List Step) : Prop where
  order : steps.map Step.node = log.executed
  breakpoints : log.breakpoints = log.executed.filter probe.breakpoints.contains
  trace : log.trace = if probe.stepwise then steps.flatMap log.entries else []
  depths : ∀ earlier step later, steps = earlier ++ step :: later →
    log.Placed f earlier step.node step.depth

/-- No connection leads to a root, so no node selects one. -/
theorem Selects.not_root {source target : NodeId} (selects : log.Selects f source target) :
    target ∉ f.roots.map FlowNode.id := by
  intro named
  obtain ⟨root, isRoot, rfl⟩ := List.mem_map.1 named
  obtain ⟨-, -, ⟨n, member, -, chosen⟩, -⟩ := selects
  have unled : f.incoming root.id = 0 := by
    have kept := (List.mem_filter.1 isRoot).2
    simp only [Bool.and_eq_true, beq_iff_eq] at kept
    exact kept.2
  refine List.count_eq_zero.1 unled (List.mem_flatMap.2 ⟨n, member, ?_⟩)
  exact FlowNode.mem_connections_of_mem_selected chosen

theorem Placed.more {id : NodeId} (placed : log.Placed f steps id depth) (step : Step) :
    log.Placed f (steps ++ [step]) id depth where
  root := placed.root
  selected other := by
    obtain ⟨earlier, member, parent⟩ := placed.selected other
    exact ⟨earlier, List.mem_append_left _ member, parent⟩

/-- What other nodes have selected is not changed by a visit, and so they remain in their places. -/
theorem Placed.visit {id : NodeId} {place : Nat} {stepwise : Bool}
    (placed : log.Placed f steps id place) (gains : log.Gains after n depth stepwise next)
    (fresh : n.id ∉ log.executed) : after.Placed f steps id place where
  root := placed.root
  selected other := by
    obtain ⟨step, member, selects, deeper⟩ := placed.selected other
    have elsewhere : step.node ≠ n.id := fun same => fresh (same ▸ selects.1)
    exact ⟨step, member, (gains.selects_iff elsewhere).2 selects, deeper⟩

theorem Visited.breakpoints (visited : log.Visited probe n depth after next) :
    after.breakpoints =
      log.breakpoints ++ if probe.breakpoints.contains n.id then [n.id] else [] := by
  have hit : (if probe.breakpoints.contains n.id then log.breakpoints ++ [n.id] else log.breakpoints) =
      log.breakpoints ++ if probe.breakpoints.contains n.id then [n.id] else [] := by
    split
    · rfl
    · exact (List.append_nil _).symm
  cases visited with
  | passed notes =>
    obtain ⟨memory, branches, rfl, -⟩ := notes.eq_of_ok
    exact hit
  | failed role => exact hit

theorem Visited.trace (visited : log.Visited probe n depth after next) (unfailed : n.id ∉ log.failed) :
    ∃ began ended, after.trace =
      log.trace ++ if probe.stepwise then after.entries ⟨n.id, depth, began, ended⟩ else [] := by
  cases visited with
  | @passed began ended duration branch ran notes =>
    obtain ⟨memory, branches, rfl, -⟩ := notes.eq_of_ok
    refine ⟨began, ended, ?_⟩
    cases stepwise : probe.stepwise <;>
      simp [finish, begin, setStatus, entries, stepwise, unfailed]
  | @failed began ended duration fault role =>
    refine ⟨began, ended, ?_⟩
    cases stepwise : probe.stepwise <;> simp [finish, begin, setStatus, entries, stepwise]

/-- The node that has just run adds its step, and what was taken down before stays as it was. -/
theorem Observed.visit (observed : log.Observed f probe steps) (ran : log.failed ⊆ log.executed)
    (placed : log.Placed f steps n.id depth) (fresh : n.id ∉ log.executed)
    (visited : log.Visited probe n depth after next) :
    ∃ began ended, after.Observed f probe (steps ++ [⟨n.id, depth, began, ended⟩]) := by
  have gains := visited.gains
  obtain ⟨began, ended, trace⟩ := visited.trace fun failed => fresh (ran failed)
  have earlier : ∀ step ∈ steps, after.entries step = log.entries step := by
    intro step member
    have other : step.node ≠ n.id := fun same =>
      fresh (same ▸ observed.order ▸ List.mem_map_of_mem member)
    simp only [entries, gains.mem_failed_iff other]
  refine ⟨began, ended, ?_, ?_, ?_, ?_⟩
  · rw [List.map_append, observed.order, gains.executed]
    rfl
  · rw [visited.breakpoints, gains.executed, List.filter_append, observed.breakpoints,
      List.filter_singleton, Bool.cond_eq_ite]
  · rw [trace, observed.trace]
    cases probe.stepwise with
    | false => rfl
    | true =>
      simp only [↓reduceIte, List.flatMap_append, List.flatMap_singleton]
      rw [List.flatMap_congr earlier]
  · -- The last step is the one that was just made; the others had their places before.
    intro before step later order
    rcases List.eq_nil_or_concat later with rfl | ⟨later, last, rfl⟩
    · obtain ⟨rfl, same⟩ := List.append_inj' order rfl
      cases same
      exact placed.visit gains fresh
    · have split : steps ++ [⟨n.id, depth, began, ended⟩] = (before ++ step :: later) ++ [last] := by
        simpa using order
      obtain ⟨same, -⟩ := List.append_inj' split rfl
      exact (observed.depths before step later same).visit gains fresh

end RunLog

/-- Whatever waits on the stack of a walk has its place after the steps that were made. -/
structure Walk.Watched {f : Flow} (w : Walk f) (log : RunLog) (probe : Probe) (steps : List Step) :
    Prop where
  logged : w.Logged log
  failed : log.failed ⊆ log.executed
  observed : log.Observed f probe steps
  waiting : ∀ entry ∈ w.stack, log.Placed f steps entry.1.id entry.2

namespace Walk.Watched

variable {f : Flow} {w : Walk f} {log after : RunLog} {probe : Probe} {steps : List Step} {n : FlowNode}
  {depth : Nat} {rest : List (FlowNode × Nat)} {next : List NodeId}

theorem start (f : Flow) (probe : Probe) : (Walk.start f).Watched (.start f) probe [] where
  logged := ⟨rfl, List.nodup_nil⟩
  failed := List.nil_subset _
  observed := ⟨rfl, rfl, by cases probe.stepwise <;> rfl, fun earlier _ _ order => by simp at order⟩
  waiting entry onStack := by
    obtain ⟨root, isRoot, rfl⟩ := List.mem_map.1 onStack
    exact ⟨fun _ => rfl, fun other => absurd (List.mem_map_of_mem isRoot) other⟩

theorem skip (watched : w.Watched log probe steps) (front : w.stack = (n, depth) :: rest) :
    (w.skip front).Watched log probe steps where
  logged := ⟨watched.logged.executed, watched.logged.once⟩
  failed := watched.failed
  observed := watched.observed
  waiting entry later := watched.waiting entry (front ▸ List.mem_cons_of_mem _ later)

theorem enter (watched : w.Watched log probe steps) (distinct : (f.nodes.map FlowNode.id).Nodup)
    (front : w.stack = (n, depth) :: rest) (unseen : n.id ∉ w.visited)
    (visited : log.Visited probe n depth after next) :
    ∃ step, (w.enter front next).Watched after probe (steps ++ [step]) := by
  have member : n ∈ f.nodes := w.mem_of_front front
  have fresh : n.id ∉ log.executed := watched.logged.not_mem_executed unseen
  have gains := visited.gains
  have placed : log.Placed f steps n.id depth :=
    watched.waiting (n, depth) (front ▸ List.mem_cons_self)
  obtain ⟨began, ended, observed⟩ := watched.observed.visit watched.failed placed fresh visited
  refine ⟨_, watched.logged.enter front unseen next gains.executed, gains.failed_subset watched.failed,
    observed, fun entry onStack => ?_⟩
  rcases List.mem_append.1 onStack with child | later
  · -- The children were selected by the node that has just run, so none of them is a root.
    obtain ⟨m, found, rfl⟩ := List.mem_map.1 child
    obtain ⟨id, chosen, isNode⟩ := List.mem_filterMap.1 found
    have inside : m ∈ f.nodes := List.mem_of_find?_eq_some isNode
    have named : m.id = id := by simpa using List.find?_some isNode
    have selects : after.Selects f n.id m.id :=
      (gains.selects_self distinct member fun failed => fresh (watched.failed failed)).2
        ⟨named ▸ chosen, m, inside, rfl⟩
    refine ⟨fun isRoot => absurd isRoot selects.not_root, fun _ => ⟨⟨n.id, depth, began, ended⟩, ?_⟩⟩
    exact ⟨List.mem_append_right _ (List.mem_singleton_self _), selects, rfl⟩
  · have waited := watched.waiting entry (front ▸ List.mem_cons_of_mem _ later)
    exact (waited.visit gains fresh).more _

end Walk.Watched

namespace FlowHost

variable {σ : Type} {host : FlowHost σ} {probe : Probe} {f : Flow}

theorem walk_watched (distinct : (f.nodes.map FlowNode.id).Nodup) (start : Nat) :
    (host.walk probe start (.start f) (.start f)).Answers fun answer =>
      ∃ steps, answer.2.Observed f probe steps := by
  refine walk_visits (P := fun w log => ∃ steps, w.Watched log probe steps) ?_ ?_ ?_ ?_ _ _
    ⟨[], .start f probe⟩
  · exact fun front ⟨steps, watched⟩ _ => ⟨steps, watched.skip front⟩
  · exact fun ⟨steps, watched⟩ _ => ⟨steps, watched.observed⟩
  · exact fun ⟨steps, watched⟩ _ _ _ => ⟨steps, watched.observed⟩
  · intro w log n depth rest next after front ⟨steps, watched⟩ unseen short visited
    obtain ⟨step, watched⟩ := watched.enter distinct front unseen visited
    exact ⟨steps ++ [step], watched⟩

/-- Whatever two probes take down, the runs take the same courses, with the same deeds at the same times, and
their results are the same but for what was taken down. Of a run there are taken down the breakpoints that it
came by and, on demand, two entries for each node that it executed, one after the other: that it ran, and how
it went, both at the depth of its place in the walk. -/
theorem run_observed (host : FlowHost σ) (f : Flow) (others : σ → σ → Prop) (deeds : List Deed) :
    (∀ probe, (host.recorded.run probe f).Records others (host.run probe f) deeds) ∧
    (∀ (probe probe' : Probe) (now t : Nat) (s s' : σ) (deeds' : List Deed)
      (outcome : Option (Except Crash FlowResult)),
      (∃ q, (host.recorded.run probe f).Reaches (Process.OffRecord others) now (s, deeds) q t
        (s', deeds') ∧ q.answer?.map (Except.map FlowResult.plain) = outcome) ↔
      ∃ q, (host.recorded.run probe' f).Reaches (Process.OffRecord others) now (s, deeds) q t
        (s', deeds') ∧ q.answer?.map (Except.map FlowResult.plain) = outcome) ∧
    ∀ (probe : Probe) (now t : Nat) (s s' : σ) (result : FlowResult),
      (host.run probe f).Reaches others now s (.done result) t s' →
      ∃ steps, result.log.Observed f probe steps := by
  refine ⟨fun probe => (follows_run host probe f).records others deeds, ?_, ?_⟩
  · intro probe probe' now t s s' deeds' outcome
    rw [← Process.reaches_map_iff, ← Process.reaches_map_iff, plain_run, plain_run]
  · intro probe now t s s' result course
    have unwalked : ∃ steps, (RunLog.start f).Observed f probe steps :=
      ⟨[], (Walk.Watched.start f probe).observed⟩
    exact (run_answers_log (Q := fun log => ∃ steps, log.Observed f probe steps) unwalked fun valid =>
      walk_watched (Flow.isValid_iff.1 valid).2.1).answer course

theorem run_observed_ringFlow : ∃ result t deeds,
    (emptyHost.recorded.run ⟨[⟨"left"⟩], true⟩ ringFlow).Reaches (Process.OffRecord Eq) 0 ((), [])
      (.done result) t ((), deeds) ∧
    (∃ steps, result.log.Observed ringFlow ⟨[⟨"left"⟩], true⟩ steps) ∧
    ∃ q, (emptyHost.recorded.run .none ringFlow).Reaches (Process.OffRecord Eq) 0 ((), []) q t
      ((), deeds) ∧ q.answer?.map (Except.map FlowResult.plain) = some (.ok result.plain) := by
  obtain ⟨result, t, deeds, course⟩ :=
    exists_course_recorded_emptyHost ⟨[⟨"left"⟩], true⟩ ringFlow
  obtain ⟨records, alike, observed⟩ := run_observed emptyHost ringFlow Eq []
  obtain ⟨q, plain, answered⟩ := (records ⟨[⟨"left"⟩], true⟩ 0 () t () (some (.ok result))).2
    ⟨_, deeds, course, rfl⟩
  obtain rfl : q = .done result := Process.eq_done (by rw [answered]; rfl)
  exact ⟨result, t, deeds, course, observed _ 0 t () () result plain,
    (alike _ .none 0 t () () deeds _).1 ⟨_, course, rfl⟩⟩

end FlowHost

end Hearth

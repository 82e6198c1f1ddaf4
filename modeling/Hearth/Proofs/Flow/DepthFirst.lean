import Hearth.Flow.Run
import Hearth.Proofs.Process.Completion

/-!
# Hearth.Proofs.Flow.DepthFirst

The walk through a flow is a search in depth.

The search is stated as a recursive procedure: it visits a node, and from there the nodes that this
one selects, each with all that comes after it. The walk has no recursion but a stack, on which nodes
of many levels wait side by side, and the same node possibly more than once.

## Main result

`traverse_eq_search`: of a flow that may run, the walk is the search. Both are the same process, so
the same nodes run in the same order and at the same depths, whatever the surroundings do.
-/

namespace Hearth

/-- How far a search has got: the nodes visited, the last one first, and what was taken down. -/
structure Trail where
  visited : List NodeId
  log : RunLog

/-- A search can be given up; the trail up to there remains. -/
abbrev Search (σ : Type) := ExceptT FlowFault (StateT Trail (Process σ))

/-- To pass over what has no image is to go through the images. -/
theorem forM_filterMap {m : Type → Type 1} [Monad m] [LawfulMonad m] {α β : Type}
    {g : α → Option β} {visit : α → m PUnit} {visitImage : β → m PUnit}
    (each : ∀ x, visit x = (g x).elim (pure ⟨⟩) visitImage) (xs : List α) :
    forM xs visit = forM (xs.filterMap g) visitImage := by
  induction xs with
  | nil => rfl
  | cons x xs ih =>
    rw [List.forM_cons, ih, each]
    cases found : g x with
    | none => simp only [Option.elim, pure_bind, List.filterMap_cons_none found]
    | some y => simp only [Option.elim, List.filterMap_cons_some found, List.forM_cons]

namespace Search

variable {σ α β : Type}

/-- Carries a search out from a trail on. -/
def carry (search : Search σ α) (t : Trail) : Process σ (Except FlowFault α × Trail) :=
  search.run.run t

@[simp] theorem carry_pure (a : α) (t : Trail) :
    carry (pure a : Search σ α) t = pure (.ok a, t) := rfl

@[simp] theorem carry_throw (fault : FlowFault) (t : Trail) :
    carry (throw fault : Search σ α) t = pure (.error fault, t) := rfl

@[simp] theorem carry_get (t : Trail) : carry (get : Search σ Trail) t = pure (.ok t, t) := rfl

@[simp] theorem carry_set (t u : Trail) : carry (set u : Search σ PUnit) t = pure (.ok ⟨⟩, u) := rfl

@[simp] theorem carry_lift (p : Process σ α) (t : Trail) :
    carry (liftM p : Search σ α) t = p >>= fun a => pure (.ok a, t) := by
  have lifted : carry (liftM p : Search σ α) t =
      (p >>= fun a => pure (a, t)) >>= fun (a, t) => pure (.ok a, t) := rfl
  simpa only [bind_assoc, pure_bind] using lifted

@[simp] theorem carry_bind (search : Search σ α) (k : α → Search σ β) (t : Trail) :
    carry (search >>= k) t = search.carry t >>= fun (result, t) =>
      match result with
      | .ok a => (k a).carry t
      | .error fault => pure (.error fault, t) := by
  simp only [carry, ExceptT.run_bind, StateT.run_bind]
  congr 1
  funext (result, t)
  cases result <;> rfl

/-- Carries a search out, and answers why it was given up, if it was. -/
def perform (search : Search σ Unit) (t : Trail) : Process σ (Option FlowFault × RunLog) := do
  let (result, t) ← search.carry t
  match result with
  | .ok () => return (none, t.log)
  | .error fault => return (some fault, t.log)

theorem perform_bind (search : Search σ α) (k : α → Search σ Unit) (t : Trail) :
    (search >>= k).perform t = search.carry t >>= fun (result, t) =>
      match result with
      | .ok a => (k a).perform t
      | .error fault => pure (some fault, t.log) := by
  simp only [perform, carry_bind, bind_assoc]
  congr 1
  funext (result, t)
  cases result <;> simp

end Search

/-- The connections that a node selects by the way it went: of a condition the first one if it held
and the second one if it did not, of any other node all of them, and of a node that failed none. -/
def FlowNode.selected (n : FlowNode) : Except FlowFault (Option Bool) → List NodeId
  | .error _ => []
  | .ok branch =>
    match n.role, branch with
    | .condition, some true => n.connections[0]?.toList
    | .condition, some false => n.connections[1]?.toList
    | _, _ => n.connections

/-- Only a condition comes out on a side. -/
theorem FlowNode.selected_ok {n : FlowNode} {branch : Option Bool}
    (sided : branch ≠ none → n.role = .condition) : n.selected (.ok branch) = n.following branch := by
  match branch with
  | none => cases role : n.role <;> simp only [selected, following, role]
  | some true => simp only [selected, following, sided nofun, List.head?_eq_getElem?]
  | some false => simp only [selected, following, sided nofun]

namespace FlowHost

variable {σ : Type} (host : FlowHost σ) (probe : Probe) (start : Nat) (f : Flow)

/-- Marks a node as visited and runs it. -/
def tread (n : FlowNode) (depth : Nat) : Search σ (Except FlowFault (Option Bool)) := do
  let t ← get
  let (outcome, log) ← liftM (host.attempt probe start n depth t.log)
  set (Trail.mk (n.id :: t.visited) log)
  return outcome

/-- Visits a node, and then the nodes that it selects. -/
def explore (n : FlowNode) (depth : Nat) : Search σ Unit := do
  if n.id ∈ (← get).visited then return ()
  else if _short : depthLimit < depth then throw (.tooDeep depthLimit)
  else
    let outcome ← tread host probe start n depth
    forM (n.selected outcome) fun id =>
      match f.node? id with
      | some child => explore child (depth + 1)
      | none => return ()
termination_by depthLimit + 1 - depth

/-- Explores the flow from every root, in their order. -/
def search : Search σ Unit :=
  forM f.roots fun root => host.explore probe start f root 1

theorem carry_tread (n : FlowNode) (depth : Nat) (t : Trail) :
    (host.tread probe start n depth).carry t = (do
      let (outcome, log) ← host.attempt probe start n depth t.log
      return (.ok outcome, ⟨n.id :: t.visited, log⟩)) := by
  simp only [tread, Search.carry_bind, Search.carry_get, Search.carry_lift, Search.carry_set,
    Search.carry_pure, bind_assoc, pure_bind]

/-- What comes after a node may take it that only a condition comes out on a side. -/
theorem execute_bind {α : Type} (n : FlowNode) (log : RunLog)
    {k k' : Except FlowFault (Option Bool) × RunLog → Process σ α}
    (same : ∀ outcome log,
      (∀ branch, outcome = .ok branch → branch ≠ none → n.role = .condition) →
      k (outcome, log) = k' (outcome, log)) :
    host.execute n log >>= k = host.execute n log >>= k' := by
  -- Only the case of a condition yields a side, and there the role is at hand.
  have failed : ∀ fault log, k (.error fault, log) = k' (.error fault, log) :=
    fun fault log => same _ log nofun
  have passed : ∀ log, k (.ok none, log) = k' (.ok none, log) :=
    fun log => same _ log fun _ sameBranch sided => absurd (Except.ok.inj sameBranch).symm sided
  simp only [execute]
  cases role : n.role with
  | trigger => simp only [pure_bind, passed]
  | condition =>
    simp only [bind_assoc]
    congr 1
    funext inputs
    cases n.holds inputs with
    | ok holds => exact same _ _ fun _ _ _ => role
    | error fault => exact failed _ _
  | action =>
    cases n.action with
    | error fault => exact failed _ _
    | ok action =>
      simp only [bind_assoc]
      congr 1
      funext answer
      cases answer with
      | ok => exact passed _
      | error failure => exact failed _ _
  | delay =>
    cases n.delay with
    | error fault => exact failed _ _
    | ok delay => simp only [bind_assoc, pure_bind, passed]

theorem visit_bind {α : Type} (n : FlowNode) (depth : Nat) (log : RunLog)
    (k : List NodeId × RunLog → Process σ α) :
    host.visit probe start n depth log >>= k = (do
      let (outcome, log) ← host.attempt probe start n depth log
      k (n.selected outcome, log)) := by
  simp only [visit, attempt, bind_assoc, pure_bind]
  congr 1
  funext began
  refine host.execute_bind n _ fun outcome log sided => ?_
  congr 1
  funext ended
  cases outcome with
  | error fault => rfl
  | ok branch =>
    rw [pure_bind, FlowNode.selected_ok (sided branch rfl)]

theorem carry_explore (n : FlowNode) (depth : Nat) (t : Trail) :
    (host.explore probe start f n depth).carry t =
      if n.id ∈ t.visited then pure (.ok (), t)
      else if depthLimit < depth then pure (.error (.tooDeep depthLimit), t)
      else (do
        let (outcome, log) ← host.attempt probe start n depth t.log
        let children := (n.selected outcome).filterMap f.node?
        (forM children fun child => host.explore probe start f child (depth + 1)).carry
          ⟨n.id :: t.visited, log⟩) := by
  -- The two guards are taken in the order in which the search looks at them.
  rw [explore, Search.carry_bind, Search.carry_get, pure_bind]
  by_cases seen : n.id ∈ t.visited
  · simp only [seen, ↓reduceIte, Search.carry_pure]
  by_cases long : depthLimit < depth
  · simp only [seen, long, ↓reduceIte, ↓reduceDIte, Search.carry_throw]
  · simp only [seen, long, ↓reduceIte, ↓reduceDIte, Search.carry_bind, carry_tread, bind_assoc,
      pure_bind]
    congr 1
    funext (outcome, log)
    rw [forM_filterMap fun id => ?_]
    cases f.node? id <;> rfl

variable {f}

theorem walk_eq_perform (w : Walk f) (log : RunLog) :
    host.walk probe start w log =
      Search.perform (forM w.stack fun entry => host.explore probe start f entry.1 entry.2)
        ⟨w.visited, log⟩ := by
  -- One case for each way in which a round of the walk goes. The stack stands for the searches that
  -- are still to come, so its first entry is unfolded on the side of the search.
  fun_induction FlowHost.walk host probe start w log with
  | case1 w log front =>
    rw [front]
    rfl
  | case2 w log n depth rest front seen ih =>
    rw [ih, front, List.forM_cons, Search.perform_bind, carry_explore, if_pos seen, pure_bind]
    rfl
  | case3 w log n depth rest front fresh long =>
    rw [front, List.forM_cons, Search.perform_bind, carry_explore, if_neg fresh, if_pos long,
      pure_bind]
  | case4 w log n depth rest front fresh short ih =>
    rw [front, List.forM_cons, Search.perform_bind, carry_explore, if_neg fresh, if_neg short,
      visit_bind]
    simp only [bind_assoc]
    congr 1
    funext (outcome, log)
    -- The children stand on the stack before the siblings, as they come before them in the search.
    rw [ih]
    simp only [Walk.enter, List.forM_append, List.forM_map, Search.perform_bind]

end FlowHost

/-! ### What a walk keeps -/

theorem RunLog.executed_begin (r : RunLog) (probe : Probe) (elapsed : Nat) (n : FlowNode)
    (depth : Nat) : (r.begin probe elapsed n depth).executed = r.executed := rfl

theorem RunLog.executed_finish (r : RunLog) (probe : Probe) (elapsed duration : Nat) (n : FlowNode)
    (depth : Nat) (fault : Option FlowFault) :
    (r.finish probe elapsed duration n depth fault).executed = r.executed ++ [n.id] := by
  cases fault <;> rfl

/-- What was taken down are the nodes visited, and none was visited twice. -/
structure Walk.Logged {f : Flow} (w : Walk f) (log : RunLog) : Prop where
  executed : log.executed = w.visited.reverse
  once : w.visited.Nodup

theorem Walk.Logged.nodup {f : Flow} {w : Walk f} {log : RunLog} (logged : w.Logged log) :
    log.executed.Nodup := by
  rw [logged.executed]
  exact (List.reverse_perm w.visited).nodup_iff.2 logged.once

theorem Walk.Logged.not_mem_executed {f : Flow} {w : Walk f} {log : RunLog} (logged : w.Logged log)
    {id : NodeId} (unseen : id ∉ w.visited) : id ∉ log.executed := by
  rw [logged.executed, List.mem_reverse]
  exact unseen

theorem Walk.mem_of_front {f : Flow} (w : Walk f) {n : FlowNode} {depth : Nat}
    {rest : List (FlowNode × Nat)} (front : w.stack = (n, depth) :: rest) : n ∈ f.nodes :=
  w.known (n, depth) (front ▸ List.mem_cons_self)

theorem Walk.Logged.enter {f : Flow} {w : Walk f} {log after : RunLog} {n : FlowNode} {depth : Nat}
    {rest : List (FlowNode × Nat)} (logged : w.Logged log) (front : w.stack = (n, depth) :: rest)
    (fresh : n.id ∉ w.visited) (next : List NodeId) (grown : after.executed = log.executed ++ [n.id]) :
    (w.enter front next).Logged after where
  executed := by
    rw [grown, logged.executed, ← List.reverse_cons]
    rfl
  once := List.nodup_cons.2 ⟨fresh, logged.once⟩

namespace FlowHost

section

variable {σ : Type} {host : FlowHost σ} {probe : Probe} {start : Nat} {f : Flow}
  (calm : ∀ actions, (host.runActions actions).Ends fun _ => True)

include calm

theorem execute_ends (n : FlowNode) (log : RunLog) :
    (host.execute n log).Ends fun answer => answer.2.executed = log.executed := by
  simp only [execute]
  cases n.role with
  | trigger => exact .pure rfl
  | condition =>
    have looked : (Process.step host.inputs).Ends fun _ => True := .step fun _ _ => trivial
    refine looked.bind fun inputs _ => ?_
    cases n.holds inputs with
    | ok holds => exact .pure rfl
    | error fault => exact .pure rfl
  | action =>
    cases n.action with
    | error fault => exact .pure rfl
    | ok action =>
      refine (calm [action]).bind fun answer _ => ?_
      cases answer with
      | ok => exact .pure rfl
      | error failure => exact .pure rfl
  | delay =>
    cases n.delay with
    | error fault => exact .pure rfl
    | ok delay => exact (Process.Ends.sleep delay).bind fun _ _ => .pure rfl

theorem visit_ends (n : FlowNode) (depth : Nat) (log : RunLog) :
    (host.visit probe start n depth log).Ends fun answer =>
      answer.2.executed = log.executed ++ [n.id] := by
  -- How the node went is decided after it has been taken down, so both outcomes share this part.
  have attempted : (host.attempt probe start n depth log).Ends fun answer =>
      answer.2.executed = log.executed ++ [n.id] := by
    refine Process.Ends.now.bind fun began _ => ?_
    refine (execute_ends calm n _).bind fun (outcome, after) kept => ?_
    refine Process.Ends.now.bind fun ended _ => .pure ?_
    exact (RunLog.executed_finish ..).trans (congrArg (· ++ [n.id]) (kept.trans (RunLog.executed_begin ..)))
  refine attempted.bind fun (outcome, after) grown => ?_
  cases outcome with
  | ok branch => exact .pure grown
  | error fault => exact .pure grown

omit calm in
/-- What holds at the start of a walk and is kept by each of its rounds holds at its end. -/
theorem walk_ends {P : Walk f → RunLog → Prop} {Q : Option FlowFault × RunLog → Prop}
    (skipped : ∀ {w : Walk f} {log n depth rest} (front : w.stack = (n, depth) :: rest),
      P w log → n.id ∈ w.visited → P (w.skip front) log)
    (entered : ∀ {w : Walk f} {log n depth rest} (front : w.stack = (n, depth) :: rest),
      P w log → n.id ∉ w.visited → depth ≤ depthLimit →
      (host.visit probe start n depth log).Ends fun answer =>
        P (w.enter front answer.1) answer.2)
    (finished : ∀ {w : Walk f} {log}, P w log → w.stack = [] → Q (none, log))
    (givenUp : ∀ {w : Walk f} {log n depth rest}, P w log → w.stack = (n, depth) :: rest →
      n.id ∉ w.visited → depthLimit < depth → Q (some (.tooDeep depthLimit), log))
    (w : Walk f) (log : RunLog) (initial : P w log) : (host.walk probe start w log).Ends Q := by
  fun_induction FlowHost.walk host probe start w log with
  | case1 w log front => exact .pure (finished initial front)
  | case2 w log n depth rest front seen ih => exact ih (skipped front initial seen)
  | case3 w log n depth rest front fresh long => exact .pure (givenUp initial front fresh long)
  | case4 w log n depth rest front fresh short ih =>
    refine (entered front initial fresh (Nat.le_of_not_lt short)).bind fun (next, after) kept => ?_
    exact ih next after kept

end

variable {σ : Type}

/-- Of a flow that may run, the walk is the recursive search: it runs the same nodes in the same order
and at the same depths. It comes to an end, no node has run twice then, and it is given up only for a
path that is too long. -/
theorem traverse_eq_search {f : Flow} (enabled : f.enabled = true)
    (valid : f.report.isValid = true) (host : FlowHost σ)
    (calm : ∀ actions, (host.runActions actions).Ends fun _ => True) (probe : Probe) (start : Nat) :
    host.traverse probe start f = (host.search probe start f).perform ⟨[], .start f⟩ ∧
    (host.traverse probe start f).Ends fun (fault, log) =>
      log.executed.Nodup ∧ (fault = none ∨ fault = some (.tooDeep depthLimit)) := by
  have walked : host.traverse probe start f = host.walk probe start (.start f) (.start f) := by
    simp only [traverse, enabled, valid, Bool.not_true, Bool.false_eq_true, ↓reduceIte]
  constructor
  · rw [walked, walk_eq_perform]
    simp only [Walk.start, List.forM_map, search]
  · -- Whatever the walk has taken down are the nodes that it has marked.
    rw [walked]
    refine walk_ends (P := Walk.Logged) ?_ ?_ ?_ ?_ _ _ ⟨rfl, List.nodup_nil⟩
    · intro w log n depth rest front logged _
      exact ⟨logged.executed, logged.once⟩
    · intro w log n depth rest front logged fresh _
      refine (visit_ends calm n depth log).mono ?_
      rintro ⟨next, after⟩ grown
      constructor
      · rw [grown, logged.executed, ← List.reverse_cons]
        rfl
      · exact List.nodup_cons.2 ⟨fresh, logged.once⟩
    · intro w log logged _
      exact ⟨logged.nodup, .inl rfl⟩
    · intro w log n depth rest logged _ _ _
      exact ⟨logged.nodup, .inr rfl⟩

/-- Two nodes that lead to each other, both reached from the trigger, and a connection to no node. -/
def ringFlow : Flow :=
  { id := ⟨.nil⟩, name := "ring", enabled := true
    nodes :=
      [⟨⟨"start"⟩, .trigger, "manual", [], [⟨"left"⟩, ⟨"gone"⟩, ⟨"right"⟩]⟩,
        ⟨⟨"left"⟩, .action, "light", [("action", .text "on"), ("device_id", .text "lamp")],
          [⟨"right"⟩]⟩,
        ⟨⟨"right"⟩, .delay, "wait", [], [⟨"left"⟩, ⟨"right"⟩]⟩] }

/-- Surroundings in which nothing is known and every action succeeds. -/
def emptyHost : FlowHost Unit where
  inputs _ s := (⟨fun _ => none, fun _ => none, 0⟩, s)
  runActions _ := pure (.ok ())
  publish _ _ s := s

theorem traverse_ringFlow :
    ringFlow.enabled = true ∧ ringFlow.report.isValid = true ∧
    (∀ actions, (emptyHost.runActions actions).Ends fun _ => True) ∧
    emptyHost.traverse .none 0 ringFlow =
      (emptyHost.search .none 0 ringFlow).perform ⟨[], .start ringFlow⟩ ∧
    (emptyHost.traverse .none 0 ringFlow).Ends fun (fault, log) =>
      log.executed.Nodup ∧ (fault = none ∨ fault = some (.tooDeep depthLimit)) :=
  ⟨rfl, by decide, fun _ => .pure trivial,
    traverse_eq_search rfl (by decide) emptyHost (fun _ => .pure trivial) .none 0⟩

end FlowHost

end Hearth

import Hearth.Event
import Hearth.Flow.Report
import Hearth.Flow.Step
import Hearth.Process.Basic
import Hearth.Table

/-!
# Hearth.Flow.Run

Running a flow. The run starts at the roots and goes on in depth, along the connections that each
node chooses. A node runs once; a node that fails is not followed, but the rest of the flow still
runs. The run as a whole is given up only if the flow may not run or a path grows too long.

Each round of the walk runs a node that has not run yet or shortens the stack of what is to come, which
is why it ends.
-/

namespace Hearth

inductive NodeStatus
  | pending | running | succeeded | failed
deriving DecidableEq, Repr, Inhabited

def NodeStatus.text : NodeStatus → String
  | pending => "pending"
  | running => "running"
  | succeeded => "succeeded"
  | failed => "failed"

/-- What to take down during a run besides its outcome. -/
structure Probe where
  breakpoints : List NodeId
  /-- Takes down every change of the status of a node. -/
  stepwise : Bool
deriving DecidableEq, Repr, Inhabited

def Probe.none : Probe := ⟨[], false⟩

def Probe.ofData (d : Data) : Probe :=
  { breakpoints := (d.entry "breakpoints").items.filterMap NodeId.ofData?
    stepwise := (d.entry "step").isTrue }

structure TraceEntry where
  node : NodeId
  status : NodeStatus
  depth : Nat
  /-- Milliseconds since the run began. -/
  elapsed : Nat
deriving DecidableEq, Repr, Inhabited

structure RunLog where
  /-- The nodes that ran, in their order, failed ones included. -/
  executed : List NodeId
  failed : List NodeId
  states : Table NodeId NodeStatus
  /-- How long each node took, in milliseconds. -/
  timings : Table NodeId Nat
  errors : Table NodeId String
  memory : List (String × Data)
  /-- How the conditions came out. -/
  branches : Table NodeId Bool
  breakpoints : List NodeId
  trace : List TraceEntry
deriving Repr, Inhabited

structure FlowResult where
  flow : FlowId
  log : RunLog
  /-- Set when the run was given up. -/
  error : Option String
  /-- In milliseconds. -/
  elapsed : Nat
deriving Repr, Inhabited

def FlowResult.succeeded (r : FlowResult) : Bool := r.error.isNone && r.log.failed.isEmpty

def FlowResult.toData (r : FlowResult) : Data :=
  let byNode {ν : Type} (toData : ν → Data) (t : Table NodeId ν) : Data :=
    .record (t.entries.map fun (node, v) => (node.name, toData v))
  .record [("flow_id", r.flow.toData),
    ("status", .text (if r.succeeded then NodeStatus.succeeded else NodeStatus.failed).text),
    ("success", .bool r.succeeded), ("executed", .ofList NodeId.toData r.log.executed),
    ("failed", .ofList NodeId.toData r.log.failed),
    ("states", byNode (fun s => .text s.text) r.log.states),
    ("timings_ms", byNode .nat r.log.timings), ("errors", byNode .text r.log.errors),
    ("variables", .record r.log.memory), ("branches", byNode .bool r.log.branches),
    ("breakpoints", .ofList NodeId.toData r.log.breakpoints),
    ("trace", .ofList (fun e => .list [e.node.toData, .text e.status.text, .nat e.depth,
      .nat e.elapsed]) r.log.trace),
    ("error", .ofText? r.error), ("ms", .nat r.elapsed)]

namespace RunLog

def start (f : Flow) : RunLog :=
  { executed := [], failed := [], states := .ofList (f.nodes.map fun n => (n.id, .pending)),
    timings := .empty, errors := .empty, memory := [], branches := .empty,
    breakpoints := [], trace := [] }

/-- Sets the status of a node, `elapsed` milliseconds into the run. -/
def setStatus (r : RunLog) (probe : Probe) (elapsed : Nat) (node : NodeId) (status : NodeStatus)
    (depth : Nat) : RunLog :=
  { r with
    states := r.states.insert node status
    trace := if probe.stepwise then r.trace ++ [{ node, status, depth, elapsed }] else r.trace }

def setVariable (r : RunLog) (name : String) (value : Data) : RunLog :=
  { r with memory := Data.insertEntry name value r.memory }

/-- Keeps the trigger and its data for later. -/
def keepTrigger (r : RunLog) (n : FlowNode) : RunLog :=
  (r.setVariable "trigger"
    (.record [("node", n.id.toData), ("subtype", .text n.subtype)])).setVariable n.id.name
    (.record n.data)

def keepAction (r : RunLog) (n : FlowNode) (a : Action) : RunLog :=
  r.setVariable "last_action"
    (.record [("action", .text a.kind.text), ("device_id", a.device.toData), ("node", n.id.toData)])

def begin (r : RunLog) (probe : Probe) (elapsed : Nat) (n : FlowNode) (depth : Nat) : RunLog :=
  let hit := probe.breakpoints.contains n.id
  { r with breakpoints := if hit then r.breakpoints ++ [n.id] else r.breakpoints }.setStatus
    probe elapsed n.id .running depth

/-- A node is over: `duration` is how long it took. -/
def finish (r : RunLog) (probe : Probe) (elapsed duration : Nat) (n : FlowNode) (depth : Nat)
    (fault : Option FlowFault) : RunLog :=
  let ran := { r with
    timings := r.timings.insert n.id duration
    executed := r.executed ++ [n.id] }
  match fault with
  | none => ran.setStatus probe elapsed n.id .succeeded depth
  | some fault =>
    { ran with
      errors := ran.errors.insert n.id fault.message
      failed := ran.failed ++ [n.id] }.setStatus probe elapsed n.id .failed depth

end RunLog

/-- The surroundings of a run within a larger state. -/
structure FlowHost (σ : Type) where
  /-- What is known; asking may leave a trace. -/
  inputs : Nat → σ → FlowInputs × σ
  runActions : List Action → Process σ (Except Failure Unit)
  publish : Notice → Nat → σ → σ

namespace FlowHost

variable {σ : Type}

/-- Runs one node. Answers how its condition came out, if it is one. -/
def execute (host : FlowHost σ) (n : FlowNode) (log : RunLog) :
    Process σ (Except FlowFault (Option Bool) × RunLog) :=
  match n.role with
  | .trigger => pure (.ok none, log.keepTrigger n)
  | .condition => do
    let inputs ← Process.step host.inputs
    match n.holds inputs with
    | .ok holds => return (.ok (some holds), { log with branches := log.branches.insert n.id holds })
    | .error fault => return (.error fault, log)
  | .action =>
    match n.action with
    | .error fault => pure (.error fault, log)
    | .ok action => do
      match ← host.runActions [action] with
      | .ok () => return (.ok none, log.keepAction n action)
      | .error failure => return (.error (n.failed failure.message), log)
  | .delay =>
    match n.delay with
    | .error fault => pure (.error fault, log)
    | .ok delay => do
      Process.sleep delay
      return (.ok none, log)

/-- Runs one node and takes down what there is to take down. Answers how it went. -/
def attempt (host : FlowHost σ) (probe : Probe) (start : Nat) (n : FlowNode) (depth : Nat)
    (log : RunLog) : Process σ (Except FlowFault (Option Bool) × RunLog) := do
  let began ← Process.now
  let (outcome, log) ← host.execute n (log.begin probe (began - start) n depth)
  let ended ← Process.now
  let fault? : Option FlowFault :=
    match outcome with
    | .ok _ => none
    | .error fault => some fault
  return (outcome, log.finish probe (ended - start) (ended - began) n depth fault?)

/-- Runs one node and answers the nodes to go on with. -/
def visit (host : FlowHost σ) (probe : Probe) (start : Nat) (n : FlowNode) (depth : Nat)
    (log : RunLog) : Process σ (List NodeId × RunLog) := do
  let (outcome, log) ← host.attempt probe start n depth log
  match outcome with
  | .ok branch => return (n.following branch, log)
  | .error _ => return ([], log)

end FlowHost

/-- How far the walk through a flow has got: the nodes that have run, and on the stack those to come,
each with the length of the path to it. -/
structure Walk (f : Flow) where
  visited : List NodeId
  stack : List (FlowNode × Nat)
  /-- Only nodes of the flow are put on the stack. -/
  known : ∀ entry ∈ stack, entry.1 ∈ f.nodes

namespace Walk

variable {f : Flow} {n : FlowNode} {depth : Nat} {rest : List (FlowNode × Nat)}

/-- Before the first round: the roots are to come, in their order. -/
def start (f : Flow) : Walk f where
  visited := []
  stack := f.roots.map fun n => (n, 1)
  known := by
    intro entry onStack
    obtain ⟨n, root, rfl⟩ := List.mem_map.1 onStack
    exact (List.mem_filter.1 root).1

/-- Drops the first entry of the stack. -/
def skip (w : Walk f) (front : w.stack = (n, depth) :: rest) : Walk f where
  visited := w.visited
  stack := rest
  known entry later := w.known entry (front ▸ List.mem_cons_of_mem _ later)

/-- Replaces the first entry of the stack, whose node has run, by the nodes to go on with. An
identifier that no node has is passed over. -/
def enter (w : Walk f) (front : w.stack = (n, depth) :: rest) (next : List NodeId) : Walk f where
  visited := n.id :: w.visited
  stack := (next.filterMap f.node?).map (fun child => (child, depth + 1)) ++ rest
  known := by
    intro entry onStack
    rcases List.mem_append.1 onStack with fresh | later
    · obtain ⟨child, found, rfl⟩ := List.mem_map.1 fresh
      obtain ⟨id, _, isNode⟩ := List.mem_filterMap.1 found
      exact List.mem_of_find?_eq_some isNode
    · exact w.known entry (front ▸ List.mem_cons_of_mem _ later)

/-- The nodes of the flow that have not run. -/
def unvisited (w : Walk f) : List FlowNode := f.nodes.filter fun n => n.id ∉ w.visited

theorem unvisited_enter (w : Walk f) (front : w.stack = (n, depth) :: rest) (next : List NodeId) :
    (w.enter front next).unvisited = w.unvisited.filter fun m => m.id ≠ n.id := by
  simp only [unvisited, enter, List.filter_filter, List.mem_cons, not_or, Bool.decide_and]

theorem length_unvisited_enter_lt {w : Walk f} (front : w.stack = (n, depth) :: rest)
    (fresh : n.id ∉ w.visited) (next : List NodeId) :
    (w.enter front next).unvisited.length < w.unvisited.length := by
  have member : n ∈ f.nodes := w.known (n, depth) (front ▸ List.mem_cons_self)
  rw [unvisited_enter]
  refine List.length_filter_lt_length_iff_exists.2 ⟨n, ?_, by simp⟩
  exact List.mem_filter.2 ⟨member, by simpa using fresh⟩

end Walk

namespace FlowHost

variable {σ : Type}

/-- The longest path from a root that a run goes along. -/
def depthLimit : Nat := 100

/-- Goes on with the first node of the stack, until the stack is empty or a path is too long. A node
that has run already is dropped, however long the path to it. -/
def walk {f : Flow} (host : FlowHost σ) (probe : Probe) (start : Nat) (w : Walk f) (log : RunLog) :
    Process σ (Option FlowFault × RunLog) :=
  -- The depth is looked at only where a node is about to run.
  match front : w.stack with
  | [] => pure (none, log)
  | (n, depth) :: _ =>
    if _seen : n.id ∈ w.visited then host.walk probe start (w.skip front) log
    else if depthLimit < depth then pure (some (.tooDeep depthLimit), log)
    else do
      let (next, log) ← host.visit probe start n depth log
      host.walk probe start (w.enter front next) log
termination_by (w.unvisited.length, w.stack.length)
decreasing_by
  · have shorter : (w.skip front).stack.length < w.stack.length := by simp [front, Walk.skip]
    exact Prod.Lex.right _ shorter
  · exact Prod.Lex.left _ _ (Walk.length_unvisited_enter_lt front _seen next)

/-- Walks a flow that is enabled and has no errors. -/
def traverse (host : FlowHost σ) (probe : Probe) (start : Nat) (f : Flow) :
    Process σ (Option FlowFault × RunLog) :=
  let report := f.report
  if !f.enabled then pure (some .disabled, .start f)
  else if !report.isValid then pure (some (.invalid report.errorMessages), .start f)
  else host.walk probe start (.start f) (.start f)

/-- What is announced when a run is over. -/
def notice (f : Flow) (r : FlowResult) : Notice :=
  .about (if r.succeeded then .flowCompleted else .flowFailed) f.id.text
    [("name", .text f.name), ("executed_nodes", .list (r.log.executed.map NodeId.toData)),
      ("failed_nodes", .list (r.log.failed.map NodeId.toData)),
      ("error", (r.error.map Data.text).getD .null)]

/-- Runs a flow once and announces how it went. -/
def run (host : FlowHost σ) (probe : Probe) (f : Flow) : Process σ FlowResult := do
  let start ← Process.now
  let (fault, log) ← host.traverse probe start f
  let ended ← Process.now
  let result : FlowResult :=
    { flow := f.id, log, error := fault.map FlowFault.message, elapsed := ended - start }
  Process.change (host.publish (notice f result))
  return result

end FlowHost

end Hearth

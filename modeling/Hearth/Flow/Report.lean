import Hearth.Flow.Basic
import Hearth.Flow.Digraph

/-!
# Hearth.Flow.Report

What is wrong with the structure of a flow. An error keeps the flow from running. A warning does
not: a run visits no node twice, so it ends in spite of a cycle.

An identifier that occurs more than once stands for the first node that has it.
-/

namespace Hearth

inductive FlowIssue
  | empty
  | duplicateNode (node : NodeId)
  | noTriggerRoot
  | unknownConnection (source target : NodeId)
  | disconnected (node : NodeId)
  | cycle (path : List NodeId)
deriving DecidableEq, Repr

namespace FlowIssue

def message : FlowIssue → String
  | empty => "flow has no nodes"
  | duplicateNode node => "duplicate node id `" ++ node.name ++ "`"
  | noTriggerRoot => "flow needs a trigger node without incoming connections"
  | unknownConnection source target =>
    "node `" ++ source.name ++ "` connects to unknown node `" ++ target.name ++ "`"
  | disconnected node => "node `" ++ node.name ++ "` is not reachable from any trigger"
  | cycle path => "cycle: " ++ " -> ".intercalate (path.map NodeId.name)

def toData : FlowIssue → Data
  | empty => .record [("kind", .text "empty")]
  | duplicateNode node => .record [("kind", .text "duplicate_node"), ("node", node.toData)]
  | noTriggerRoot => .record [("kind", .text "no_trigger_root")]
  | unknownConnection source target =>
    .record [("kind", .text "unknown_connection"), ("from", source.toData), ("to", target.toData)]
  | disconnected node => .record [("kind", .text "disconnected"), ("node", node.toData)]
  | cycle path => .record [("kind", .text "cycle"), ("path", .list (path.map NodeId.toData))]

end FlowIssue

structure FlowReport where
  errors : List FlowIssue
  warnings : List FlowIssue
deriving DecidableEq, Repr

namespace FlowReport

def isValid (r : FlowReport) : Bool := r.errors.isEmpty

def errorMessages (r : FlowReport) : List String := r.errors.map FlowIssue.message

def toData (r : FlowReport) : Data :=
  .record [("errors", .list (r.errors.map FlowIssue.toData)),
    ("warnings", .list (r.warnings.map FlowIssue.toData))]

end FlowReport

namespace Flow

def position? (f : Flow) (id : NodeId) : Option Nat :=
  f.nodes.findIdx? fun n => n.id == id

/-- The connections of a node that lead to a node of the flow, as positions. -/
def knownTargets (f : Flow) (n : FlowNode) : List Nat :=
  n.connections.filterMap f.position?

def graph (f : Flow) : Digraph :=
  ⟨f.nodes.map f.knownTargets⟩

/-- The nodes whose identifier an earlier node has already. -/
def repeatedNodes : List NodeId → List FlowNode → List FlowNode
  | _, [] => []
  | earlier, n :: rest =>
    if earlier.contains n.id then n :: repeatedNodes earlier rest
    else repeatedNodes (n.id :: earlier) rest

/-- The connections that lead to no node of the flow. -/
def unknownConnections (f : Flow) : List FlowIssue :=
  f.nodes.flatMap fun n =>
    (n.connections.filter fun target => (f.position? target).isNone).map
      fun target => .unknownConnection n.id target

/-- The positions of the triggers to which no edge of the graph leads. -/
def rootPositions (f : Flow) : List Nat :=
  let edges := f.graph.targets
  (List.range f.nodes.length).filter fun i =>
    (f.nodes[i]?.map FlowNode.role) == some .trigger
      && !(edges.any fun targets => targets.contains i)

/-- The nodes that no path from a root reaches. -/
def unreachedNodes (f : Flow) : List FlowNode :=
  ((f.nodes.zip (f.graph.reachable f.rootPositions)).filter fun (_, reached) => !reached).map
    Prod.fst

/-- The cycles of the graph as identifiers of nodes. -/
def cyclePaths (f : Flow) : List (List NodeId) :=
  f.graph.cycles.map fun path => path.filterMap fun i => f.nodes[i]?.map FlowNode.id

/-- The structural checks, each with its issues in the order of the nodes. -/
def report (f : Flow) : FlowReport :=
  if f.nodes.isEmpty then ⟨[.empty], []⟩
  else
    { errors := (repeatedNodes [] f.nodes).map (fun n => .duplicateNode n.id)
        ++ (if f.rootPositions.isEmpty then [.noTriggerRoot] else [])
      warnings := f.unknownConnections
        ++ f.unreachedNodes.map (fun n => .disconnected n.id)
        ++ f.cyclePaths.map .cycle }

end Flow

end Hearth

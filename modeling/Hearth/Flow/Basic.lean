import Hearth.Data.Fields
import Hearth.Id

/-!
# Hearth.Flow.Basic

Flows: graphs of nodes that people draw. A node names the nodes that come after it; of a condition
the first one is taken when the condition holds and the second one when it does not.
-/

namespace Hearth

inductive NodeRole
  | trigger | condition | action | delay
deriving DecidableEq, Repr, Inhabited

namespace NodeRole

def text : NodeRole → String
  | trigger => "trigger"
  | condition => "condition"
  | action => "action"
  | delay => "delay"

def ofText? : String → Option NodeRole
  | "trigger" => some trigger
  | "condition" => some condition
  | "action" => some action
  | "delay" => some delay
  | _ => none

theorem ofText?_text (r : NodeRole) : ofText? r.text = some r := by
  cases r <;> rfl

end NodeRole

structure FlowNode where
  id : NodeId
  role : NodeRole
  subtype : String
  /-- Sorted by name. -/
  data : List (String × Data)
  connections : List NodeId
deriving Repr, Inhabited

namespace FlowNode

def get? (n : FlowNode) (name : String) : Option Data :=
  n.data.lookup name

def text? (n : FlowNode) (name : String) : Option String :=
  (n.get? name).bind Data.text?

def float? (n : FlowNode) (name : String) : Option Float :=
  (n.get? name).bind Data.float?

def bool? (n : FlowNode) (name : String) : Option Bool :=
  (n.get? name).bind Data.bool?

def toData (n : FlowNode) : Data :=
  .record [("id", n.id.toData), ("type", .text n.role.text), ("subtype", .text n.subtype),
    ("data", .record n.data), ("connections", .list (n.connections.map NodeId.toData))]

/-- A record, its entries sorted by name. -/
def readEntries? (d : Data) : Option (List (String × Data)) :=
  match d.normalize with
  | .record entries => some entries
  | _ => none

def fieldNames : List String := ["id", "type", "subtype", "data", "connections"]

def ofData? (d : Data) : Option FlowNode := do
  let f ← Fields.read? fieldNames d
  let id ← f.required "id" NodeId.ofData?
  let role ← f.required "type" fun d => d.word?.bind NodeRole.ofText?
  let subtype ← f.orElse "subtype" "" Data.text?
  let data ← f.orElse "data" [] readEntries?
  let connections ← f.orElse "connections" [] (Data.listOf? NodeId.ofData?)
  return { id, role, subtype, data, connections }

end FlowNode

structure Flow where
  id : FlowId
  name : String
  nodes : List FlowNode
  enabled : Bool
deriving Repr, Inhabited

namespace Flow

def node? (f : Flow) (id : NodeId) : Option FlowNode :=
  f.nodes.find? fun n => n.id == id

def incoming (f : Flow) (id : NodeId) : Nat :=
  (f.nodes.flatMap FlowNode.connections).count id

/-- The triggers to whose identifier no connection leads, in their order. -/
def roots (f : Flow) : List FlowNode :=
  f.nodes.filter fun n => n.role == .trigger && f.incoming n.id == 0

/-- Whether one of the roots asks to run when the engine starts. -/
def runsAtStartup (f : Flow) : Bool :=
  f.roots.any fun n => n.subtype == "manual" || n.subtype == "startup"

def toData (f : Flow) : Data :=
  .record [("id", f.id.toData), ("name", .text f.name),
    ("nodes", .list (f.nodes.map FlowNode.toData)), ("enabled", .bool f.enabled)]

def fieldNames : List String := ["id", "name", "nodes", "enabled"]

/-- Reads a flow. One without an identifier gets `fresh`. -/
def ofData? (fresh : FlowId) (d : Data) : Option Flow := do
  let f ← Fields.read? fieldNames d
  let id ← f.orElse "id" fresh Id.ofData?
  let name ← f.orElse "name" "" Data.text?
  let nodes ← f.required "nodes" (Data.listOf? FlowNode.ofData?)
  let enabled ← f.orElse "enabled" true Data.bool?
  return { id, name, nodes, enabled }

end Flow

end Hearth

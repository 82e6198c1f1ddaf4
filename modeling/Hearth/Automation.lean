import Hearth.Action
import Hearth.Trigger

/-!
# Hearth.Automation

A rule: actions that run when one of the triggers fires.
-/

namespace Hearth

structure Automation where
  id : AutomationId
  name : String
  enabled : Bool
  triggers : List Trigger
  actions : List Action
deriving Repr, Inhabited

namespace Automation

/-- Checks the triggers in order, from the given position on. -/
def checkFrom (index : Nat) : List Trigger → Except TriggerFault Unit
  | [] => .ok ()
  | t :: rest => do
    t.check index
    checkFrom (index + 1) rest

def checkTriggers (a : Automation) : Except TriggerFault Unit :=
  checkFrom 0 a.triggers

/-- The name must hold more than blanks, and every trigger must be in order. -/
def check (a : Automation) : Except Failure Unit :=
  if Text.isBlankText a.name then .error (.record .emptyName)
  else
    match a.checkTriggers with
    | .ok () => .ok ()
    | .error fault => .error (.trigger fault)

def positions (a : Automation) : List (Nat × Trigger) :=
  a.triggers.zipIdx.map fun (t, index) => (index, t)

/-- The triggers that are armed for a time, with their positions. -/
def scheduleTriggers (a : Automation) : List (Nat × Trigger) :=
  a.positions.filter fun (_, t) => t.isSchedule

/-- The triggers that watch a device, with their positions. -/
def conditionTriggers (a : Automation) : List (Nat × Trigger) :=
  a.positions.filter fun (_, t) => t.isCondition

def create (id : AutomationId) (name : String) (enabled : Bool) (triggers : List Trigger)
    (actions : List Action) : Except Failure Automation :=
  let a : Automation := { id, name, enabled, triggers, actions }
  a.check.map fun () => a

theorem any_id_iff {known : List Automation} {id : AutomationId} :
    (known.any fun a => a.id == id) = true ↔ id ∈ known.map Automation.id := by
  simp only [List.any_eq_true, beq_iff_eq, List.mem_map]

def toData (a : Automation) : Data :=
  .record [("id", a.id.toData), ("name", .text a.name), ("enabled", .bool a.enabled),
    ("triggers", .list (a.triggers.map Trigger.toData)),
    ("actions", .list (a.actions.map Action.toData))]

def fieldNames : List String := ["id", "name", "enabled", "triggers", "actions"]

/-- Reads an automation. One without an identifier gets `fresh`. -/
def ofData? (fresh : AutomationId) (d : Data) : Option Automation := do
  let f ← Fields.read? fieldNames d
  let id ← f.orElse "id" fresh Id.ofData?
  let name ← f.required "name" Data.text?
  let enabled ← f.orElse "enabled" true Data.bool?
  let triggers ← f.orElse "triggers" [] (Data.listOf? Trigger.ofData?)
  let actions ← f.orElse "actions" [] (Data.listOf? Action.ofData?)
  return { id, name, enabled, triggers, actions }

end Automation

end Hearth

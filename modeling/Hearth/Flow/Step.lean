import Hearth.Action
import Hearth.Flow.Basic
import Hearth.Flow.Inputs
import Hearth.Time.Seconds
import Hearth.Trigger

/-!
# Hearth.Flow.Step

What a single node of a flow asks for: the condition that it checks, the action that it takes, the
time that it waits, and where to go on afterwards.
-/

namespace Hearth.FlowNode

def missing (n : FlowNode) (field : String) : FlowFault := .missingData n.id.name field

def unsupported (n : FlowNode) : FlowFault := .unsupportedSubtype n.id.name n.subtype

def failed (n : FlowNode) (reason : String) : FlowFault := .nodeFailed n.id.name reason

def need {α : Type} (n : FlowNode) (field : String) (found : Option α) : Except FlowFault α :=
  match found with
  | some a => .ok a
  | none => .error (n.missing field)

/-! ### Conditions -/

/-- Whether a minute of the day lies in a window, which may go past midnight. The last minute does
not belong to it. -/
def inWindow (minute first last : Nat) : Bool :=
  if first ≤ last then first ≤ minute && minute < last
  else first ≤ minute || minute < last

def minuteField (n : FlowNode) (field : String) : Except FlowFault Nat := do
  let text ← n.need field (n.text? field)
  match TimeOfDay.read text with
  | .ok time => .ok time.minuteOfDay
  | .error fault => .error (n.failed fault.message)

/-- The comparison that a temperature has to pass. -/
def comparison (n : FlowNode) : Except FlowFault Comparison := do
  let operator ← n.need "operator" (n.get? "operator")
  match Comparison.ofData? operator with
  | some comparison => .ok comparison
  | none => .error (n.failed ("unknown operator " ++ Data.Json.write operator))

def inputDevice (n : FlowNode) : Option DeviceId := (n.text? "device_id").map DeviceId.mk

def holds (n : FlowNode) (inputs : FlowInputs) : Except FlowFault Bool :=
  match n.subtype with
  | "time_range" => do
    let first ← n.minuteField "start"
    let last ← n.minuteField "end"
    return inWindow inputs.minute first last
  | "temperature" => do
    let comparison ← n.comparison
    let threshold ← n.need "threshold" (n.float? "threshold")
    match inputs.temperature n.inputDevice with
    | some current => return comparison.holds current threshold
    | none => .error (n.failed "no temperature reading")
  | "presence" =>
    match inputs.presence n.inputDevice with
    | some present => return present == (n.bool? "expected").getD true
    | none => .error (n.failed "no presence reading")
  | _ => .error n.unsupported

/-! ### Actions -/

/-- The kind of action by the kind of device and a word for what to do with it. -/
def kindFor (n : FlowNode) (requested : Option String) : Except FlowFault ActionKind :=
  match n.subtype, requested with
  | "light", none => .error (n.missing "action")
  | "switch", none => .error (n.missing "action")
  | "thermostat", none => .ok .setTemperature
  | "light", some word =>
    match word with
    | "on" => .ok .turnOn
    | "off" => .ok .turnOff
    | "toggle" => .ok .toggle
    | "dim" | "brightness" => .ok .setBrightness
    | "color" => .ok .setColor
    | "temperature" => .ok .setTemperature
    | _ => .error (n.failed ("unknown action `" ++ word ++ "`"))
  | "switch", some word =>
    match word with
    | "on" => .ok .turnOn
    | "off" => .ok .turnOff
    | "toggle" => .ok .toggle
    | _ => .error (n.failed ("unknown action `" ++ word ++ "`"))
  | "thermostat", some word =>
    match word with
    | "temperature" | "set" => .ok .setTemperature
    | _ => .error (n.failed ("unknown action `" ++ word ++ "`"))
  | _, _ => .error n.unsupported

/-- The kind of action. The name of a kind is understood whatever the device. -/
def actionKind (n : FlowNode) : Except FlowFault ActionKind :=
  let requested := n.text? "action"
  match requested.bind ActionKind.ofText? with
  | some kind => .ok kind
  | none => n.kindFor requested

def action (n : FlowNode) : Except FlowFault Action := do
  let device ← n.need "device_id" (n.text? "device_id")
  let kind ← n.actionKind
  return { device := ⟨device⟩, kind, value := n.get? "value" }

/-! ### Delays -/

/-- The wait of a node that does not give one. -/
def standardDelay : Duration := .ofMillis 1000

def delay (n : FlowNode) : Except FlowFault Duration :=
  match n.get? "delay" with
  | none => .ok standardDelay
  | some given =>
    match given.float? with
    | none => .error (n.failed "delay must be a number of milliseconds")
    | some millis =>
      match Duration.ofSeconds? (millis / 1000.0) with
      | some delay => .ok delay
      | none => .error (n.failed ("invalid delay " ++ Number.display millis))

/-! ### Where to go on -/

/-- The nodes that come next: all connections, or the one for the side on which a condition came
out. -/
def following (n : FlowNode) : Option Bool → List NodeId
  | none => n.connections
  | some true => n.connections.head?.toList
  | some false => n.connections[1]?.toList

end Hearth.FlowNode

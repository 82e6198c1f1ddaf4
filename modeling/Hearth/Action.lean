import Hearth.Data.Fields
import Hearth.Fault
import Hearth.Id
import Hearth.Number.Nearest

/-!
# Hearth.Action

What an automation does: a command for one device. An `Action` is as people write it, with a free
value; a `Command` has been checked.
-/

namespace Hearth

inductive ActionKind
  | turnOn | turnOff | toggle | setBrightness | setColor | setTemperature
deriving DecidableEq, Repr, Inhabited

namespace ActionKind

def text : ActionKind → String
  | turnOn => "turn_on"
  | turnOff => "turn_off"
  | toggle => "toggle"
  | setBrightness => "set_brightness"
  | setColor => "set_color"
  | setTemperature => "set_temperature"

def ofText? : String → Option ActionKind
  | "turn_on" => some turnOn
  | "turn_off" => some turnOff
  | "toggle" => some toggle
  | "set_brightness" => some setBrightness
  | "set_color" => some setColor
  | "set_temperature" => some setTemperature
  | _ => none

theorem ofText?_text (k : ActionKind) : ofText? k.text = some k := by
  cases k <;> rfl

/-- The kind that undoes this one. Earlier brightness, colour and temperature are not known, and
neither is the side from which a device was toggled. -/
def inverse? : ActionKind → Option ActionKind
  | turnOn => some turnOff
  | turnOff => some turnOn
  | _ => none

def requiresValue : ActionKind → Bool
  | setBrightness => true
  | setColor => true
  | setTemperature => true
  | _ => false

end ActionKind

structure Action where
  device : DeviceId
  kind : ActionKind
  value : Option Data
deriving Repr, Inhabited

/-- A checked command: the brightness is a percentage, the colour is `#` and six lower-case
hexadecimal digits, the temperature is that of the colour in Kelvin. -/
inductive Command
  | turnOn
  | turnOff
  | toggle
  | setBrightness (percent : Nat)
  | setColor (hex : String)
  | setTemperature (kelvin : Nat)
deriving DecidableEq, Repr, Inhabited

namespace Command

def kind : Command → ActionKind
  | turnOn => .turnOn
  | turnOff => .turnOff
  | toggle => .toggle
  | setBrightness _ => .setBrightness
  | setColor _ => .setColor
  | setTemperature _ => .setTemperature

def argument? : Command → Option Data
  | setBrightness percent => some (.nat percent)
  | setColor hex => some (.text hex)
  | setTemperature kelvin => some (.nat kelvin)
  | _ => none

def toData (c : Command) : Data := .list (.text c.kind.text :: c.argument?.toList)

end Command

namespace Action

/-- A number from 0 to 100, rounded to the nearest whole one. -/
def readBrightness (value : Data) : Except RecordFault Nat :=
  match value.float? with
  | none => .error (.invalidValue "brightness" "expected a number")
  | some x =>
    if 0.0 ≤ x && x ≤ 100.0 then .ok (Number.nearestWhole x)
    else .error (.invalidValue "brightness" "expected 0-100")

/-- Six hexadecimal digits, which a `#` may precede. -/
def readColor (value : Data) : Except RecordFault String :=
  let invalid : RecordFault :=
    .invalidValue "color" ("expected #rrggbb, got " ++ Data.Json.write value)
  match value with
  | .text s =>
    let digits :=
      match s.toList with
      | '#' :: rest => rest
      | cs => cs
    if digits.length = 6 ∧ digits.all fun c => (Data.Json.hexValue? c).isSome then
      .ok (String.ofList ('#' :: digits.map Char.toLower))
    else .error invalid
  | _ => .error invalid

/-- A positive number of at most 32 bits, rounded to the nearest whole one. -/
def readKelvin (value : Data) : Except RecordFault Nat :=
  match value.float? with
  | none => .error (.invalidValue "temperature" "expected a number")
  | some x =>
    if x ≤ 0.0 || x > 4294967295.0 then
      .error (.invalidValue "temperature" "expected a positive Kelvin value")
    else .ok (Number.nearestWhole x)

/-- The value that an action needs; `null` is no value. -/
def neededValue (a : Action) : Except RecordFault Data :=
  match a.value with
  | none => .error (.missingValue a.kind.text)
  | some .null => .error (.missingValue a.kind.text)
  | some value => .ok value

/-- Checks the value against the kind. The value of an action that needs none is ignored. -/
def command (a : Action) : Except RecordFault Command :=
  match a.kind with
  | .turnOn => .ok .turnOn
  | .turnOff => .ok .turnOff
  | .toggle => .ok .toggle
  | .setBrightness => do return .setBrightness (← readBrightness (← a.neededValue))
  | .setColor => do return .setColor (← readColor (← a.neededValue))
  | .setTemperature => do return .setTemperature (← readKelvin (← a.neededValue))

def display (a : Action) : String :=
  match a.value with
  | some value => a.kind.text ++ "(" ++ a.device.name ++ ", " ++ Data.Json.write value ++ ")"
  | none => a.kind.text ++ "(" ++ a.device.name ++ ")"

def toData (a : Action) : Data :=
  .record ([("device_id", a.device.toData), ("action", .text a.kind.text)]
    ++ (a.value.map fun value => ("value", value)).toList)

def fieldNames : List String := ["device_id", "action", "value"]

def ofData? (d : Data) : Option Action := do
  let f ← Fields.read? fieldNames d
  let device ← f.required "device_id" DeviceId.ofData?
  let kind ← f.required "action" fun d => d.word?.bind ActionKind.ofText?
  let value ← f.optional "value" fun d => some d.normalize
  return { device, kind, value }

end Action

end Hearth

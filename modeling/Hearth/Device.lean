import Hearth.Data.Time
import Hearth.Id

/-!
# Hearth.Device

Devices as the engine sees them: a name, a kind, and the one value that the device reports.
-/

namespace Hearth

inductive DeviceKind
  | light | switch | sensor | thermostat | other
deriving DecidableEq, Repr, Inhabited

namespace DeviceKind

def text : DeviceKind → String
  | light => "light"
  | switch => "switch"
  | sensor => "sensor"
  | thermostat => "thermostat"
  | other => "other"

def ofText? : String → Option DeviceKind
  | "light" => some light
  | "switch" => some switch
  | "sensor" => some sensor
  | "thermostat" => some thermostat
  | "other" => some other
  | _ => none

theorem ofText?_text (k : DeviceKind) : ofText? k.text = some k := by
  cases k <;> rfl

end DeviceKind

/-- Switches and lights report a truth value, sensors and thermostats a number, and devices with
modes a text. -/
inductive DeviceValue
  | bool (on : Bool)
  | number (x : Float)
  | text (s : String)
deriving Repr, Inhabited

namespace DeviceValue

def asBool? : DeviceValue → Option Bool
  | bool on => some on
  | _ => none

def display : DeviceValue → String
  | bool true => "true"
  | bool false => "false"
  | number x => Number.display x
  | text s => s

def toData : DeviceValue → Data
  | bool on => .bool on
  | number x => .finite x
  | text s => .text s

/-- The form of the data decides the form of the value. -/
def ofData? : Data → Option DeviceValue
  | .bool on => some (bool on)
  | .number n => some (number n.toFloat)
  | .text s => some (text s)
  | _ => none

end DeviceValue

structure Device where
  id : DeviceId
  name : String
  kind : DeviceKind
  online : Bool
  value : DeviceValue
  updatedAt : Instant
deriving Repr, Inhabited

namespace Device

/-- Only a device that reports a truth value can be on. -/
def isOn (d : Device) : Bool :=
  d.value.asBool?.getD false

def toData (d : Device) : Data :=
  .record [("id", d.id.toData), ("name", .text d.name), ("kind", .text d.kind.text),
    ("online", .bool d.online), ("value", d.value.toData), ("updated_at", d.updatedAt.toData)]

def reported (d : Device) : Data := .list [d.id.toData, d.value.toData]

def fieldNames : List String := ["id", "name", "kind", "online", "value", "updated_at"]

/-- Reads a device. One without a time of its own was updated at `now`. -/
def ofData? (now : Instant) (d : Data) : Option Device := do
  let f ← Fields.read? fieldNames d
  let id ← f.required "id" DeviceId.ofData?
  let name ← f.required "name" Data.text?
  let kind ← f.orElse "kind" .other fun d => d.word?.bind DeviceKind.ofText?
  let online ← f.orElse "online" true Data.bool?
  let value ← f.required "value" DeviceValue.ofData?
  let updatedAt ← f.orElse "updated_at" now Instant.ofData?
  return { id, name, kind, online, value, updatedAt }

end Device

end Hearth

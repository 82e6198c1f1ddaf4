import Hearth.Data.Fields
import Hearth.Fault
import Hearth.Id
import Hearth.Solar
import Hearth.Time.Clock

/-!
# Hearth.Trigger

What makes an automation fire: a time of day, the sun, the value of a device, the crossing of a
geofence, or nothing but a request.
-/

namespace Hearth

/-- How a number is compared with a threshold. -/
inductive Comparison
  | less | greater | equal | notEqual
deriving DecidableEq, Repr, Inhabited

namespace Comparison

/-- Two numbers closer together than this count as equal. -/
def tolerance : Float := 0.01

def holds (op : Comparison) (actual threshold : Float) : Bool :=
  match op with
  | less => actual < threshold
  | greater => actual > threshold
  | equal => (actual - threshold).abs < tolerance
  | notEqual => (actual - threshold).abs ≥ tolerance

def symbol : Comparison → String
  | less => "<"
  | greater => ">"
  | equal => "=="
  | notEqual => "!="

/-- Reads a symbol or a two-letter name. -/
def ofText? : String → Option Comparison
  | "<" => some less
  | "lt" => some less
  | ">" => some greater
  | "gt" => some greater
  | "==" => some equal
  | "eq" => some equal
  | "!=" => some notEqual
  | "ne" => some notEqual
  | _ => none

def ofData? (d : Data) : Option Comparison := d.word?.bind ofText?

theorem ofText?_symbol (op : Comparison) : ofText? op.symbol = some op := by
  cases op <;> rfl

end Comparison

/-- The direction in which a geofence is crossed. -/
inductive Crossing
  | enter | leave
deriving DecidableEq, Repr, Inhabited

namespace Crossing

def text : Crossing → String
  | enter => "enter"
  | leave => "leave"

def ofText? : String → Option Crossing
  | "enter" => some enter
  | "leave" => some leave
  | _ => none

theorem ofText?_text (c : Crossing) : ofText? c.text = some c := by
  cases c <;> rfl

end Crossing

/-- Times and days are kept as they were written. No days, or an empty list of days, stand for every
day. -/
inductive Trigger
  | time (time : String) (days : Option (List String))
  /-- `offset` minutes after the event, or before it if negative. -/
  | sun (event : SunEvent) (offset : Int) (days : Option (List String))
  /-- The device may be missing; that is a fault of the trigger, not of the automation as a whole. -/
  | condition (device : Option DeviceId) (comparison : Option Comparison)
      (threshold : Option Float) (value : Option Data)
  | geofence (fence : GeofenceId) (crossing : Crossing)
  | manual
deriving Repr, Inhabited

namespace Trigger

/-- The device whose value a condition watches. -/
def device? : Trigger → Option DeviceId
  | condition device _ _ _ => device
  | _ => none

/-- The value that a condition asks for. -/
def value? : Trigger → Option Data
  | condition _ _ _ value => value
  | _ => none

def isSchedule : Trigger → Bool
  | time _ _ => true
  | sun _ _ _ => true
  | _ => false

def isCondition : Trigger → Bool
  | condition _ _ _ _ => true
  | _ => false

/-- Checks what is written in the trigger at the given position. -/
def check (index : Nat) : Trigger → Except TriggerFault Unit
  | time written days => do
    let _ ← TimeOfDay.read written
    let _ ← Weekday.readAll (days.getD [])
  | sun _ _ days => do
    let _ ← Weekday.readAll (days.getD [])
  | condition none _ _ _ => .error (.missingDevice index)
  | condition (some _) _ _ _ => .ok ()
  | geofence _ _ => .ok ()
  | manual => .ok ()

/-- A whole number that always has a sign. -/
def signedText (n : Int) : String :=
  if n < 0 then toString n else "+" ++ toString n

def display : Trigger → String
  | time written (some (day :: days)) =>
    "time(" ++ written ++ " on " ++ ",".intercalate (day :: days) ++ ")"
  | time written _ => "time(" ++ written ++ ")"
  | sun event offset _ => "sun(" ++ event.text ++ signedText offset ++ "m)"
  | condition device comparison _ _ =>
    let name := (device.map DeviceId.name).getD "?"
    match comparison with
    | some op => "condition(" ++ name ++ " " ++ op.symbol ++ ")"
    | none => "condition(" ++ name ++ ")"
  | geofence fence crossing => "geofence(" ++ crossing.text ++ " " ++ fence.text ++ ")"
  | manual => "manual"

/-! ### Data -/

def daysToData (days : Option (List String)) : Data :=
  Data.ofOption (Data.ofList .text) days

def toData : Trigger → Data
  | time written days =>
    .record [("type", .text "time"), ("time", .text written), ("days", daysToData days)]
  | sun event offset days =>
    .record [("type", .text "sun"), ("event", .text event.text), ("offset_minutes", .whole offset),
      ("days", daysToData days)]
  | condition device comparison threshold value =>
    .record [("type", .text "condition"), ("device_id", Data.ofOption DeviceId.toData device),
      ("operator", Data.ofOption (fun op => .text op.symbol) comparison),
      ("threshold", Data.ofOption .finite threshold), ("value", value.getD .null)]
  | geofence fence crossing =>
    .record [("type", .text "geofence"), ("geofence_id", fence.toData),
      ("event", .text crossing.text)]
  | manual => .record [("type", .text "manual")]

/-- A record with a tag: the word of the entry `type` and the record without it, or the first item
of a list and the list without it. -/
def readTag? : Data → Option (String × Data)
  | .record entries =>
    match entries.filter fun entry => entry.1 == "type" with
    | [(_, tag)] => tag.text?.map fun tag => (tag, .record (entries.filter fun e => e.1 != "type"))
    | _ => none
  | .list (tag :: items) => tag.text?.map fun tag => (tag, .list items)
  | _ => none

def readDays? : Data → Option (List String) := Data.listOf? Data.text?

/-- Reads a trigger; `device_state` is another name for a condition. -/
def ofData? (d : Data) : Option Trigger := do
  let (tag, body) ← readTag? d
  match tag with
  | "time" => do
    let f ← Fields.read? ["time", "days"] body
    let written ← f.required "time" Data.text?
    let days ← f.optional "days" readDays?
    return time written days
  | "sun" => do
    let f ← Fields.read? ["event", "offset_minutes", "days"] body
    let event ← f.required "event" fun d => d.looseWord?.bind SunEvent.ofText?
    let offset ← f.orElse "offset_minutes" 0 (Data.wholeIn? (-2147483648) 2147483647)
    let days ← f.optional "days" readDays?
    return sun event offset days
  | "condition" | "device_state" => do
    let f ← Fields.read? ["device_id", "operator", "threshold", "value"] body
    let device ← f.optional "device_id" DeviceId.ofData?
    let comparison ← f.optional "operator" fun d => d.looseWord?.bind Comparison.ofText?
    let threshold ← f.optional "threshold" Data.float?
    let value ← f.optional "value" fun d => some d.normalize
    return condition device comparison threshold value
  | "geofence" => do
    let f ← Fields.read? ["geofence_id", "event"] body
    let fence ← f.required "geofence_id" Id.ofData?
    let crossing ← f.required "event" fun d => d.looseWord?.bind Crossing.ofText?
    return geofence fence crossing
  | "manual" =>
    match body with
    | .list (_ :: _) => none
    | _ => some manual
  | _ => none

end Trigger

end Hearth

import Hearth.Data.Basic
import Hearth.Number.Digits
import Hearth.Number.Text
import Hearth.Time.Duration

/-!
# Hearth.Fault

What can go wrong, by cause, and the wording of each cause.
-/

namespace Hearth

/-- A trigger or schedule that cannot be armed as it is written. -/
inductive TriggerFault
  /-- The trigger at this position watches no device. -/
  | missingDevice (index : Nat)
  | invalidTime (text : String)
  | unknownDay (name : String)
  | missingLocation
  /-- No day of the coming week has an occurrence of the schedule. -/
  | noOccurrence (schedule : String)
deriving DecidableEq, Repr

/-- A search for the next occurrence of a trigger that gives none: the trigger is at fault, or the search
has crashed. -/
inductive SearchFault
  | trigger (fault : TriggerFault)
  | crash
deriving DecidableEq, Repr

/-- A record that breaks one of its rules. -/
inductive RecordFault
  | emptyName
  | invalidCoordinates (lat lng : Float)
  | invalidRadius (radius : Float)
  | missingValue (action : String)
  | invalidValue (field reason : String)
deriving Repr

/-- A flow that does not run, or a node that fails in one that does. -/
inductive FlowFault
  | disabled
  | invalid (issues : List String)
  | tooDeep (limit : Nat)
  | unsupportedSubtype (node subtype : String)
  | missingData (node field : String)
  | nodeFailed (node reason : String)
deriving DecidableEq, Repr

/-- Any failure of an operation of the engine. -/
inductive Failure
  | trigger (fault : TriggerFault)
  | record (fault : RecordFault)
  | notFound (entity id : String)
  /-- A device did not carry out a command. A passing failure may be cured by trying again; a refusal
  by the device is not. -/
  | device (message : String) (passing : Bool)
  | timeout (operation : String) (limit : Duration)
  | flow (fault : FlowFault)
  | permissionDenied
deriving Repr

namespace TriggerFault

def message : TriggerFault → String
  | missingDevice index => s!"trigger #{index} requires a device_id"
  | invalidTime text => "invalid time `" ++ text ++ "`, expected HH:MM"
  | unknownDay name => "unknown day name `" ++ name ++ "`"
  | missingLocation => "sun triggers require a configured location"
  | noOccurrence schedule => "no upcoming occurrence for schedule `" ++ schedule ++ "`"

end TriggerFault

namespace RecordFault

def message : RecordFault → String
  | emptyName => "name must not be empty"
  | invalidCoordinates lat lng =>
    "coordinates out of range: lat=" ++ Number.display lat ++ ", lng=" ++ Number.display lng
  | invalidRadius radius => "radius must be positive, got " ++ Number.display radius
  | missingValue action => "action `" ++ action ++ "` requires a value"
  | invalidValue field reason => "invalid value for `" ++ field ++ "`: " ++ reason

end RecordFault

namespace FlowFault

def message : FlowFault → String
  | disabled => "flow is disabled"
  | invalid issues => "flow failed validation: " ++ "; ".intercalate issues
  | tooDeep limit => s!"maximum depth of {limit} exceeded"
  | unsupportedSubtype node subtype =>
    "node `" ++ node ++ "` has unsupported subtype `" ++ subtype ++ "`"
  | missingData node field => "node `" ++ node ++ "` is missing `" ++ field ++ "`"
  | nodeFailed node reason => "node `" ++ node ++ "` failed: " ++ reason

end FlowFault

namespace Failure

def message : Failure → String
  | trigger fault => "configuration error: " ++ fault.message
  | record fault => "validation error: " ++ fault.message
  | notFound entity id => entity ++ " not found: " ++ id
  | device message _ => "device error: " ++ message
  | timeout operation limit => operation ++ s!" timed out after {limit.millis}ms"
  | flow fault => "flow error: " ++ fault.message
  | permissionDenied => "location permission denied"

/-- Whether the same operation may succeed when it is tried again. -/
def isPassing : Failure → Bool
  | device _ passing => passing
  | timeout _ _ => true
  | _ => false

/-- Reads a failure with a text and, for a timeout, a limit in microseconds. -/
def ofData? (d : Data) : Option Failure :=
  let text := (d.entry "text").text?.getD "failed"
  match d.textAt "kind" with
  | "transient" => some (device text true)
  | "rejected" => some (device text false)
  | "timeout" =>
    some (timeout text (.ofMicros (((d.entry "us").natUpTo? Number.maxWord64).getD 0)))
  | "not_found" => some (notFound "Thing" text)
  | "permission" => some permissionDenied
  | _ => none

end Failure

end Hearth

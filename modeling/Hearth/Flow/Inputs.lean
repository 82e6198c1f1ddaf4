import Hearth.Device
import Hearth.Number.Decimal
import Hearth.Text.Blank
import Hearth.Time.Clock

/-!
# Hearth.Flow.Inputs

What the conditions of a flow can ask for: a temperature, whether someone is present, and the time
of day. A condition may name the device to ask; otherwise the sensor for the purpose is asked.
-/

namespace Hearth

/-- What is known at a moment, for any device that a condition may name. -/
structure FlowInputs where
  temperature : Option DeviceId → Option Float
  presence : Option DeviceId → Option Bool
  /-- The minutes since midnight by the local clock. -/
  minute : Nat

/-- The devices and the clock that the answers come from. -/
structure Sensors where
  lookup : DeviceId → Option Device
  temperatureSensor : Option DeviceId
  presenceSensor : Option DeviceId
  localTime : LocalTime

namespace Sensors

/-- What the named device reports, or the sensor if none is named. -/
def valueOf (s : Sensors) (source sensor : Option DeviceId) : Option DeviceValue := do
  let id ← source.or sensor
  let device ← s.lookup id
  return device.value

/-- A temperature may be reported as a number or as the text of one. -/
def temperatureOf? : DeviceValue → Option Float
  | .number x => some x
  | .text s => Number.readFloat? (Text.trim s)
  | .bool _ => none

/-- Someone is present by a truth value, a positive number or one of a few words. -/
def presenceOf? : DeviceValue → Option Bool
  | .bool present => some present
  | .number x => some (x > 0.0)
  | .text s =>
    match Text.asciiLower s with
    | "home" | "present" | "on" | "detected" => some true
    | "away" | "not_home" | "off" | "clear" => some false
    | _ => none

def inputs (s : Sensors) : FlowInputs where
  temperature source := (s.valueOf source s.temperatureSensor).bind temperatureOf?
  presence source := (s.valueOf source s.presenceSensor).bind presenceOf?
  minute := s.localTime.timeOfDay.minuteOfDay

end Sensors

end Hearth

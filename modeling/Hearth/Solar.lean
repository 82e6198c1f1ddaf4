import Hearth.Geo
import Hearth.Number.Remainder
import Hearth.Time.Moment

/-!
# Hearth.Solar

Sunrise, sunset and solar noon to within a minute or two: from the mean longitude and anomaly of the
sun to its ecliptic longitude, its declination, the equation of time, and the hour angle at which
the sun stands on the horizon.
-/

namespace Hearth

open Number (modulo degreesToRadians radiansToDegrees)

inductive SunEvent
  | sunrise | sunset
deriving DecidableEq, Repr, Inhabited

namespace SunEvent

def text : SunEvent → String
  | sunrise => "sunrise"
  | sunset => "sunset"

def ofText? : String → Option SunEvent
  | "sunrise" => some sunrise
  | "sunset" => some sunset
  | _ => none

theorem ofText?_text (e : SunEvent) : ofText? e.text = some e := by
  cases e <;> rfl

end SunEvent

/-- The events of a day on a local clock. Where the sun stays up or down all day, it neither rises
nor sets. -/
structure SolarTimes where
  sunrise : Option TimeOfDay
  sunset : Option TimeOfDay
  noon : TimeOfDay
deriving DecidableEq, Repr

def SolarTimes.at? (t : SolarTimes) : SunEvent → Option TimeOfDay
  | .sunrise => t.sunrise
  | .sunset => t.sunset

def SolarTimes.toData (t : SolarTimes) : Data :=
  .record [("sunrise", .ofText? (t.sunrise.map TimeOfDay.text)),
    ("sunset", .ofText? (t.sunset.map TimeOfDay.text)), ("solar_noon", .text t.noon.text)]

namespace Solar

/-- The Julian day number at noon of 1 January 2000. -/
def epoch : Float := 2451545.0

/-- Days since 1 January 2000, which is 10957 days after 1 January 1970. -/
def daysSinceEpoch (date : Date) : Float :=
  Float.ofInt (date.day - 10957)

/-- The Julian day number at noon of a date. -/
def julianDay (date : Date) : Float :=
  epoch + daysSinceEpoch date

/-- The altitude of the sun's centre as its upper edge appears on the horizon, in degrees. -/
def horizon : Float := -0.833

/-- Minutes since midnight as a time of day, to the nearest second. -/
def clockTime (minutes : Float) : TimeOfDay :=
  TimeOfDay.ofSeconds (modulo minutes 1440.0 * 60.0).round.toUInt32.toNat

/-- The sun's mean longitude, in degrees. -/
def meanLongitude (n : Float) : Float :=
  modulo (280.460 + 0.9856474 * n) 360.0

/-- The sun's ecliptic longitude, in radians. -/
def eclipticLongitude (n : Float) : Float :=
  let anomaly := degreesToRadians (modulo (357.528 + 0.9856003 * n) 360.0)
  degreesToRadians (meanLongitude n + 1.915 * anomaly.sin + 0.020 * (2.0 * anomaly).sin)

/-- The tilt of the Earth's axis, in radians. -/
def obliquity (n : Float) : Float :=
  degreesToRadians (23.439 - 0.0000004 * n)

def declination (n : Float) : Float :=
  ((obliquity n).sin * (eclipticLongitude n).sin).asin

def rightAscension (n : Float) : Float :=
  let longitude := eclipticLongitude n
  modulo (radiansToDegrees (Float.atan2 ((obliquity n).cos * longitude.sin) longitude.cos)) 360.0

/-- How far the sun is ahead of the clock, in minutes, less than half a day in either direction. -/
def equationOfTime (n : Float) : Float :=
  4.0 * (modulo (meanLongitude n - rightAscension n + 180.0) 360.0 - 180.0)

/-- The events of a date at a place, on a clock that is `offset` minutes ahead of universal time. -/
def times (place : Coordinates) (date : Date) (offset : Int) : SolarTimes :=
  let n := julianDay date - epoch
  let noon := 720.0 - 4.0 * place.lng - equationOfTime n + Float.ofInt offset
  let phi := degreesToRadians place.lat
  let tilt := declination n
  let cosHourAngle :=
    ((degreesToRadians horizon).sin - phi.sin * tilt.sin) / (phi.cos * tilt.cos)
  if -1.0 ≤ cosHourAngle && cosHourAngle ≤ 1.0 then
    let halfDay := 4.0 * radiansToDegrees cosHourAngle.acos
    ⟨some (clockTime (noon - halfDay)), some (clockTime (noon + halfDay)), clockTime noon⟩
  else ⟨none, none, clockTime noon⟩

end Solar

end Hearth

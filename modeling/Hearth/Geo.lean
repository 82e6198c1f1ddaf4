import Hearth.Data.Real
import Hearth.Data.Time
import Hearth.Fault
import Hearth.Id
import Hearth.Number.Remainder

/-!
# Hearth.Geo

Points on the globe, the distance between them along a great circle, and position fixes.
-/

namespace Hearth

open Number (degreesToRadians)

/-- Decimal degrees. -/
structure Coordinates where
  lat : Float
  lng : Float
deriving Repr, Inhabited

namespace Coordinates

/-- Latitude within 90 degrees and longitude within 180 degrees of zero. -/
def inRange (c : Coordinates) : Bool :=
  -90.0 ≤ c.lat && c.lat ≤ 90.0 && -180.0 ≤ c.lng && c.lng ≤ 180.0

def check (c : Coordinates) : Except RecordFault Coordinates :=
  if c.inRange then .ok c else .error (.invalidCoordinates c.lat c.lng)

/-- The same two numbers. -/
def same (c d : Coordinates) : Bool :=
  c.lat == d.lat && c.lng == d.lng

def toData (c : Coordinates) : Data :=
  .record [("lat", .finite c.lat), ("lng", .finite c.lng)]

def fieldNames : List String := ["lat", "lng"]

def ofData? (d : Data) : Option Coordinates := do
  let f ← Fields.read? fieldNames d
  let lat ← f.required "lat" Data.float?
  let lng ← f.required "lng" Data.float?
  return { lat, lng }

/-- Reads the two entries, whose numbers need not be finite. -/
def ofEntries? (d : Data) : Option Coordinates := do
  let lat ← (d.entry "lat").anyReal?
  let lng ← (d.entry "lng").anyReal?
  return { lat, lng }

end Coordinates

/-- The mean radius of the Earth in metres. -/
def earthRadius : Float := 6371000.0

/-- Half the chord of an arc on the unit sphere, squared. -/
def haversine (arc : Float) : Float :=
  let s := (arc / 2.0).sin
  s * s

/-- The distance in metres along the great circle through two points. The square root may exceed one
by a rounding error and is kept within the domain of the arc sine. -/
def distance (a b : Coordinates) : Float :=
  let h := haversine (degreesToRadians (b.lat - a.lat))
    + (degreesToRadians a.lat).cos * (degreesToRadians b.lat).cos
      * haversine (degreesToRadians (b.lng - a.lng))
  let chord := h.sqrt
  let chord := if chord < 1.0 then chord else 1.0
  earthRadius * (2.0 * chord.asin)

def millimetres (metres : Float) : Int := (metres * 1000.0).round.toInt64.toInt

/-- A position fix. The true position lies within `accuracy` metres of the point. -/
structure Location where
  lat : Float
  lng : Float
  accuracy : Float
  timestamp : Instant
deriving Repr, Inhabited

namespace Location

def point (l : Location) : Coordinates := ⟨l.lat, l.lng⟩

def toData (l : Location) : Data :=
  .record [("lat", .finite l.lat), ("lng", .finite l.lng), ("accuracy", .finite l.accuracy),
    ("timestamp", l.timestamp.toData)]

/-- With numbers that need not be finite. -/
def inFull (l : Location) : Data :=
  .record [("lat", .anyReal l.lat), ("lng", .anyReal l.lng), ("accuracy", .anyReal l.accuracy),
    ("timestamp", l.timestamp.toData)]

def ofData? (d : Data) : Option Location := do
  let point ← Coordinates.ofEntries? d
  let accuracy ← (d.entry "accuracy").anyReal?
  let timestamp ← Instant.ofData? (d.entry "timestamp")
  return { lat := point.lat, lng := point.lng, accuracy, timestamp }

end Location

end Hearth

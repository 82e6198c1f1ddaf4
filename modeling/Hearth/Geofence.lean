import Hearth.Geo
import Hearth.Trigger

/-!
# Hearth.Geofence

Circular regions, and whether the tracked person is inside. Containment is unknown until the first
fix; a first fix outside is no event, a first fix inside is an entry.
-/

namespace Hearth

structure Geofence where
  id : GeofenceId
  name : String
  center : Coordinates
  /-- In metres. -/
  radius : Float
  enabled : Bool
  created : Instant
deriving Repr, Inhabited

namespace Geofence

/-- The name holds more than blanks, the centre is on the globe, and the radius is finite and
positive; the first rule that is broken is the fault. -/
def check (g : Geofence) : Except RecordFault Unit :=
  if Text.isBlankText g.name then .error .emptyName
  else if !g.center.inRange then .error (.invalidCoordinates g.center.lat g.center.lng)
  else if !g.radius.isFinite || g.radius ≤ 0.0 then .error (.invalidRadius g.radius)
  else .ok ()

def distanceTo (g : Geofence) (p : Coordinates) : Float :=
  distance g.center p

/-- The edge belongs to the region. -/
def contains (g : Geofence) (p : Coordinates) : Bool :=
  g.distanceTo p ≤ g.radius

/-- An enabled geofence that has passed its checks. -/
def create (id : GeofenceId) (created : Instant) (name : String) (center : Coordinates)
    (radius : Float) : Except RecordFault Geofence :=
  let g : Geofence := { id, name, center, radius, enabled := true, created }
  g.check.map fun () => g

structure Update where
  name : Option String
  center : Option Coordinates
  radius : Option Float
  enabled : Option Bool
deriving Repr, Inhabited

/-- The changed geofence, if it passes its checks. -/
def Update.apply (u : Update) (g : Geofence) : Except RecordFault Geofence :=
  let changed : Geofence :=
    { g with
      name := u.name.getD g.name
      center := u.center.getD g.center
      radius := u.radius.getD g.radius
      enabled := u.enabled.getD g.enabled }
  changed.check.map fun () => changed

def toData (g : Geofence) : Data :=
  .record [("id", g.id.toData), ("name", .text g.name), ("center", g.center.toData),
    ("radius", .finite g.radius), ("enabled", .bool g.enabled), ("created", g.created.toData)]

def fieldNames : List String := ["id", "name", "center", "radius", "enabled", "created"]

/-- Reads a geofence. One without an identifier gets `fresh`; one without a time of creation was
created at `now`. -/
def ofData? (fresh : GeofenceId) (now : Instant) (d : Data) : Option Geofence := do
  let f ← Fields.read? fieldNames d
  let id ← f.orElse "id" fresh Id.ofData?
  let name ← f.required "name" Data.text?
  let center ← f.required "center" Coordinates.ofData?
  let radius ← f.required "radius" Data.float?
  let enabled ← f.orElse "enabled" true Data.bool?
  let created ← f.orElse "created" now Instant.ofData?
  return { id, name, center, radius, enabled, created }

def Update.ofData? (d : Data) : Option Update := do
  let f ← Fields.read? ["name", "center", "radius", "enabled"] d
  let name ← f.named "name" Data.text?
  let center ← f.named "center" Coordinates.ofData?
  let radius ← f.named "radius" Data.float?
  let enabled ← f.named "enabled" Data.bool?
  return { name, center, radius, enabled }

end Geofence

/-- What is known about a geofence. The times of the last entry and the last departure are kept when
the other one happens. -/
structure Containment where
  fence : GeofenceId
  inside : Option Bool
  lastUpdate : Option Instant
  enteredAt : Option Instant
  leftAt : Option Instant
deriving DecidableEq, Repr, Inhabited

namespace Containment

def unknown (fence : GeofenceId) : Containment :=
  { fence, inside := none, lastUpdate := none, enteredAt := none, leftAt := none }

/-- Takes in that the person is inside, or not, and tells the crossing that this amounts to. -/
def observe (c : Containment) (inside : Bool) (time : Instant) : Option Crossing × Containment :=
  let seen := { c with inside := some inside, lastUpdate := some time }
  match c.inside, inside with
  | none, true => (some .enter, { seen with enteredAt := some time })
  | some false, true => (some .enter, { seen with enteredAt := some time })
  | some true, false => (some .leave, { seen with leftAt := some time })
  | _, _ => (none, seen)

def toData (c : Containment) : Data :=
  .record [("geofence_id", c.fence.toData), ("is_inside", Data.ofOption .bool c.inside),
    ("last_update", Data.ofOption Instant.toData c.lastUpdate),
    ("entered_at", Data.ofOption Instant.toData c.enteredAt),
    ("left_at", Data.ofOption Instant.toData c.leftAt)]

def observeAll (c : Containment) : List (Bool × Instant) → List (Option Crossing × Containment)
  | [] => []
  | (inside, time) :: rest =>
    let seen := c.observe inside time
    seen :: seen.2.observeAll rest

end Containment

/-- A crossing of a geofence and the fix that showed it. -/
structure Transition where
  fence : GeofenceId
  name : String
  crossing : Crossing
  location : Location
  distance : Float
deriving Repr, Inhabited

def Transition.toData (t : Transition) : Data :=
  .record [("geofence_id", t.fence.toData), ("geofence_name", .text t.name),
    ("kind", .text t.crossing.text), ("location", t.location.toData),
    ("distance", .finite t.distance)]

/-- With the distance in whole millimetres, and with numbers that need not be finite. -/
def Transition.inFull (t : Transition) : Data :=
  .record [("geofence_id", t.fence.toData), ("name", .text t.name),
    ("kind", .text t.crossing.text), ("location", t.location.inFull),
    ("distance_mm", .whole (millimetres t.distance))]

end Hearth

import Hearth.Automation
import Hearth.Geofence
import Hearth.Table

/-!
# Hearth.Tracking.Tracker

The geofences, what is known about each of them, and the automations that wait for a crossing. A fix
that is not accurate enough is kept on record but changes nothing else.
-/

namespace Hearth

structure TrackerConfig where
  /-- A fix counts if its accuracy is this many metres or better. -/
  minAccuracy : Float
  /-- The time between two looks at the current position. -/
  pollInterval : Duration
  /-- How many fixes are kept on record. -/
  auditCapacity : Nat
deriving Repr, Inhabited

def TrackerConfig.standard : TrackerConfig :=
  { minAccuracy := 100.0, pollInterval := .ofSecs 30, auditCapacity := 100 }

/-- Reads a configuration with the interval in milliseconds; what is missing takes its standard. -/
def TrackerConfig.ofMillis? (d : Data) : Option TrackerConfig := do
  let minAccuracy ← (d.entry "min_accuracy").orElse? standard.minAccuracy Data.anyReal?
  return {
    minAccuracy
    pollInterval := (Duration.ofMillisData? (d.entry "poll_ms")).getD standard.pollInterval
    auditCapacity := ((d.entry "audit_capacity").natUpTo? Number.maxWord64).getD
      standard.auditCapacity }

structure FixRecord where
  location : Location
  accepted : Bool
deriving Repr, Inhabited

def FixRecord.inFull (r : FixRecord) : Data :=
  .record [("location", r.location.inFull), ("accepted", .bool r.accepted)]

/-- A crossing of a geofence that an automation waits for. -/
structure CrossingKey where
  fence : GeofenceId
  crossing : Crossing
deriving DecidableEq, Repr, Inhabited

structure Tracker where
  fences : Table GeofenceId Geofence
  containment : Table GeofenceId Containment
  /-- From the oldest to the newest. -/
  audit : List FixRecord
  /-- The automations that wait for a crossing, as they were when they were watched. -/
  automations : Table AutomationId Automation
  watchers : Table CrossingKey (List AutomationId)
deriving Repr, Inhabited

namespace Tracker

def empty : Tracker := ⟨.empty, .empty, [], .empty, .empty⟩

/-! ### Geofences -/

/-- Enters a geofence in place of the one with its identifier; nothing is known about it then. -/
def insert (t : Tracker) (g : Geofence) : Except Failure Unit × Tracker :=
  match g.check with
  | .error fault => (.error (.record fault), t)
  | .ok () =>
    (.ok (), { t with
      fences := t.fences.insert g.id g
      containment := t.containment.insert g.id (.unknown g.id) })

def create (t : Tracker) (id : GeofenceId) (created : Instant) (name : String)
    (center : Coordinates) (radius : Float) : Except Failure Geofence × Tracker :=
  match Geofence.create id created name center radius with
  | .error fault => (.error (.record fault), t)
  | .ok g =>
    match t.insert g with
    | (.ok (), t) => (.ok g, t)
    | (.error failure, t) => (.error failure, t)

def notFound (id : GeofenceId) : Failure := .notFound "geofence" id.text

/-- Changes a geofence. One that is moved or resized is as if it were new. -/
def update (t : Tracker) (id : GeofenceId) (u : Geofence.Update) :
    Except Failure Geofence × Tracker :=
  match t.fences.get? id with
  | none => (.error (notFound id), t)
  | some current =>
    match u.apply current with
    | .error fault => (.error (.record fault), t)
    | .ok changed =>
      let moved := !(changed.center.same current.center) || changed.radius != current.radius
      (.ok changed, { t with
        fences := t.fences.insert id changed
        containment :=
          if moved then t.containment.insert id (.unknown id) else t.containment })

/-- Takes a geofence out with all that is known about it, and forgets the automations that waited
for nothing else. -/
def delete (t : Tracker) (id : GeofenceId) : Except Failure Geofence × Tracker :=
  match t.fences.get? id with
  | none => (.error (notFound id), t)
  | some g =>
    -- An automation stays known as long as it waits for a crossing of another geofence.
    let watchers := t.watchers.filter fun key _ => key.fence ≠ id
    let watched := watchers.values.flatten
    (.ok g, { t with
      fences := t.fences.erase id
      containment := t.containment.erase id
      watchers
      automations := t.automations.filter fun a _ => watched.contains a })

/-- The geofences by the time of their creation, and by name if that is the same. -/
def list (t : Tracker) : List Geofence :=
  t.fences.values.mergeSort fun g h =>
    g.created.before h.created || (g.created == h.created && g.name ≤ h.name)

/-- What is known about each geofence, by identifier. -/
def states (t : Tracker) : List Containment :=
  t.containment.values.mergeSort fun c d => c.fence.text ≤ d.fence.text

/-! ### Automations -/

/-- Forgets an automation; answers whether it waited for a crossing. -/
def unwatch (t : Tracker) (id : AutomationId) : Bool × Tracker :=
  (t.automations.contains id, { t with
    automations := t.automations.erase id
    watchers :=
      ⟨(t.watchers.entries.map fun (key, ids) => (key, ids.filter fun a => a ≠ id)).filter
        fun (_, ids) => !ids.isEmpty⟩ })

/-- The crossings that an automation waits for, as often as it names them. -/
def crossingsOf (a : Automation) : List CrossingKey :=
  a.triggers.filterMap fun
    | .geofence fence crossing => some ⟨fence, crossing⟩
    | _ => none

/-- Lets an automation wait for a crossing, once. -/
def addWatcher (id : AutomationId) (watchers : Table CrossingKey (List AutomationId))
    (key : CrossingKey) : Table CrossingKey (List AutomationId) :=
  let ids := (watchers.get? key).getD []
  watchers.insert key (if ids.contains id then ids else ids ++ [id])

/-- Lets an automation wait for its crossings in place of those it waited for before, and answers
how many it names. A disabled automation is forgotten. -/
def watch (t : Tracker) (a : Automation) : Nat × Tracker :=
  let forgotten := (t.unwatch a.id).2
  let keys := crossingsOf a
  if !a.enabled || keys.isEmpty then (0, forgotten)
  else
    (keys.length, { forgotten with
      watchers := keys.foldl (addWatcher a.id) forgotten.watchers
      automations := forgotten.automations.insert a.id a })

/-! ### Fixes -/

/-- Whether a fix is accurate enough to count. -/
def accepts (config : TrackerConfig) (l : Location) : Bool :=
  l.accuracy.isFinite && l.accuracy ≤ config.minAccuracy

/-- Puts a fix on record; the oldest ones make room for it. -/
def record (t : Tracker) (config : TrackerConfig) (l : Location) : Tracker :=
  if config.auditCapacity = 0 then t
  else
    let audit := t.audit ++ [⟨l, accepts config l⟩]
    { t with audit := audit.drop (audit.length - config.auditCapacity) }

/-- Lets one geofence see a fix. -/
def observe (l : Location) (state : List Transition × Table GeofenceId Containment)
    (g : Geofence) : List Transition × Table GeofenceId Containment :=
  let (transitions, containment) := state
  if !g.enabled then (transitions, containment)
  else
    let distance := g.distanceTo l.point
    let known := (containment.get? g.id).getD (.unknown g.id)
    let (crossing, known) := known.observe (distance ≤ g.radius) l.timestamp
    let containment := containment.insert g.id known
    match crossing with
    | none => (transitions, containment)
    | some crossing =>
      (transitions ++ [{ fence := g.id, name := g.name, crossing, location := l, distance }],
        containment)

/-- The automations that wait for a crossing, each with the crossing. -/
def waiting (t : Tracker) (transition : Transition) : List (Automation × Transition) :=
  ((t.watchers.get? ⟨transition.fence, transition.crossing⟩).getD []).filterMap fun id =>
    (t.automations.get? id).map fun a => (a, transition)

/-- Takes in a fix. Answers the crossings that it shows and the automations that wait for them. -/
def apply (t : Tracker) (config : TrackerConfig) (l : Location) :
    List Transition × List (Automation × Transition) × Tracker :=
  let t := t.record config l
  if !accepts config l then ([], [], t)
  else
    let (transitions, containment) := t.fences.values.foldl (observe l) ([], t.containment)
    let t := { t with containment }
    (transitions, transitions.flatMap t.waiting, t)

end Tracker

end Hearth

import Hearth.Data.Time
import Hearth.Id

/-!
# Hearth.Event

What the engine tells the world. A notice says what happened to which record; an event is a notice
with an identifier and a time of its own.
-/

namespace Hearth

inductive EventKind
  | automationTriggered | automationFailed | geofenceEntered | geofenceLeft
  | flowCompleted | flowFailed | clockDriftDetected
deriving DecidableEq, Repr, Inhabited

namespace EventKind

def text : EventKind → String
  | automationTriggered => "automation_triggered"
  | automationFailed => "automation_failed"
  | geofenceEntered => "geofence_entered"
  | geofenceLeft => "geofence_left"
  | flowCompleted => "flow_completed"
  | flowFailed => "flow_failed"
  | clockDriftDetected => "clock_drift_detected"

def ofText? : String → Option EventKind
  | "automation_triggered" => some automationTriggered
  | "automation_failed" => some automationFailed
  | "geofence_entered" => some geofenceEntered
  | "geofence_left" => some geofenceLeft
  | "flow_completed" => some flowCompleted
  | "flow_failed" => some flowFailed
  | "clock_drift_detected" => some clockDriftDetected
  | _ => none

def ofData? (d : Data) : Option EventKind := d.word?.bind ofText?

theorem ofText?_text (k : EventKind) : ofText? k.text = some k := by
  cases k <;> rfl

end EventKind

structure Notice where
  kind : EventKind
  /-- The identifier of the automation, geofence or flow that the notice is about. -/
  subject : Option String
  data : Data
deriving Repr, Inhabited

def Notice.about (kind : EventKind) (subject : String) (entries : List (String × Data)) : Notice :=
  { kind, subject := some subject, data := .record entries }

structure Event where
  id : EventId
  kind : EventKind
  subject : Option String
  data : Data
  timestamp : Instant
deriving Repr, Inhabited

namespace Event

def ofNotice (id : EventId) (timestamp : Instant) (n : Notice) : Event :=
  { id, kind := n.kind, subject := n.subject, data := n.data, timestamp }

def toData (e : Event) : Data :=
  .record [("id", e.id.toData), ("event_type", .text e.kind.text),
    ("subject", (e.subject.map Data.text).getD .null), ("data", e.data),
    ("timestamp", e.timestamp.toData)]

def ofData? (d : Data) : Option Event := do
  let f ← Fields.read? ["id", "event_type", "subject", "data", "timestamp"] d
  let id ← f.required "id" Id.ofData?
  let kind ← f.required "event_type" EventKind.ofData?
  let subject ← f.named "subject" Data.text?
  let data ← f.required "data" fun d => some d.normalize
  let timestamp ← f.required "timestamp" Instant.ofData?
  return { id, kind, subject, data, timestamp }

end Event

end Hearth

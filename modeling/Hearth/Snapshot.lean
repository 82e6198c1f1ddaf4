import Hearth.Automation
import Hearth.Device
import Hearth.Flow.Basic
import Hearth.Geofence

/-!
# Hearth.Snapshot

What the engine works on, as it is kept in a file: devices, automations, flows, geofences and a
track to be replayed.
-/

namespace Hearth

structure Snapshot where
  devices : List Device
  automations : List Automation
  flows : List Flow
  geofences : List Geofence
  track : List Coordinates
deriving Repr, Inhabited

namespace Snapshot

def empty : Snapshot := ⟨[], [], [], [], []⟩

def unreadable : String := "failed to parse state snapshot"

/-- Lists and records that count nest at most as deep as this. -/
def depthLimit : Nat := 127

/-- Reads the items of a list; each of them is told its position, counted from `first`. -/
def readItems? {α : Type} (read : Nat → Data → Option α) (first : Nat) : List Data → Option (List α)
  | [] => some []
  | d :: rest => do
    let item ← read first d
    let items ← readItems? read (first + 1) rest
    return item :: items

def readNumbered? {α : Type} (read : Nat → Data → Option α) (first : Nat) :
    Data → Option (List α)
  | .list items => readItems? read first items
  | _ => none

def fieldNames : List String :=
  ["devices", "automations", "flows", "geofences", "location_track"]

/-- What of a snapshot counts: the fields that its records have. The free data in them counts as a
whole, and so does a trigger, whose fields depend on its type. -/
def outline : Outline :=
  let point := Outline.record Coordinates.fieldNames []
  let action := Outline.record Action.fieldNames []
  let node := Outline.record FlowNode.fieldNames []
  .record fieldNames [
    ("devices", .each (.record Device.fieldNames [])),
    ("automations", .each (.record Automation.fieldNames [("actions", .each action)])),
    ("flows", .each (.record Flow.fieldNames [("nodes", .each node)])),
    ("geofences", .each (.record Geofence.fieldNames [("center", point)])),
    ("location_track", .each point)]

/-- What counts of the text of a snapshot. -/
def read? (text : String) : Option Data :=
  (Data.Json.draft? text).bind (Draft.data? outline depthLimit)

/-- Reads a snapshot. Automations, flows and geofences without an identifier get one from `fresh`,
by their number in that order. -/
def ofData? (fresh : Nat → Uuid) (now : Instant) (d : Data) : Option Snapshot := do
  let f ← Fields.read? fieldNames d
  let devices ← f.orElse "devices" [] (Data.listOf? (Device.ofData? now))
  let automations ←
    f.orElse "automations" [] (readNumbered? (fun n => Automation.ofData? ⟨fresh n⟩) 0)
  let flows ← f.orElse "flows" []
    (readNumbered? (fun n => Flow.ofData? ⟨fresh n⟩) automations.length)
  let geofences ← f.orElse "geofences" []
    (readNumbered? (fun n => Geofence.ofData? ⟨fresh n⟩ now) (automations.length + flows.length))
  let track ← f.orElse "location_track" [] (Data.listOf? Coordinates.ofData?)
  return { devices, automations, flows, geofences, track }

/-- Reads the text of a snapshot; without a text the snapshot is empty. -/
def load (fresh : Nat → Uuid) (now : Instant) : Option String → Option Snapshot
  | none => some empty
  | some text => (read? text).bind (ofData? fresh now)

def toData (s : Snapshot) : Data :=
  .record [("devices", .ofList Device.toData s.devices),
    ("automations", .ofList Automation.toData s.automations),
    ("flows", .ofList Flow.toData s.flows), ("geofences", .ofList Geofence.toData s.geofences),
    ("location_track", .ofList Coordinates.toData s.track)]

end Snapshot

end Hearth

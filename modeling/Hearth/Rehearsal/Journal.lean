import Hearth.Action
import Hearth.Device
import Hearth.Event
import Hearth.Geo

/-!
# Hearth.Rehearsal.Journal

What is taken down while a household is rehearsed: what was announced, and what the stand-ins were
asked to do.
-/

namespace Hearth

inductive Sight
  | announced (notice : Notice)
  /-- An automation was to be run. -/
  | ran (automation : AutomationId) (name : String)
  /-- An action of a flow was to be carried out. -/
  | acted (action : Action)
  /-- A device was to carry out a command; `seen` is the value that was known of it. -/
  | commanded (device : DeviceId) (command : Command) (seen : DeviceValue)
deriving Repr, Inhabited

structure JournalEntry where
  time : Nat
  sight : Sight
deriving Repr, Inhabited

namespace Sight

/-- The data of a notice without the times and identifiers that were made for it, and with
distances in whole millimetres. -/
def plainData : Data → Data
  | .record entries =>
    .record ((entries.filter fun (name, _) => name != "timestamp" && name != "execution_id").map
      fun (name, d) =>
        if name = "distance" then
          ("distance_mm", .ofOption (fun metres => .whole (millimetres metres)) d.float?)
        else (name, d))
  | d => d

def verb : Command → String
  | .setTemperature _ => "set_color_temperature"
  | command => command.kind.text

def entries : Sight → List (String × Data)
  | announced n =>
    [("k", .text "event"), ("event", .text n.kind.text), ("id", .ofText? n.subject),
      ("data", plainData n.data)]
  | ran id name => [("k", .text "run"), ("id", id.toData), ("name", .text name)]
  | acted a => [("k", .text "actions"), ("id", a.device.toData), ("action", a.toData)]
  | commanded device command seen =>
    [("k", .text "call"), ("id", device.toData), ("command", .text (verb command)),
      ("arg", command.argument?.getD .null), ("seen", seen.toData)]

/-- What a sight is sorted by when the time is the same. -/
def sortTexts (s : Sight) : List String :=
  let d := Data.record s.entries
  [d.textAt "k", d.textAt "event", d.textAt "id"]

def isCrossing : Sight → Bool
  | announced n => n.kind == .geofenceEntered || n.kind == .geofenceLeft
  | _ => false

def isTriggering : Sight → Bool
  | announced n => n.kind == .automationTriggered
  | _ => false

/-- The geofence that a notice is about. -/
def fenceText : Sight → String
  | announced n => n.data.textAt "geofence_id"
  | _ => ""

end Sight

/-- What was taken down, from the oldest to the newest. -/
abbrev Journal := List JournalEntry

namespace Journal

/-- The order of lists by their first difference. -/
def textsNotAfter : List String → List String → Bool
  | a :: as, b :: bs => a < b || (a == b && textsNotAfter as bs)
  | _, _ => true

/-- By time, and at the same time by kind and subject. -/
def sorted (j : Journal) : Journal :=
  j.mergeSort fun a b =>
    a.time < b.time || (a.time == b.time && textsNotAfter a.sight.sortTexts b.sight.sortTexts)

/-- A journal in parts, each of which begins where an automation is triggered. -/
def runs : Journal → List Journal
  | [] => []
  | e :: rest =>
    match runs rest with
    | (next :: more) :: others =>
      if next.sight.isTriggering then [e] :: (next :: more) :: others
      else (e :: next :: more) :: others
    | others => [e] :: others

/-- The parts by the geofence that each of them begins with. -/
def joinByFence (parts : List Journal) : Journal :=
  let fence (part : Journal) : String := (part.head?.map fun e => e.sight.fenceText).getD ""
  (parts.mergeSort fun a b => fence a ≤ fence b).flatten

/-- The crossings by geofence, and after them the runs by geofence. -/
def byFence (j : Journal) : Journal :=
  let (crossings, others) := j.partition fun e => e.sight.isCrossing
  joinByFence (crossings.map fun e => [e]) ++ joinByFence (runs others)

def toData (j : Journal) : Data :=
  .ofList (fun e => .record (e.sight.entries ++ [("t", .nat e.time)])) j

def toTimelessData (j : Journal) : Data :=
  .ofList (fun e => .record e.sight.entries) j

end Journal

end Hearth

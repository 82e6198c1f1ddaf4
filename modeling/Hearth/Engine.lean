import Hearth.Household
import Hearth.Settings
import Hearth.Snapshot

/-!
# Hearth.Engine

The whole engine: every part as the settings want it, and what the snapshot holds entered into the
parts.
-/

namespace Hearth

structure Engine (σ : Type) where
  settings : Settings
  snapshot : Snapshot
  host : HouseholdHost σ

/-- What the parts say to an automation: how many of its triggers each of them has armed. -/
structure Armed where
  scheduled : Except Failure Nat
  watched : Except Failure Nat
  tracked : Nat

namespace Engine

variable {σ : Type}

def temperatureSensor : DeviceId := ⟨"sensor.living_temperature"⟩

def presenceSensor : DeviceId := ⟨"sensor.presence"⟩

/-- The household that an engine begins with. It knows the fleet and the devices of the snapshot. -/
def household (e : Engine σ) (clock : WallClock) (fleet : Fleet) : Household :=
  .create clock (.ofList (fleet.devices (e.host.stamp 0) ++ e.snapshot.devices)) fleet
    (.create true)

def run (e : Engine σ) : Automation → Process σ (Except Failure Unit) :=
  e.host.run e.settings.execution

def scheduler (e : Engine σ) : SchedulerHost σ := e.host.scheduler e.settings.scheduler e.run

def watchlist (e : Engine σ) : WatchHost σ := e.host.watchlist e.settings.watch e.run

def tracker (e : Engine σ) : TrackerHost σ := e.host.tracker e.settings.tracker e.run

def flows (e : Engine σ) : FlowHost σ :=
  e.host.flows (some temperatureSensor) (some presenceSensor)
    (Batch.run e.host.link e.settings.execution)

def perform (e : Engine σ) (actions : List Action) : Process σ BatchResult :=
  Batch.execute e.host.link e.settings.execution actions

def inputs (e : Engine σ) : Nat → σ → FlowInputs :=
  e.host.inputs (some temperatureSensor) (some presenceSensor)

/-- What goes on without end. -/
def services (e : Engine σ) : List (Service σ) :=
  [e.host.feeder e.watchlist, e.scheduler.dispatcher, e.tracker.service]

/-- Enters an automation into the parts; there is no answer if a search for an occurrence crashes. -/
def arm (e : Engine σ) (a : Automation) (now : Nat) (s : σ) : Option Armed × σ :=
  match e.scheduler.part.update (fun scheduler =>
    scheduler.schedule (e.scheduler.reading now s) a) s with
  | (none, s) => (none, s)
  | (some scheduled, s) =>
    let (watched, s) := e.watchlist.watch a s
    let (tracked, s) := e.tracker.part.update (fun tracker => tracker.watch a) s
    (some { scheduled, watched, tracked }, s)

def enclose (e : Engine σ) (g : Geofence) (s : σ) : Except Failure Unit × σ :=
  e.tracker.part.update (fun tracker => tracker.insert g) s

/-- Replays the track of the snapshot, with a point at every look at the current position. -/
def replayTrack (e : Engine σ) : Process σ Unit :=
  e.tracker.replay e.host.stamp 10.0 e.settings.pollInterval e.snapshot.track

end Engine

end Hearth

import Hearth.Execution.Batch
import Hearth.Fleet.Basic
import Hearth.Flow.Run
import Hearth.Registry
import Hearth.Scheduler.Basic
import Hearth.Tracking.Monitor
import Hearth.Watch.Basic

/-!
# Hearth.Household

All parts of the engine around one fleet of devices. What the fleet announces is entered into the
registry and held against the conditions that are watched.
-/

namespace Hearth

structure Household where
  clock : WallClock
  registry : Registry
  fleet : Fleet
  /-- The update of the fleet that is entered next. -/
  listener : Nat
  scheduler : Scheduler
  watchlist : Watchlist
  tracker : Tracker
  monitor : Option Monitor
  positioning : Positioning
deriving Repr, Inhabited

namespace Household

/-- A household in which nothing is armed or watched yet. -/
def create (clock : WallClock) (registry : Registry) (fleet : Fleet) (positioning : Positioning) :
    Household :=
  { clock, registry, fleet, listener := fleet.updates.subscribe, scheduler := .empty,
    watchlist := .empty, tracker := .empty, monitor := none, positioning }

def registryField : Field Household Registry where
  get h := h.registry
  set registry h := { h with registry }

def fleetField : Field Household Fleet where
  get h := h.fleet
  set fleet h := { h with fleet }

def schedulerField : Field Household Scheduler where
  get h := h.scheduler
  set scheduler h := { h with scheduler }

def watchlistField : Field Household Watchlist where
  get h := h.watchlist
  set watchlist h := { h with watchlist }

def trackerField : Field Household Tracker where
  get h := h.tracker
  set tracker h := { h with tracker }

def monitorField : Field Household (Option Monitor) where
  get h := h.monitor
  set monitor h := { h with monitor }

def positioningField : Field Household Positioning where
  get h := h.positioning
  set positioning h := { h with positioning }

/-- The devices known by the registry, by identifier. -/
def devices (h : Household) : List Device :=
  h.registry.toList.mergeSort fun d e => d.id.name ≤ e.id.name

end Household

structure HouseholdHost (σ : Type) where
  part : Field σ Household
  /-- The time to be noted on what happens, by the milliseconds since the beginning. -/
  stamp : Nat → Instant
  publish : Notice → Nat → σ → σ

namespace HouseholdHost

variable {σ : Type}

def registry (host : HouseholdHost σ) : Field σ Registry :=
  host.part.comp Household.registryField

def fleet (host : HouseholdHost σ) : Field σ Fleet :=
  host.part.comp Household.fleetField

def positioning (host : HouseholdHost σ) : Field σ Positioning :=
  host.part.comp Household.positioningField

def lookup (host : HouseholdHost σ) (s : σ) (id : DeviceId) : Option Device :=
  (host.registry.get s).get? id

def link (host : HouseholdHost σ) : DeviceLink σ :=
  { lookup := host.lookup, send := Fleet.send host.fleet host.stamp }

/-- Runs an automation on the devices of the fleet. -/
def run (host : HouseholdHost σ) (options : ExecutionOptions) (a : Automation) :
    Process σ (Except Failure Unit) :=
  Batch.run host.link options a.actions

def scheduler (host : HouseholdHost σ) (config : SchedulerConfig)
    (run : Automation → Process σ (Except Failure Unit)) : SchedulerHost σ :=
  { config, part := host.part.comp Household.schedulerField, publish := host.publish, run
    clock := fun s => (host.part.get s).clock }

def watchlist (host : HouseholdHost σ) (config : WatchConfig)
    (run : Automation → Process σ (Except Failure Unit)) : WatchHost σ :=
  { config, part := host.part.comp Household.watchlistField, publish := host.publish, run
    lookup := host.lookup }

def tracker (host : HouseholdHost σ) (config : TrackerConfig)
    (run : Automation → Process σ (Except Failure Unit)) : TrackerHost σ :=
  { config, part := host.part.comp Household.trackerField, publish := host.publish, run
    monitor := host.part.comp Household.monitorField, positioning := host.positioning }

/-- What the conditions of flows can ask for at the moment. -/
def inputs (host : HouseholdHost σ) (temperatureSensor presenceSensor : Option DeviceId)
    (now : Nat) (s : σ) : FlowInputs :=
  let clock := (host.part.get s).clock
  let sensors : Sensors :=
    { lookup := host.lookup s, temperatureSensor, presenceSensor
      localTime := clock.zone.toLocal (clock.reading now) }
  sensors.inputs

def flows (host : HouseholdHost σ) (temperatureSensor presenceSensor : Option DeviceId)
    (runActions : List Action → Process σ (Except Failure Unit)) : FlowHost σ :=
  { inputs := fun now s => (host.inputs temperatureSensor presenceSensor now s, s), runActions,
    publish := host.publish }

/-- Enters what the fleet has announced, one update after another. -/
def enterUpdates (host : HouseholdHost σ) (watching : WatchHost σ) (now : Nat) (s : σ) :
    σ × List (Process σ Unit) :=
  -- Updates that the listener has lost are passed over.
  let updates := (host.fleet.get s).updates
  let pending := updates.drain (host.part.get s).listener
  let caughtUp := host.part.modify (fun h => { h with listener := updates.sent }) s
  pending.foldl (fun (s, started) device =>
    let (_, s, fires) := watching.dispatch device now (host.registry.modify (·.upsert device) s)
    (s, started ++ fires)) (caughtUp, [])

/-- Feeds what the fleet announces into the registry and to those who watch. -/
def feeder (host : HouseholdHost σ) (watching : WatchHost σ) : Service σ where
  deadline? s :=
    if (host.fleet.get s).updates.hasItems (host.part.get s).listener then some 0 else none
  run := host.enterUpdates watching

/-- Gives a sensor of the fleet a new reading; answers whether there is such a sensor. -/
def setReading (host : HouseholdHost σ) (id : DeviceId) (reading : Float) (now : Nat) (s : σ) :
    Option Device × σ :=
  host.fleet.update (fun f => f.setReading (host.stamp now) id reading) s

end HouseholdHost

end Hearth

import Hearth.Data.Toml
import Hearth.Scheduler.Basic
import Hearth.Execution.Options
import Hearth.Tracking.Tracker
import Hearth.Watch.Basic

/-!
# Hearth.Settings

The settings of the engine: what is left out of the document takes a default, and the environment
goes before the document.
-/

namespace Hearth

structure Settings where
  /-- Which messages are logged. -/
  logFilter : String
  execution : ExecutionOptions
  executionTimeout : Duration
  heartbeat : Duration
  driftThreshold : Duration
  historyCapacity : Nat
  latitude : Option Float
  longitude : Option Float
  cooldown : Duration
  minAccuracy : Float
  pollInterval : Duration
  /-- Where the snapshot is. -/
  statePath : String
deriving Repr, Inhabited

inductive SettingsFault
  | unreadable
  | zero (setting : String)
  | locationOutOfRange (lat lng : Float)
  | halfLocation
  | accuracyNotPositive
deriving Repr

def SettingsFault.message : SettingsFault → String
  | unreadable => "failed to parse config file"
  | zero setting => "invalid configuration: " ++ setting ++ " must be non-zero"
  | locationOutOfRange lat lng =>
    "invalid configuration: location " ++ Number.display lat ++ "," ++ Number.display lng
      ++ " is out of range"
  | halfLocation => "invalid configuration: scheduler.latitude and scheduler.longitude go together"
  | accuracyNotPositive => "invalid configuration: geofence.min_accuracy_m must be positive"

namespace Settings

def standard : Settings :=
  { logFilter := "homeflowd=info,homeflow=info"
    execution := .standard
    executionTimeout := SchedulerConfig.standard.executionTimeout
    heartbeat := SchedulerConfig.standard.heartbeat
    driftThreshold := SchedulerConfig.standard.driftThreshold
    historyCapacity := SchedulerConfig.standard.historyCapacity
    latitude := none
    longitude := none
    cooldown := WatchConfig.standard.cooldown
    minAccuracy := TrackerConfig.standard.minAccuracy
    pollInterval := TrackerConfig.standard.pollInterval
    statePath := "homeflow.json" }

/-! ### Reading -/

/-- The fields of a section. Of a section that is written as a list, what is beyond the declared
names is passed over. -/
def readFields? (names : List String) : Data → Option Fields
  | .list items => Fields.read? names (.list (items.take names.length))
  | d => Fields.read? names d

def readLogging? (s : Settings) (d : Data) : Option Settings := do
  let f ← readFields? ["filter"] d
  let logFilter ← f.orElse "filter" s.logFilter Data.text?
  return { s with logFilter }

def readExecutor? (s : Settings) (d : Data) : Option Settings := do
  let f ← readFields? ["max_retries", "retry_delay_ms", "timeout_ms", "parallel", "rollback"] d
  let maxRetries ← f.orElse "max_retries" s.execution.maxRetries (Data.natUpTo? Number.maxWord32)
  let retryDelay ← f.orElse "retry_delay_ms" s.execution.retryDelay Duration.ofMillisData?
  let timeout ← f.orElse "timeout_ms" s.execution.timeout Duration.ofMillisData?
  let parallel ← f.orElse "parallel" s.execution.parallel Data.bool?
  let rollback ← f.orElse "rollback" s.execution.rollback Data.bool?
  return { s with execution := { maxRetries, retryDelay, timeout, parallel, rollback } }

def readScheduler? (s : Settings) (d : Data) : Option Settings := do
  let f ← readFields? ["execution_timeout_secs", "heartbeat_secs", "drift_threshold_secs",
    "history_capacity", "latitude", "longitude"] d
  let executionTimeout ← f.orElse "execution_timeout_secs" s.executionTimeout Duration.ofSecsData?
  let heartbeat ← f.orElse "heartbeat_secs" s.heartbeat Duration.ofSecsData?
  let driftThreshold ← f.orElse "drift_threshold_secs" s.driftThreshold Duration.ofSecsData?
  let historyCapacity ←
    f.orElse "history_capacity" s.historyCapacity (Data.natUpTo? Number.maxWord64)
  let latitude ← f.optional "latitude" Data.float?
  let longitude ← f.optional "longitude" Data.float?
  return { s with executionTimeout, heartbeat, driftThreshold, historyCapacity, latitude, longitude }

def readConditions? (s : Settings) (d : Data) : Option Settings := do
  let f ← readFields? ["cooldown_secs"] d
  let cooldown ← f.orElse "cooldown_secs" s.cooldown Duration.ofSecsData?
  return { s with cooldown }

def readGeofence? (s : Settings) (d : Data) : Option Settings := do
  let f ← readFields? ["min_accuracy_m", "poll_interval_secs"] d
  let minAccuracy ← f.orElse "min_accuracy_m" s.minAccuracy Data.float?
  let pollInterval ← f.orElse "poll_interval_secs" s.pollInterval Duration.ofSecsData?
  return { s with minAccuracy, pollInterval }

def readState? (s : Settings) (d : Data) : Option Settings := do
  let f ← readFields? ["path"] d
  let statePath ← f.orElse "path" s.statePath Data.text?
  return { s with statePath }

/-- Reads the sections that there are on top of the defaults. -/
def ofData? (d : Data) : Option Settings := do
  let f ← readFields? ["logging", "executor", "scheduler", "conditions", "geofence", "state"] d
  -- Each section starts from what the ones before it have left.
  let s := standard
  let s ← f.orElse "logging" s s.readLogging?
  let s ← f.orElse "executor" s s.readExecutor?
  let s ← f.orElse "scheduler" s s.readScheduler?
  let s ← f.orElse "conditions" s s.readConditions?
  let s ← f.orElse "geofence" s s.readGeofence?
  f.orElse "state" s s.readState?

/-! ### The environment -/

/-- What the environment sets. A number that cannot be read sets nothing. -/
structure Environment where
  statePath : Option String
  latitude : Option String
  longitude : Option String
  maxRetries : Option String
  logFilter : Option String
  /-- The filter that is meant for all programs; it goes before the other one. -/
  commonLogFilter : Option String
deriving DecidableEq, Repr, Inhabited

/-- Reads the environment by the names of its variables. -/
def Environment.ofVariables (value : String → Option String) : Environment :=
  { statePath := value "HOMEFLOW_STATE", latitude := value "HOMEFLOW_LATITUDE"
    longitude := value "HOMEFLOW_LONGITUDE", maxRetries := value "HOMEFLOW_MAX_RETRIES"
    logFilter := value "HOMEFLOW_LOG", commonLogFilter := value "RUST_LOG" }

def applyEnvironment (s : Settings) (e : Environment) : Settings :=
  let retries := e.maxRetries.bind fun text => Number.wholeUpTo? Number.maxWord32 text.toList
  { s with
    statePath := e.statePath.getD s.statePath
    latitude := (e.latitude.bind Number.readFloat?).or s.latitude
    longitude := (e.longitude.bind Number.readFloat?).or s.longitude
    execution := { s.execution with maxRetries := retries.getD s.execution.maxRetries }
    logFilter := (e.commonLogFilter.or e.logFilter).getD s.logFilter }

/-! ### Checks -/

/-- The first setting that must not be zero and is. -/
def checkCounts (s : Settings) : Except SettingsFault Unit :=
  if s.execution.timeout.isZero then .error (.zero "executor.timeout_ms")
  else if s.heartbeat.isZero then .error (.zero "scheduler.heartbeat_secs")
  else if s.historyCapacity = 0 then .error (.zero "scheduler.history_capacity")
  else .ok ()

/-- The place is given in full and lies on the globe, or is not given at all. -/
def checkPlace (s : Settings) : Except SettingsFault Unit :=
  match s.latitude, s.longitude with
  | none, none => .ok ()
  | some lat, some lng =>
    if (Coordinates.mk lat lng).inRange then .ok () else .error (.locationOutOfRange lat lng)
  | _, _ => .error .halfLocation

def check (s : Settings) : Except SettingsFault Unit := do
  s.checkCounts
  s.checkPlace
  if s.minAccuracy ≤ 0.0 then .error .accuracyNotPositive
  else if s.pollInterval.isZero then .error (.zero "geofence.poll_interval_secs")
  else .ok ()

/-- The settings of a document, or the defaults without one, changed by the environment and
checked. -/
def load (document : Option String) (e : Environment) : Except SettingsFault Settings := do
  let s ←
    match document with
    | none => .ok standard
    | some text =>
      match (Data.Toml.read? text).bind ofData? with
      | some s => .ok s
      | none => .error .unreadable
  let s := s.applyEnvironment e
  s.check
  return s

/-! ### The parts of the engine -/

def place (s : Settings) : Option Coordinates := do
  let lat ← s.latitude
  let lng ← s.longitude
  return { lat, lng }

def scheduler (s : Settings) : SchedulerConfig :=
  { executionTimeout := s.executionTimeout, heartbeat := s.heartbeat,
    driftThreshold := s.driftThreshold, historyCapacity := s.historyCapacity, place := s.place }

def watch (s : Settings) : WatchConfig := { cooldown := s.cooldown }

def tracker (s : Settings) : TrackerConfig :=
  { TrackerConfig.standard with minAccuracy := s.minAccuracy, pollInterval := s.pollInterval }

/-- The settings as the parts of the engine take them. -/
def toData (s : Settings) : Data :=
  .record [("filter", .text s.logFilter), ("state", .text s.statePath),
    ("executor", s.execution.inMillis),
    ("scheduler", .record [("execution_timeout_secs", .nat s.executionTimeout.secs),
      ("heartbeat_secs", .nat s.heartbeat.secs),
      ("drift_threshold_secs", .nat s.driftThreshold.secs),
      ("history_capacity", .nat s.historyCapacity), ("located", .bool s.place.isSome)]),
    ("location", .ofOption (fun p => .list [.anyReal p.lat, .anyReal p.lng]) s.place),
    ("cooldown_secs", .nat s.cooldown.secs),
    ("geofence", .record [("min_accuracy", .anyReal s.minAccuracy),
      ("poll_secs", .nat s.pollInterval.secs),
      ("audit_capacity", .nat s.tracker.auditCapacity)])]

end Settings

end Hearth

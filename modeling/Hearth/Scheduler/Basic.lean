import Hearth.Event
import Hearth.Field
import Hearth.Process.Timeline
import Hearth.Scheduler.Agenda

/-!
# Hearth.Scheduler.Basic

The scheduler: arms the triggers for times and the sun, runs what is due, keeps a history of runs,
and notices when the wall clock has jumped.

The operations change a `Scheduler` when they are given a reading of the wall clock. Where a search for
an occurrence crashes they give no answer; what they have changed by then stays. Runs take time and are
processes over the state of a `SchedulerHost`, which knows how to run an automation and whom to tell
about it.
-/

namespace Hearth

structure SchedulerConfig where
  /-- The time that one run has. -/
  executionTimeout : Duration
  /-- The time between two looks at the wall clock. -/
  heartbeat : Duration
  /-- The wall clock has jumped when it is off by more than this. -/
  driftThreshold : Duration
  historyCapacity : Nat
  place : Option Coordinates
deriving Repr, Inhabited

def SchedulerConfig.standard : SchedulerConfig :=
  { executionTimeout := .ofSecs 30, heartbeat := .ofSecs 60, driftThreshold := .ofSecs 5,
    historyCapacity := 1000, place := none }

/-- Reads a configuration with durations in milliseconds; what is missing takes its standard. -/
def SchedulerConfig.ofMillis? (d : Data) : Option SchedulerConfig := do
  let place ← (d.entry "location").nullable? Coordinates.ofData?
  let millis (name : String) (standard : Duration) : Duration :=
    (Duration.ofMillisData? (d.entry name)).getD standard
  return {
    executionTimeout := millis "execution_timeout_ms" standard.executionTimeout
    heartbeat := millis "heartbeat_ms" standard.heartbeat
    driftThreshold := millis "drift_threshold_ms" standard.driftThreshold
    historyCapacity := ((d.entry "history_capacity").natUpTo? Number.maxWord64).getD
      standard.historyCapacity
    place }

structure RunRecord where
  automation : AutomationId
  name : String
  success : Bool
  error : Option String
  /-- In milliseconds. -/
  elapsed : Nat
deriving DecidableEq, Repr, Inhabited

def RunRecord.toData (r : RunRecord) : Data :=
  .record [("id", r.automation.toData), ("name", .text r.name), ("success", .bool r.success),
    ("error", .ofText? r.error), ("ms", .nat r.elapsed)]

/-- The loop that runs what is due. It sleeps until `wakeAt` and looks at the wall clock at
`nextBeat`. -/
structure Dispatcher where
  wakeAt : Option Nat
  nextBeat : Nat
deriving DecidableEq, Repr, Inhabited

structure Scheduler where
  agenda : Agenda
  /-- From the oldest to the newest. -/
  history : List RunRecord
  /-- The last look at the wall clock: the time since the beginning, and what the clock showed. -/
  heartbeat : Option (Duration × Instant)
  /-- The agenda has changed since the dispatcher looked at it. -/
  changed : Bool
  dispatcher : Option Dispatcher
deriving Repr, Inhabited

namespace Scheduler

def empty : Scheduler :=
  { agenda := .empty, history := [], heartbeat := none, changed := false, dispatcher := none }

/-- A reading of the wall clock, and where it hangs. -/
structure Reading where
  now : Instant
  zone : Zone
  place : Option Coordinates

/-- The first occurrence of a schedule after the reading. -/
def Reading.next (r : Reading) (s : Schedule) : Except SearchFault Instant :=
  s.nextAfter r.zone r.place r.now

def Reading.outlook (r : Reading) : Outlook :=
  ⟨r.now, r.next, Schedule.nextAfter_after⟩

/-- Arms the triggers of an automation and answers their number. If a search crashes, there is no answer
and nothing is changed. -/
def schedule (s : Scheduler) (r : Reading) (a : Automation) :
    Option (Except Failure Nat) × Scheduler :=
  let known := s.agenda.automations.contains a.id
  match s.agenda.schedule r.next a with
  | (.error .crash, agenda) => (none, { s with agenda })
  | (.error (.trigger fault), agenda) =>
    (some (.error (.trigger fault)), { s with agenda, changed := s.changed || known })
  | (.ok count, agenda) =>
    (some (.ok count), { s with agenda, changed := s.changed || a.enabled || known })

/-- Disarms the triggers of an automation; answers whether it had any. -/
def unschedule (s : Scheduler) (id : AutomationId) : Bool × Scheduler :=
  let (removed, agenda) := s.agenda.remove id
  (removed, { s with agenda, changed := s.changed || removed })

def clear (s : Scheduler) : Scheduler :=
  { s with agenda := s.agenda.clear, changed := true }

/-- Takes what is due and arms it anew. If a search crashes, there is no answer, and what has been taken
is lost. -/
def takeDue (s : Scheduler) (r : Reading) : Option (List Automation) × Scheduler :=
  let (due, agenda) := s.agenda.takeDue r.outlook
  (due, { s with agenda })

/-- The time until the first armed trigger, or none if there is none. -/
def timeUntilNext (s : Scheduler) (r : Reading) : Option Duration × Scheduler :=
  let (earliest, agenda) := s.agenda.earliest?
  (earliest.map fun t => ⟨(t.since r.now).toNat⟩, { s with agenda })

/-- Arms everything anew and answers how many tasks are armed then. If a search crashes, there is no
answer, and nobody is told that the agenda has changed. -/
def rescheduleAll (s : Scheduler) (r : Reading) : Option Nat × Scheduler :=
  let (count, agenda) := s.agenda.rescheduleAll r.next
  (count, { s with agenda, changed := s.changed || count.isSome })

/-- The jump of the wall clock since the last look at it, if it is more than a threshold. There is none
where no look came before, or where more time has passed since then than can be told in milliseconds.
Nothing is answered if what the clock has gained on that time is out of bounds. -/
def jump? (s : Scheduler) (threshold elapsed : Duration) (now : Instant) : Option (Option Duration) :=
  match s.heartbeat with
  | none => some none
  | some (before, shown) =>
    let passed := elapsed.minus before
    let gained := now.since shown - (passed.nanos : Int)
    if Duration.longestSpan.nanos < passed.nanos then some none
    else if Duration.longestSpan.nanos < gained.natAbs then none
    else if gained.natAbs ≤ threshold.nanos then some none
    else some (some ⟨gained.natAbs⟩)

/-- Looks at the wall clock, given the time since the beginning. After a jump everything is armed anew;
answers the jump and how many tasks are armed then. There is no answer if a search crashes. -/
def checkDrift (s : Scheduler) (threshold elapsed : Duration) (r : Reading) :
    Option (Option (Duration × Nat)) × Scheduler :=
  let looked := { s with heartbeat := some (elapsed, r.now) }
  match s.jump? threshold elapsed r.now with
  | none => (none, looked)
  | some none => (some none, looked)
  | some (some jump) =>
    let (count, rearmed) := looked.rescheduleAll r
    (count.map fun count => some (jump, count), rearmed)

/-- Adds a run to the history, which keeps the newest ones. -/
def remember (s : Scheduler) (capacity : Nat) (record : RunRecord) : Scheduler :=
  if capacity = 0 then s
  else
    let history := s.history ++ [record]
    { s with history := history.drop (history.length - capacity) }

end Scheduler

/-- The next run of a time of day as people write it. -/
def nextRunOf (r : Scheduler.Reading) (time : String) (days : List String) :
    Except SearchFault Instant := do
  let time ← (TimeOfDay.read time).mapError .trigger
  let days ← (Weekday.readAll days).mapError .trigger
  r.next (.clock time days)

/-- The events of the sun on the local clock, today unless another date is given. There is no answer for
today if it is beyond the calendar. -/
def solarTimesOf (r : Scheduler.Reading) (place : Coordinates) (date : Option Date) :
    Option SolarTimes :=
  let today := r.zone.toLocal r.now
  (date.or (if today.inCalendar then some today.date else none)).map fun date =>
    Solar.times place date (r.zone.offsetOnDate date)

/-- The surroundings of the scheduler within a larger state. -/
structure SchedulerHost (σ : Type) where
  config : SchedulerConfig
  part : Field σ Scheduler
  clock : σ → WallClock
  run : Automation → Process σ (Except Failure Unit)
  publish : Notice → Nat → σ → σ

namespace SchedulerHost

variable {σ : Type}

def reading (host : SchedulerHost σ) (now : Nat) (s : σ) : Scheduler.Reading :=
  let clock := host.clock s
  ⟨clock.reading now, clock.zone, host.config.place⟩

/-- How a run went, and its error if it failed. -/
def runError? (timeout : Duration) :
    Option (Except Crash (Except Failure Unit)) → Option String
  | some (.ok (.ok ())) => none
  | some (.ok (.error failure)) => some failure.message
  | some (.error _) => some "automation runner panicked"
  | none => some (Failure.timeout "automation" timeout).message

/-- Runs an automation within its time, and records and announces the run. -/
def execute (host : SchedulerHost σ) (origin : String) (a : Automation) :
    Process σ RunRecord := do
  let start ← Process.now
  Process.change (host.publish (.about .automationTriggered a.id.text
    [("name", .text a.name), ("trigger", .text origin)]))
  let outcome ← Process.limited host.config.executionTimeout (Process.rescue (host.run a))
  let finish ← Process.now
  let error := runError? host.config.executionTimeout outcome
  let record : RunRecord :=
    { automation := a.id, name := a.name, success := error.isNone, error,
      elapsed := finish - start }
  match error with
  | some error =>
    Process.change (host.publish (.about .automationFailed a.id.text
      [("name", .text a.name), ("error", .text error)]))
  | none => pure ()
  Process.change fun _ => host.part.modify fun s => s.remember host.config.historyCapacity record
  return record

def takeDue (host : SchedulerHost σ) (now : Nat) (s : σ) : Option (List Automation) × σ :=
  host.part.update (fun scheduler => scheduler.takeDue (host.reading now s)) s

/-- Runs everything that is due, side by side. -/
def runDue (host : SchedulerHost σ) : Process σ (List RunRecord) := do
  let due ← Process.attempt host.takeDue
  Process.together (due.map (host.execute "schedule"))

/-- Looks at the wall clock, given the time since the beginning, and announces a jump. There is no answer
if a search crashes, and no announcement then. -/
def checkDrift (host : SchedulerHost σ) (elapsed : Duration) (now : Nat) (s : σ) :
    Option (Option Duration) × σ :=
  let (found, s) := host.part.update (fun scheduler =>
    scheduler.checkDrift host.config.driftThreshold elapsed (host.reading now s)) s
  match found with
  | none => (none, s)
  | some none => (some none, s)
  | some (some (jump, count)) =>
    let notice : Notice :=
      { kind := .clockDriftDetected, subject := none,
        data := .record [("drift_ms", .whole jump.millis), ("tasks", .whole count)] }
    (some (some jump), host.publish notice now s)

/-! ### The dispatcher -/

/-- Lets the dispatcher sleep until the first armed trigger by the wall clock. -/
def fallAsleep (host : SchedulerHost σ) (now : Nat) (s : σ) : σ :=
  let r := host.reading now s
  host.part.modify (fun scheduler =>
    let (wait, scheduler) := scheduler.timeUntilNext r
    { scheduler with
      dispatcher := scheduler.dispatcher.map fun d =>
        { d with wakeAt := wait.map fun wait => now + wait.waitMillis } }) s

/-- Starts the dispatcher; its first look at the wall clock is due at once. Without a heartbeat there
is no dispatcher. -/
def startDispatcher (host : SchedulerHost σ) (now : Nat) (s : σ) : σ :=
  if host.config.heartbeat.isZero then s
  else
    host.part.modify (fun scheduler =>
      { scheduler with dispatcher := some { wakeAt := none, nextBeat := now }, changed := true }) s

/-- A dispatcher in which a search crashes is gone for good. -/
def stopDispatcher (host : SchedulerHost σ) (s : σ) : σ :=
  host.part.modify (fun scheduler => { scheduler with dispatcher := none }) s

/-- The next instant at which the dispatcher has something to do. -/
def dispatcherDeadline? (host : SchedulerHost σ) (s : σ) : Option Nat :=
  let scheduler := host.part.get s
  match scheduler.dispatcher with
  | none => none
  | some d => if scheduler.changed then some 0 else Process.earlier d.wakeAt (some d.nextBeat)

/-- One round of the dispatcher: a change of the agenda is looked at, what is due is started, or the
wall clock is checked. -/
def dispatch (host : SchedulerHost σ) (now : Nat) (s : σ) : σ × List (Process σ Unit) :=
  let scheduler := host.part.get s
  match scheduler.dispatcher with
  | none => (s, [])
  | some d =>
    -- A change comes first: the sleep has to be measured anew before anything else is decided.
    if scheduler.changed then
      (host.fallAsleep now (host.part.modify (fun s => { s with changed := false }) s), [])
    else if (d.wakeAt.map fun instant => decide (instant ≤ now)) = some true then
      -- Every run is a process of its own, so a slow one delays neither the others nor the heartbeat.
      match host.takeDue now s with
      | (none, s) => (host.stopDispatcher s, [])
      | (some due, s) =>
        (host.fallAsleep now s,
          due.map fun a => (host.execute "schedule" a).bind fun _ => .done ())
    else if d.nextBeat ≤ now then
      match host.checkDrift (.ofMillis now) now s with
      | (none, s) => (host.stopDispatcher s, [])
      | (some _, s) =>
        let s := host.part.modify (fun scheduler =>
          { scheduler with
            dispatcher := some { d with nextBeat := now + host.config.heartbeat.millisUp } }) s
        (host.fallAsleep now s, [])
    else (s, [])

def dispatcher (host : SchedulerHost σ) : Service σ where
  deadline? := host.dispatcherDeadline?
  run := host.dispatch

end SchedulerHost

end Hearth

import Hearth.Event
import Hearth.Field
import Hearth.Process.Timeline
import Hearth.Tracking.Positioning
import Hearth.Tracking.Tracker

/-!
# Hearth.Tracking.Monitor

Running automations on crossings, and the monitor, which feeds the tracker with fixes. The monitor
takes each fix as it comes and looks at the current position when none has come for a while, so that
a source that has stalled is still heard.
-/

namespace Hearth

/-- The monitor while it runs: which fix it expects next, once it has begun to watch, and when it
looks at the current position. -/
structure Monitor where
  receiver : Option Nat
  nextPoll : Nat
deriving DecidableEq, Repr, Inhabited

/-- The surroundings of the tracker within a larger state. -/
structure TrackerHost (σ : Type) where
  config : TrackerConfig
  part : Field σ Tracker
  monitor : Field σ (Option Monitor)
  positioning : Field σ Positioning
  run : Automation → Process σ (Except Failure Unit)
  publish : Notice → Nat → σ → σ

namespace TrackerHost

variable {σ : Type}

def kindOf : Crossing → EventKind
  | .enter => .geofenceEntered
  | .leave => .geofenceLeft

def announce (host : TrackerHost σ) (transitions : List Transition) (now : Nat) (s : σ) : σ :=
  transitions.foldl (fun s t =>
    host.publish { kind := kindOf t.crossing, subject := some t.fence.text, data := t.toData }
      now s) s

/-- Takes in a fix and announces what it shows; answers the crossings and the automations that wait
for them. -/
def apply (host : TrackerHost σ) (l : Location) (now : Nat) (s : σ) :
    (List Transition × List (Automation × Transition)) × σ :=
  let (transitions, waiting, tracker) := (host.part.get s).apply host.config l
  ((transitions, waiting), host.announce transitions now (host.part.set tracker s))

/-- Announces that an automation is triggered and runs it. -/
def fire (host : TrackerHost σ) (a : Automation) (t : Transition) : Process σ Unit := do
  Process.change (host.publish (.about .automationTriggered a.id.text
    [("name", .text a.name), ("trigger", .text "geofence"), ("geofence_id", t.fence.toData),
      ("event", .text t.crossing.text)]))
  match ← host.run a with
  | .ok () => pure ()
  | .error failure =>
    Process.change (host.publish (.about .automationFailed a.id.text
      [("name", .text a.name), ("error", .text failure.message)]))

/-- Takes in a fix and runs what it triggers, one automation after another. -/
def check (host : TrackerHost σ) (l : Location) : Process σ (List Transition) := do
  let (transitions, waiting) ← Process.step (host.apply l)
  let _ ← Process.inOrder (waiting.map fun (a, t) => host.fire a t)
  return transitions

/-- Takes in a fix; what it triggers runs by itself. -/
def dispatch (host : TrackerHost σ) (l : Location) (now : Nat) (s : σ) :
    List Transition × σ × List (Process σ Unit) :=
  let ((transitions, waiting), s) := host.apply l now s
  (transitions, s, waiting.map fun (a, t) => host.fire a t)

/-! ### The monitor -/

/-- Starts the monitor, or starts it anew, if that is permitted. -/
def start (host : TrackerHost σ) (permitted : Bool) (now : Nat) (s : σ) :
    Except Failure Unit × σ :=
  if permitted then (.ok (), host.monitor.set (some { receiver := none, nextPoll := now }) s)
  else (.error .permissionDenied, s)

/-- Stops the monitor; answers whether there was one. -/
def stop (host : TrackerHost σ) (s : σ) : Bool × σ :=
  ((host.monitor.get s).isSome, host.monitor.set none s)

/-- A monitor that would poll without end gives up as soon as it runs. -/
def canRun (host : TrackerHost σ) : Bool := !host.config.pollInterval.isZero

def isMonitoring (host : TrackerHost σ) (s : σ) : Bool :=
  (host.monitor.get s).isSome && host.canRun

/-- The next instant at which the monitor has something to do. -/
def monitorDeadline? (host : TrackerHost σ) (s : σ) : Option Nat :=
  if host.canRun then
    match host.monitor.get s with
    | none => none
    | some ⟨none, _⟩ => some 0
    | some ⟨some receiver, nextPoll⟩ =>
      if (host.positioning.get s).fixes.hasItems receiver then some 0 else some nextPoll
  else none

/-- One round of the monitor: it begins to watch, takes the next fix, or looks at the current
position. Fixes that it has missed are passed over. -/
def watch (host : TrackerHost σ) (now : Nat) (s : σ) : σ × List (Process σ Unit) :=
  let interval := host.config.pollInterval.millisUp
  let fixes := (host.positioning.get s).fixes
  match host.monitor.get s with
  | none => (s, [])
  | some ⟨none, nextPoll⟩ =>
    (host.monitor.set (some { receiver := some fixes.subscribe, nextPoll }) s, [])
  | some ⟨some receiver, nextPoll⟩ =>
    -- A fix that has come in counts as a look at the position, so the next look moves away.
    if fixes.hasItems receiver then
      match fixes.receive receiver with
      | (.item l, receiver) =>
        let s := host.monitor.set (some { receiver := some receiver, nextPoll := now + interval }) s
        (host.dispatch l now s).2
      | (_, receiver) => (host.monitor.set (some { receiver := some receiver, nextPoll }) s, [])
    else if nextPoll ≤ now then
      let s := host.monitor.set (some { receiver := some receiver, nextPoll := now + interval }) s
      match (host.positioning.get s).currentPosition with
      | .ok l => (host.dispatch l now s).2
      | .error _ => (s, [])
    else (s, [])

def service (host : TrackerHost σ) : Service σ where
  deadline? := host.monitorDeadline?
  run := host.watch

/-- Replays a track: waits before each of its points and pushes it as a fix. -/
def replay (host : TrackerHost σ) (stamp : Nat → Instant) (accuracy : Float)
    (interval : Duration) : List Coordinates → Process σ Unit
  | [] => pure ()
  | point :: rest => do
    Process.sleep interval
    Process.change fun now => host.positioning.modify fun p =>
      p.push { lat := point.lat, lng := point.lng, accuracy, timestamp := stamp now }
    host.replay stamp accuracy interval rest

end TrackerHost

end Hearth

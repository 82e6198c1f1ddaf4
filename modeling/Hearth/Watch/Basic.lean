import Hearth.Data.Time
import Hearth.Event
import Hearth.Field
import Hearth.Process.Basic
import Hearth.Watch.Watchlist

/-!
# Hearth.Watch.Basic

Firing automations on the values of devices, within the surroundings of a `WatchHost`.
-/

namespace Hearth

structure WatchConfig where
  /-- The least time between two fires of one automation. -/
  cooldown : Duration
deriving DecidableEq, Repr, Inhabited

namespace WatchConfig

def standard : WatchConfig := ⟨.ofSecs 60⟩

def toData (c : WatchConfig) : Data :=
  .record [("cooldown", c.cooldown.toData)]

def ofData? (d : Data) : Option WatchConfig := do
  let f ← Fields.read? ["cooldown"] d
  let cooldown ← f.orElse "cooldown" standard.cooldown Duration.ofData?
  return { cooldown }

end WatchConfig

/-- The surroundings of the watchlist within a larger state. -/
structure WatchHost (σ : Type) where
  config : WatchConfig
  part : Field σ Watchlist
  lookup : σ → DeviceId → Option Device
  run : Automation → Process σ (Except Failure Unit)
  publish : Notice → Nat → σ → σ

namespace WatchHost

variable {σ : Type}

def watch (host : WatchHost σ) (a : Automation) (s : σ) : Except Failure Nat × σ :=
  let (result, s) := host.part.update (fun w => w.watch (host.lookup s) a) s
  match result with
  | .ok count => (.ok count, s)
  | .error fault => (.error (.trigger fault), s)

/-- Announces that a condition is met and runs the automation. -/
def fire (host : WatchHost σ) (d : Device) (a : Automation) : Process σ Unit := do
  Process.change (host.publish (.about .automationTriggered a.id.text
    [("name", .text a.name), ("trigger", .text "condition"), ("device_id", d.id.toData),
      ("value", d.value.toData)]))
  match ← host.run a with
  | .ok () => pure ()
  | .error failure =>
    Process.change (host.publish (.about .automationFailed a.id.text
      [("name", .text a.name), ("error", .text failure.message)]))

/-- Takes in the value of a device, and answers the automations that fire. -/
def collect (host : WatchHost σ) (d : Device) (now : Nat) (s : σ) : List Automation × σ :=
  host.part.update (fun w => w.update host.config.cooldown (.ofMillis now) d) s

/-- Takes in the value of a device and runs what fires, one automation after another. -/
def update (host : WatchHost σ) (d : Device) : Process σ (List AutomationId) := do
  let firing ← Process.step (host.collect d)
  let _ ← Process.inOrder (firing.map (host.fire d))
  return firing.map Automation.id

def updateAll (host : WatchHost σ) (devices : List Device) : Process σ (List AutomationId) := do
  let fired ← Process.inOrder (devices.map host.update)
  return fired.flatten

/-- Takes in the value of a device; what fires runs by itself. -/
def dispatch (host : WatchHost σ) (d : Device) (now : Nat) (s : σ) :
    List Automation × σ × List (Process σ Unit) :=
  let (firing, s) := host.collect d now s
  (firing, s, firing.map (host.fire d))

end WatchHost

end Hearth

import Hearth.Action
import Hearth.Device
import Hearth.Execution.Options
import Hearth.Process.Basic

/-!
# Hearth.Execution.Batch

Carrying out a batch of actions. Each command is tried until it succeeds, fails for good or has been
tried often enough. In sequence a batch stops at the first failure, unless it is to be undone; side
by side, and when it is to be undone, every action is carried out. Undoing sends the inverse command
to each device that was switched on or off, from the last action to the first, once.

The devices themselves are behind a `DeviceLink`, so that everything said here holds whatever they do.
-/

namespace Hearth

/-- What a device answers to a command. -/
structure CommandOutcome where
  accepted : Bool
  newState : Option DeviceValue
  error : Option String
  /-- In milliseconds. -/
  elapsed : Nat
deriving Repr, Inhabited

/-- The devices as seen from a state: what is known about them, and how to reach them. A command
that fails on the way has no outcome. -/
structure DeviceLink (σ : Type) where
  lookup : σ → DeviceId → Option Device
  send : Device → Command → Process σ (Except Failure CommandOutcome)

structure ActionResult where
  device : DeviceId
  kind : ActionKind
  success : Bool
  /-- In milliseconds. -/
  elapsed : Nat
  retries : Nat
  error : Option String
deriving DecidableEq, Repr, Inhabited

structure BatchResult where
  actions : List ActionResult
  /-- Every action was carried out and succeeded. -/
  success : Bool
  /-- In milliseconds. -/
  elapsed : Nat
  /-- The devices whose action was undone, in the order of undoing. -/
  rolledBack : List DeviceId
  /-- Set when the batch as a whole gave up. -/
  error : Option String
deriving DecidableEq, Repr, Inhabited

/-- What went wrong, if anything did. -/
def BatchResult.errorSummary? (r : BatchResult) : Option String :=
  if r.success then none
  else
    match r.error with
    | some error => some error
    | none =>
      let failures := (r.actions.filter fun a => !a.success).map fun a =>
        a.kind.text ++ " " ++ a.device.name ++ ": " ++ a.error.getD "failed"
      if failures.isEmpty then some "not every action ran" else some ("; ".intercalate failures)

def CommandOutcome.toData (o : CommandOutcome) : Data :=
  .record [("success", .bool o.accepted), ("new_state", .ofOption DeviceValue.toData o.newState),
    ("error", .ofText? o.error), ("ms", .nat o.elapsed)]

def ActionResult.toData (r : ActionResult) : Data :=
  .record [("device_id", r.device.toData), ("action", .text r.kind.text),
    ("success", .bool r.success), ("ms", .nat r.elapsed), ("retries", .nat r.retries),
    ("error", .ofText? r.error)]

def BatchResult.toData (r : BatchResult) : Data :=
  .record [("actions", .ofList ActionResult.toData r.actions), ("success", .bool r.success),
    ("total_ms", .nat r.elapsed), ("rolled_back", .ofList DeviceId.toData r.rolledBack),
    ("error", .ofText? r.error), ("summary", .ofText? r.errorSummary?)]

namespace Batch

variable {σ : Type}

/-- To toggle is to switch off a device that is on and to switch on any other. -/
def resolve (device : Device) : Command → Command
  | .toggle => if device.isOn then .turnOff else .turnOn
  | command => command

/-- What the answer of a device within its time amounts to. -/
def verdict (timeout : Duration) :
    Option (Except Failure CommandOutcome) → Except Failure Unit
  | none => .error (.timeout "device command" timeout)
  | some (.error failure) => .error failure
  | some (.ok outcome) =>
    if outcome.accepted then .ok ()
    else .error (.device (outcome.error.getD "device reported failure") false)

/-- One attempt, as long as the device has time. -/
def attempt (link : DeviceLink σ) (device : Device) (command : Command) (timeout : Duration) :
    Process σ (Except Failure Unit) := do
  let answer ← Process.limited timeout (link.send device (resolve device command))
  return verdict timeout answer

/-- Repeats an attempt after a passing failure, as often as retries remain. Answers the failure of
the last attempt, if it failed, and the number of retries. -/
def retrying (options : ExecutionOptions) (attempt : Process σ (Except Failure Unit)) :
    Nat → Nat → Process σ (Option Failure × Nat)
  | 0, retries => do
    match ← attempt with
    | .ok () => return (none, retries)
    | .error failure => return (some failure, retries)
  | remaining + 1, retries => do
    match ← attempt with
    | .ok () => return (none, retries)
    | .error failure =>
      if failure.isPassing then do
        Process.sleep (options.backoff (retries + 1))
        retrying options attempt remaining (retries + 1)
      else return (some failure, retries)

/-- Carries out one action. The device is looked up once, before the first attempt. -/
def executeOne (link : DeviceLink σ) (options : ExecutionOptions) (a : Action) :
    Process σ ActionResult := do
  let start ← Process.now
  let (error, retries) ←
    match a.command with
    | .error fault => pure (some (Failure.record fault), 0)
    | .ok command => do
      match ← Process.view fun s => link.lookup s a.device with
      | none => pure (some (Failure.notFound "Device" a.device.name), 0)
      | some device =>
        retrying options (attempt link device command options.timeout) options.maxRetries 0
  let finish ← Process.now
  return {
    device := a.device
    kind := a.kind
    success := error.isNone
    elapsed := finish - start
    retries
    error := error.map Failure.message }

/-- One action after another, up to the first failure unless `throughout`. -/
def executeInOrder (link : DeviceLink σ) (options : ExecutionOptions) (throughout : Bool) :
    List Action → Process σ (List ActionResult)
  | [] => pure []
  | a :: rest => do
    let result ← executeOne link options a
    if result.success || throughout then do
      let results ← executeInOrder link options throughout rest
      return result :: results
    else return [result]

/-- Undoes the actions of a list that succeeded, in the order of the list. -/
def undo (link : DeviceLink σ) (options : ExecutionOptions) :
    List (Action × ActionResult) → Process σ (List DeviceId)
  | [] => pure []
  | (a, result) :: rest => do
    -- What failed has changed nothing, so there is nothing to undo.
    let inverse := if result.success then a.kind.inverse? else none
    let undone ←
      match inverse with
      | none => pure false
      | some kind => do
        match ← Process.view fun s => link.lookup s a.device with
        | none => pure false
        | some device =>
          let command := if kind = .turnOn then Command.turnOn else Command.turnOff
          let answer ← attempt link device command options.timeout
          pure answer.isOk
    let others ← undo link options rest
    return if undone then a.device :: others else others

def allSucceeded (actions : List Action) (results : List ActionResult) : Bool :=
  results.length == actions.length && results.all fun r => r.success

/-- The results of the actions, and the devices whose action was undone. -/
def orchestrate (link : DeviceLink σ) (options : ExecutionOptions) (actions : List Action) :
    Process σ (List ActionResult × List DeviceId) := do
  let results ←
    if options.parallel then Process.together (actions.map (executeOne link options))
    else executeInOrder link options options.rollback actions
  let rolledBack ←
    if options.rollback && !allSucceeded actions results then
      undo link options (actions.zip results).reverse
    else pure []
  return (results, rolledBack)

/-- Carries out a batch. A crash on the way leaves no results but its message. -/
def execute (link : DeviceLink σ) (options : ExecutionOptions) (actions : List Action) :
    Process σ BatchResult := do
  let start ← Process.now
  let outcome ← Process.rescue (orchestrate link options actions)
  let finish ← Process.now
  match outcome with
  | .ok (results, rolledBack) =>
    return {
      actions := results
      success := allSucceeded actions results
      elapsed := finish - start
      rolledBack
      error := none }
  | .error cause =>
    return {
      actions := []
      success := false
      elapsed := finish - start
      rolledBack := []
      error := some (cause.message.getD "unknown panic") }

/-- Carries out a batch for someone who only asks whether it succeeded. -/
def run (link : DeviceLink σ) (options : ExecutionOptions) (actions : List Action) :
    Process σ (Except Failure Unit) := do
  let result ← execute link options actions
  match result.errorSummary? with
  | none => return .ok ()
  | some summary => return .error (.device summary false)

end Batch

end Hearth

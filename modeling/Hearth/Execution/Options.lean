import Hearth.Data.Time

/-!
# Hearth.Execution.Options

How a batch of actions is carried out: how often a command is tried again, how long to wait for a
device, whether the actions go on side by side, and whether a failed batch is undone.
-/

namespace Hearth

structure ExecutionOptions where
  /-- A command is tried at most once more than this. -/
  maxRetries : Nat
  /-- The wait before the first retry; before each further one it is twice as long. -/
  retryDelay : Duration
  /-- The time that a device has for one attempt. -/
  timeout : Duration
  parallel : Bool
  rollback : Bool
deriving DecidableEq, Repr, Inhabited

namespace ExecutionOptions

def standard : ExecutionOptions :=
  { maxRetries := 3, retryDelay := .ofMillis 1000, timeout := .ofMillis 5000,
    parallel := false, rollback := false }

/-- The wait before a retry, counted from one. The factor stays within 32 bits and the wait within
the longest duration. -/
def backoff (o : ExecutionOptions) (retry : Nat) : Duration :=
  o.retryDelay.times (if retry - 1 < 32 then Nat.pow 2 (retry - 1) else Number.maxWord32)

def toData (o : ExecutionOptions) : Data :=
  .record [("max_retries", .whole o.maxRetries), ("retry_delay", o.retryDelay.toData),
    ("timeout", o.timeout.toData), ("parallel", .bool o.parallel), ("rollback", .bool o.rollback)]

def inMillis (o : ExecutionOptions) : Data :=
  .record [("max_retries", .whole o.maxRetries), ("retry_delay_ms", .nat o.retryDelay.millis),
    ("timeout_ms", .nat o.timeout.millis), ("parallel", .bool o.parallel),
    ("rollback", .bool o.rollback)]

/-- Reads options with durations in milliseconds. What is missing takes its standard. -/
def ofMillis (d : Data) : ExecutionOptions :=
  { maxRetries := ((d.entry "max_retries").natUpTo? Number.maxWord32).getD standard.maxRetries
    retryDelay := (Duration.ofMillisData? (d.entry "retry_delay_ms")).getD standard.retryDelay
    timeout := (Duration.ofMillisData? (d.entry "timeout_ms")).getD standard.timeout
    parallel := (d.entry "parallel").bool?.getD standard.parallel
    rollback := (d.entry "rollback").bool?.getD standard.rollback }

def ofData? (d : Data) : Option ExecutionOptions := do
  let f ← Fields.read? ["max_retries", "retry_delay", "timeout", "parallel", "rollback"] d
  let maxRetries ← f.orElse "max_retries" standard.maxRetries (Data.natUpTo? Number.maxWord32)
  let retryDelay ← f.orElse "retry_delay" standard.retryDelay Duration.ofData?
  let timeout ← f.orElse "timeout" standard.timeout Duration.ofData?
  let parallel ← f.orElse "parallel" standard.parallel Data.bool?
  let rollback ← f.orElse "rollback" standard.rollback Data.bool?
  return { maxRetries, retryDelay, timeout, parallel, rollback }

end ExecutionOptions

end Hearth

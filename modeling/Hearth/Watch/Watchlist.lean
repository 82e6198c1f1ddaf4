import Hearth.Automation
import Hearth.Table
import Hearth.Watch.Condition

/-!
# Hearth.Watch.Watchlist

The conditions that are watched, indexed by the device that each of them is about. A condition fires
its automation when it was known not to be met and is met now, unless the automation has fired a
short while ago.
-/

namespace Hearth

/-- A condition of an automation, by the position of its trigger. -/
structure WatchKey where
  automation : AutomationId
  index : Nat
deriving DecidableEq, Repr, Inhabited

structure Subscription where
  key : WatchKey
  device : DeviceId
  trigger : Trigger
  /-- Whether the condition was met when it was last looked at. -/
  lastResult : Option Bool
deriving Repr, Inhabited

/-- How long ago an automation fired, and how long it still has to rest. -/
structure RestStatus where
  resting : Bool
  sinceLastFire : Option Duration
  remaining : Duration
deriving DecidableEq, Repr

def Subscription.toData (s : Subscription) : Data :=
  .record [("automation_id", s.key.automation.toData), ("trigger_index", .nat s.key.index),
    ("device_id", s.device.toData), ("trigger", s.trigger.toData),
    ("last_result", .ofOption .bool s.lastResult), ("evaluated", .bool s.lastResult.isSome)]

def RestStatus.toData (s : RestStatus) : Data :=
  .record [("in_cooldown", .bool s.resting),
    ("since_ms", .ofOption (fun since => .nat since.millis) s.sinceLastFire),
    ("remaining_ms", .nat s.remaining.millis)]

structure Watchlist where
  /-- The automations that have a subscription, as they were when they were watched. -/
  automations : Table AutomationId Automation
  subscriptions : Table WatchKey Subscription
  /-- The subscriptions on each device. -/
  byDevice : Table DeviceId (List WatchKey)
  /-- When each automation fired last, by the time since the beginning. -/
  lastFired : Table AutomationId Duration
deriving Repr, Inhabited

namespace Watchlist

def empty : Watchlist := ⟨.empty, .empty, .empty, .empty⟩

/-- Drops the keys of an automation from the index, and the devices that have no key left. -/
def dropFromIndex (id : AutomationId) (index : Table DeviceId (List WatchKey)) :
    Table DeviceId (List WatchKey) :=
  ⟨(index.entries.map fun (device, keys) =>
      (device, keys.filter fun key => key.automation ≠ id)).filter
    fun (_, keys) => !keys.isEmpty⟩

/-- Drops the subscriptions of an automation; when it fired last is remembered. -/
def detach (w : Watchlist) (id : AutomationId) : Watchlist :=
  { w with
    automations := w.automations.erase id
    subscriptions := w.subscriptions.filter fun key _ => key.automation ≠ id
    byDevice := dropFromIndex id w.byDevice }

/-- Forgets an automation; answers whether it was watched. -/
def unwatch (w : Watchlist) (id : AutomationId) : Bool × Watchlist :=
  (w.automations.contains id, { w.detach id with lastFired := w.lastFired.erase id })

/-- Adds a subscription and its entry in the index. -/
def subscribe (w : Watchlist) (s : Subscription) : Watchlist :=
  { w with
    subscriptions := w.subscriptions.insert s.key s
    byDevice := w.byDevice.insert s.device ((w.byDevice.get? s.device).getD [] ++ [s.key]) }

/-- The subscriptions for the conditions of an automation. A device that is known already gives the
result to start from. -/
def subscriptionsOf (lookup : DeviceId → Option Device) (a : Automation) : List Subscription :=
  a.conditionTriggers.filterMap fun (index, trigger) =>
    trigger.device?.map fun device =>
      { key := ⟨a.id, index⟩, device, trigger,
        lastResult := (lookup device).map fun d => (trigger.evaluate d.value).met }

/-- Watches the conditions of an automation in place of those watched for it before, and answers
their number. A disabled automation and one with a fault are forgotten. -/
def watch (w : Watchlist) (lookup : DeviceId → Option Device) (a : Automation) :
    Except TriggerFault Nat × Watchlist :=
  match a.checkTriggers with
  | .error fault => (.error fault, (w.unwatch a.id).2)
  | .ok () =>
    if !a.enabled then (.ok 0, (w.unwatch a.id).2)
    else
      let subscriptions := subscriptionsOf lookup a
      let w := subscriptions.foldl subscribe (w.detach a.id)
      let w :=
        if subscriptions.isEmpty then w
        else { w with automations := w.automations.insert a.id a }
      (.ok subscriptions.length, w)

/-- Whether an automation has fired less than the cooldown ago. -/
def isResting (w : Watchlist) (cooldown now : Duration) (id : AutomationId) : Bool :=
  match w.lastFired.get? id with
  | some last => decide ((now.minus last).nanos < cooldown.nanos)
  | none => false

/-- Looks at one subscription again. The automation joins those that fire if the condition has
become met, the automation is not among them and is not resting. -/
def reevaluate (cooldown now : Duration) (value : DeviceValue)
    (state : List Automation × Watchlist) (key : WatchKey) : List Automation × Watchlist :=
  let (firing, w) := state
  match w.subscriptions.get? key with
  | none => (firing, w)
  | some s =>
    let met := (s.trigger.evaluate value).met
    let seen : Watchlist :=
      { w with subscriptions := w.subscriptions.insert key { s with lastResult := some met } }
    -- The result is kept in every case; only the step from not met to met may fire.
    let isEdge := s.lastResult == some false && met
    if !isEdge || firing.any (fun a => a.id == key.automation)
        || w.isResting cooldown now key.automation
    then (firing, seen)
    else
      match w.automations.get? key.automation with
      | none => (firing, seen)
      | some a => (firing ++ [a], { seen with lastFired := seen.lastFired.insert a.id now })

/-- Takes in the value of a device, and answers the automations that fire. -/
def update (w : Watchlist) (cooldown now : Duration) (d : Device) :
    List Automation × Watchlist :=
  ((w.byDevice.get? d.id).getD []).foldl (reevaluate cooldown now d.value) ([], w)

def restStatus (w : Watchlist) (cooldown now : Duration) (id : AutomationId) : RestStatus :=
  match w.lastFired.get? id with
  | none => ⟨false, none, .zero⟩
  | some last =>
    let since := now.minus last
    let remaining := cooldown.minus since
    ⟨!remaining.isZero, some since, remaining⟩

def subscriptionsFor (w : Watchlist) (device : DeviceId) : List Subscription :=
  ((w.byDevice.get? device).getD []).filterMap w.subscriptions.get?

def count (w : Watchlist) : Nat := w.subscriptions.size

end Watchlist

end Hearth

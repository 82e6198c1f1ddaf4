import Hearth.Channel
import Hearth.Execution.Batch
import Hearth.Field
import Hearth.Fleet.Appliance
import Hearth.Process.Basic

/-!
# Hearth.Fleet.Basic

A fleet of simulated devices behind one line. Every command takes the latency of the line; a device
may be out of reach; and whatever a device reports anew is announced to those who listen.
-/

namespace Hearth

structure Fleet where
  /-- Sorted by identifier. -/
  appliances : List Appliance
  unreachable : List DeviceId
  latency : Duration
  updates : Channel Device
deriving Repr, Inhabited

namespace Fleet

/-- Those who listen may fall behind by this many updates. -/
def channelCapacity : Nat := 64

def empty : Fleet :=
  { appliances := [], unreachable := [], latency := .zero, updates := .ofCapacity channelCapacity }

/-- Puts an appliance into a sorted list, in place of the one with its identifier. -/
def insertInto (a : Appliance) : List Appliance → List Appliance
  | [] => [a]
  | b :: rest =>
    if a.id = b.id then a :: rest
    else if a.id.name < b.id.name then a :: b :: rest
    else b :: insertInto a rest

def add (f : Fleet) (a : Appliance) : Fleet := { f with appliances := insertInto a f.appliances }

def ofList (appliances : List Appliance) : Fleet := appliances.foldl add empty

/-- A small household to try things out with. -/
def demo : Fleet :=
  ofList
    [.light "light.living_room" "Living room light", .light "light.hallway" "Hallway light",
      .switch "switch.coffee_maker" "Coffee maker",
      .sensor "sensor.living_temperature" "Living room temperature" 21.5,
      .thermostat "thermostat.hall" "Hall thermostat" 19]

def get? (f : Fleet) (id : DeviceId) : Option Appliance :=
  f.appliances.find? fun a => a.id == id

def devices (f : Fleet) (now : Instant) : List Device :=
  f.appliances.map fun a => a.device now

/-- Takes a device out of reach, or back into it. -/
def setUnreachable (f : Fleet) (id : DeviceId) (unreachable : Bool) : Fleet :=
  let others := f.unreachable.filter fun other => other ≠ id
  { f with unreachable := if unreachable then id :: others else others }

def announce (f : Fleet) (d : Device) : Fleet := { f with updates := f.updates.send d }

/-- Gives a sensor a new reading and announces it; answers nothing if there is no such sensor. -/
def setReading (f : Fleet) (now : Instant) (id : DeviceId) (reading : Float) :
    Option Device × Fleet :=
  match f.get? id with
  | some ⟨id, name, .sensor _⟩ =>
    let changed : Appliance := ⟨id, name, .sensor reading⟩
    (some (changed.device now), (f.add changed).announce (changed.device now))
  | _ => (none, f)

/-- Lets a device carry out a command. A device out of reach may be in reach the next time. -/
def carryOut (f : Fleet) (now : Instant) (elapsed : Nat) (id : DeviceId) (command : Command) :
    Except Failure CommandOutcome × Fleet :=
  if f.unreachable.contains id then (.error (.device (id.name ++ " is unreachable") true), f)
  else
    let refused (reason : String) : Except Failure CommandOutcome :=
      .ok { accepted := false, newState := none, error := some reason, elapsed }
    match f.get? id with
    | none => (refused ("unknown virtual device " ++ id.name), f)
    | some a =>
      match a.apply command with
      | .error reason => (refused reason, f)
      | .ok changed =>
        (.ok { accepted := true, newState := some changed.value, error := none, elapsed },
          (f.add changed).announce (changed.device now))

/-- Sends a command to a device of the fleet. `stamp` is the time to be noted, by the milliseconds
since the beginning. -/
def send {σ : Type} (part : Field σ Fleet) (stamp : Nat → Instant) (d : Device)
    (command : Command) : Process σ (Except Failure CommandOutcome) := do
  let start ← Process.now
  let latency ← Process.view fun s => (part.get s).latency
  Process.sleep latency
  Process.step fun now =>
    part.update fun f => f.carryOut (stamp now) (now - start) d.id command

/-- Reads a fleet; without devices of its own it is the demo. The first appliance with a fault is the
fault of the fleet. -/
def ofData (d : Data) : Except ApplianceFault Fleet := do
  let fleet ←
    match d.entry "devices" with
    | .null => .ok demo
    | .list items => (items.mapM Appliance.ofData).map ofList
    | _ => .error .unreadable
  let latency := (Duration.ofMillisData? (d.entry "latency_ms")).getD .zero
  let far := (d.entry "unreachable").items.filterMap DeviceId.ofData?
  return far.foldl (fun f id => f.setUnreachable id true) { fleet with latency }

theorem get?_insertInto (a : Appliance) (id : DeviceId) (appliances : List Appliance) :
    ((insertInto a appliances).find? fun b => b.id == id) =
      if id = a.id then some a else appliances.find? fun b => b.id == id := by
  induction appliances with
  | nil =>
    by_cases same : id = a.id
    · simp [insertInto, same]
    · simp [insertInto, same, Ne.symm same]
  | cons b rest ih =>
    unfold insertInto
    by_cases found : b.id = id
    · subst found
      by_cases replaced : a.id = b.id
      · simp [replaced]
      · have other : ¬b.id = a.id := fun h => replaced h.symm
        by_cases before : a.id.name < b.id.name <;> simp [replaced, other, before]
    · by_cases replaced : a.id = b.id
      · have other : ¬id = a.id := fun h => found (h.trans replaced).symm
        have absent : ¬a.id = id := fun h => other h.symm
        simp [← replaced, other, absent]
      · by_cases before : a.id.name < b.id.name
        · by_cases same : id = a.id
          · simp [replaced, before, same]
          · have absent : ¬a.id = id := fun h => same h.symm
            simp [replaced, before, same, absent]
        · simp [replaced, before, found, ih]

theorem get?_add (f : Fleet) (a : Appliance) (id : DeviceId) :
    (f.add a).get? id = if id = a.id then some a else f.get? id :=
  get?_insertInto a id f.appliances

end Fleet

end Hearth

import Hearth.Household
import Hearth.Rehearsal.Journal
import Hearth.Rehearsal.Script

/-!
# Hearth.Rehearsal.Basic

A household in which some parts are played by stand-ins, with a journal of what was announced and
of what the stand-ins were asked to do.
-/

namespace Hearth

structure Rehearsal where
  house : Household
  script : Script
  journal : Journal
deriving Repr, Inhabited

namespace Rehearsal

def create (house : Household) (script : Script) : Rehearsal := { house, script, journal := [] }

def houseField : Field Rehearsal Household where
  get r := r.house
  set house r := { r with house }

def note (sight : Sight) (now : Nat) (r : Rehearsal) : Rehearsal :=
  { r with journal := r.journal ++ [⟨now, sight⟩] }

/-- The household of a rehearsal; what is announced goes into the journal. -/
def host (stamp : Nat → Instant) : HouseholdHost Rehearsal :=
  { part := houseField, stamp, publish := fun notice => note (.announced notice) }

/-- Takes down what a stand-in is asked to do, and takes its reply. -/
def cue (sight : Sight) (name : String) : Process Rehearsal Reply :=
  Process.step fun now r =>
    let noted := note sight now r
    let (reply, script) := noted.script.take name
    (reply, { noted with script })

/-- A stand-in for running automations. -/
def run (a : Automation) : Process Rehearsal (Except Failure Unit) := do
  let reply ← cue (.ran a.id a.name) a.id.text
  reply.perform

/-- A stand-in for carrying out the actions of flows, up to the first failure. -/
def runActions : List Action → Process Rehearsal (Except Failure Unit)
  | [] => pure (.ok ())
  | a :: rest => do
    let reply ← cue (.acted a) a.device.name
    match ← reply.perform with
    | .ok () => runActions rest
    | .error failure => return .error failure

/-- The registry takes note of a device that was switched on or off. -/
def switch (stamp : Nat → Instant) (d : Device) (command : Command) (now : Nat) (r : Rehearsal) :
    Rehearsal :=
  let record (on : Bool) : Rehearsal :=
    (host stamp).registry.modify (fun g => (g.setValue (stamp now) d.id (.bool on)).2) r
  match command with
  | .turnOn => record true
  | .turnOff => record false
  | _ => r

/-- What a stand-in for a device answers in the end. -/
def outcome (refusal : Option (Option String)) : CommandOutcome :=
  match refusal with
  | some reason => { accepted := false, newState := none, error := reason, elapsed := 0 }
  | none => { accepted := true, newState := none, error := none, elapsed := 0 }

/-- A stand-in for a device. If it is `prompt`, the registry hears of a switch at once. -/
def send (stamp : Nat → Instant) (prompt : Bool) (d : Device) (command : Command) :
    Process Rehearsal (Except Failure CommandOutcome) := do
  let reply ← cue (.commanded d.id command d.value) d.id.name
  match ← reply.perform with
  | .error failure => return .error failure
  | .ok () =>
    if prompt && reply.refusal.isNone then Process.change (switch stamp d command)
    return .ok (outcome reply.refusal)

def link (stamp : Nat → Instant) (prompt : Bool) : DeviceLink Rehearsal :=
  { lookup := (host stamp).lookup, send := send stamp prompt }

/-- The journal since it was last read. -/
def readJournal (r : Rehearsal) : Journal × Rehearsal :=
  (r.journal, { r with journal := [] })

end Rehearsal

end Hearth

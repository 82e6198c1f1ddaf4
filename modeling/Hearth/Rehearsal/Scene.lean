import Hearth.Process.Timeline
import Hearth.Rehearsal.Aliases
import Hearth.Rehearsal.Basic

/-!
# Hearth.Rehearsal.Scene

Directing a rehearsal from outside. A scene changes the stage and answers; everything that can go on
without time passing goes on before the next scene.
-/

namespace Hearth

structure Stage where
  line : Timeline Rehearsal
  aliases : Aliases
  /-- How many records were stamped with the present. -/
  stamped : Nat
  /-- Which position fix each onlooker expects next. -/
  onlookers : List Nat
  /-- The journal is shown in order. -/
  orderly : Bool

/-- A stage on which nothing has happened. -/
def Stage.empty (house : Household) : Stage :=
  { line := .start (.create house .empty) [], aliases := .empty, stamped := 0, onlookers := []
    orderly := false }

/-- Nothing is left of the stage when a process in the foreground has crashed. -/
def Scene (α : Type) : Type 1 := Stage → Option (α × Stage)

namespace Scene

variable {α : Type}

instance : Monad Scene where
  pure a := fun stage => some (a, stage)
  bind scene next := fun stage =>
    match scene stage with
    | none => none
    | some (a, stage) => next a stage

def look (f : Stage → α) : Scene α := fun stage => some (f stage, stage)

def alter (f : Stage → Stage) : Scene Unit := fun stage => some ((), f stage)

def crash : Scene α := fun _ => none

/-- The answer of an operation; without one the scene has crashed. -/
def expect (answer : Option α) : Scene α := fun stage => answer.map fun a => (a, stage)

/-- Carries out a process, and everything that goes on beside it. -/
def play (p : Process Rehearsal α) : Scene α := fun stage =>
  match stage.line.perform p with
  | (some (.ok a), line) => some (a, { stage with line })
  | _ => none

def watch (f : Rehearsal → α) : Scene α := look fun stage => f stage.line.state

/-- The milliseconds since the beginning. -/
def time : Scene Nat := look fun stage => stage.line.now

/-- Changes the state, given the time, and answers. -/
def act (f : Nat → Rehearsal → α × Rehearsal) : Scene α := play (Process.step f)

/-- Changes the state, given the time, and answers or crashes. -/
def attempt (f : Nat → Rehearsal → Option α × Rehearsal) : Scene α := play (Process.attempt f)

def change (f : Nat → Rehearsal → Rehearsal) : Scene Unit := play (Process.change f)

def update {τ : Type} (part : Field Rehearsal τ) (f : τ → α × τ) : Scene α :=
  act fun _ => part.update f

def modify {τ : Type} (part : Field Rehearsal τ) (f : τ → τ) : Scene Unit :=
  change fun _ => part.modify f

/-- Changes the state, given the time, and starts processes. -/
def launch (f : Nat → Rehearsal → α × Rehearsal × List (Process Rehearsal Unit)) : Scene α :=
  fun stage =>
    let (a, state, started) := f stage.line.now stage.line.state
    let line := { stage.line with state, jobs := stage.line.jobs ++ started }
    play (.done a) { stage with line }

def start (p : Process Rehearsal Unit) : Scene Unit := launch fun _ r => ((), r, [p])

def sleep (d : Duration) : Scene Unit := play (Process.sleep d)

/-- Begins anew with a household. -/
def begin (house : Household) (script : Script) (services : List (Service Rehearsal)) :
    Scene Unit :=
  alter fun stage => { stage with line := .start (.create house script) services }

/-- The journal since it was last read. -/
def takeJournal : Scene Journal := act fun _ r => r.readJournal

/-- What the fleet has announced since this was last asked. -/
def takeAnnouncements : Scene (List Device) :=
  update Rehearsal.houseField fun house =>
    (house.fleet.updates.drain house.listener, { house with listener := house.fleet.updates.sent })

/-- The position fixes that each onlooker has received since this was last asked. -/
def takeFixes : Scene (List (List Location)) := do
  let fixes ← watch fun r => r.house.positioning.fixes
  let seen ← look fun stage => stage.onlookers.map fixes.drain
  alter fun stage => { stage with onlookers := stage.onlookers.map fun _ => fixes.sent }
  return seen

/-- An identifier to be used for a record that is being made. -/
def freshId : Scene Uuid := look fun stage => stage.aliases.fresh

/-- Gives an identifier a name if the record in which it stands was written without one. -/
def nameId (written : Data) (id : String) : Scene Unit :=
  if (written.get? "id").isSome then pure ()
  else alter fun stage => { stage with aliases := stage.aliases.add id }

/-- How many records were stamped with the present before this one. -/
def stamp : Scene Nat := fun stage =>
  some (stage.stamped, { stage with stamped := stage.stamped + 1 })

end Scene

end Hearth

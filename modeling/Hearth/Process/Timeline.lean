import Hearth.Process.Basic

/-!
# Hearth.Process.Timeline

Time with everything that goes on in it: the shared state, the processes that were started, and the
services, which never end and keep their own state within the shared one.

Time stands still as long as something can be carried on; then it moves to the next instant at which
something can. A process in the foreground is carried on before the others.
-/

namespace Hearth

/-- Work that never ends. `deadline?` is the next instant at which it has something to do, as far as
the state tells; `run` does one piece of it and may start processes. -/
structure Service (σ : Type) where
  deadline? : σ → Option Nat
  run : Nat → σ → σ × List (Process σ Unit)

structure Timeline (σ : Type) where
  /-- Milliseconds since the beginning. -/
  now : Nat
  state : σ
  jobs : List (Process σ Unit)
  services : List (Service σ)

namespace Timeline

variable {σ α : Type}

def start (state : σ) (services : List (Service σ)) : Timeline σ :=
  { now := 0, state, jobs := [], services }

/-- Carries the due ones of the jobs on, in order. Jobs that had to wait come first afterwards, then
those that were carried on and have to wait again, then those that were started. -/
def pollJobs (t : Timeline σ) : Timeline σ :=
  let (waiting, due) := t.jobs.partition fun job => !job.isDue t.now
  let round := due.foldl (fun (round : σ × List (Process σ Unit) × List (Process σ Unit)) job =>
    let (state, again, started) := round
    let r := job.poll t.now state
    (r.state, if r.left.answer?.isSome then again else again ++ [r.left], started ++ r.started))
    (t.state, [], [])
  { t with state := round.1, jobs := waiting ++ round.2.1 ++ round.2.2 }

def Service.isDue (service : Service σ) (now : Nat) (state : σ) : Bool :=
  match service.deadline? state with
  | some instant => instant ≤ now
  | none => false

/-- Lets every due service do one piece of work, in order. -/
def runServices (t : Timeline σ) : Timeline σ :=
  t.services.foldl (fun t service =>
    if Service.isDue service t.now t.state then
      let (state, started) := service.run t.now t.state
      { t with state, jobs := t.jobs ++ started }
    else t) t

/-- Whether nothing can be carried on without time passing. -/
def isQuiet (t : Timeline σ) : Bool :=
  !(t.jobs.any fun job => job.isDue t.now)
    && !(t.services.any fun service => Service.isDue service t.now t.state)

/-- Carries everything on at the present instant until all is quiet, in at most so many rounds. -/
def settle (t : Timeline σ) : Nat → Timeline σ
  | 0 => t
  | rounds + 1 => if t.isQuiet then t else t.pollJobs.runServices.settle rounds

/-- The next instant at which a job or a service can be carried on. -/
def nextInstant? (t : Timeline σ) : Option Nat :=
  let jobs := t.jobs.foldl (fun best job => Process.earlier best job.deadline?) none
  t.services.foldl (fun best service => Process.earlier best (service.deadline? t.state)) jobs

/-- How many rounds an instant may take. -/
def roundLimit : Nat := 100000

/-- Carries a process in the foreground on to its end, and everything else along with it. Nothing is
answered if that takes more than the given number of instants. -/
def complete (t : Timeline σ) (p : Process σ α) : Nat → Option (Except Crash α) × Timeline σ
  | 0 => (none, t)
  | instants + 1 =>
    let r := p.poll t.now t.state
    let t := { t with state := r.state, jobs := t.jobs ++ r.started }.settle roundLimit
    match r.left.answer? with
    | some answer => (some answer, t)
    | none =>
      match Process.earlier r.left.deadline? t.nextInstant? with
      | none => (none, t)
      | some instant => { t with now := max t.now instant }.complete r.left instants

/-- How many instants a process in the foreground may take. -/
def instantLimit : Nat := 1000000000

/-- Carries a process in the foreground on to its end. -/
def perform (t : Timeline σ) (p : Process σ α) : Option (Except Crash α) × Timeline σ :=
  t.complete p instantLimit

end Timeline

end Hearth

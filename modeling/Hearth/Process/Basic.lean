import Hearth.Time.Duration

/-!
# Hearth.Process.Basic

Processes: work that goes on while time passes. A process reads and changes a state of type `σ` that
it shares with others, waits, races a deadline, runs two processes side by side, or starts another
one that goes on without it. Time is a count of whole milliseconds; a process takes none except by
waiting.

`poll` carries a process as far as it gets at one instant. What is left is again a process, and
`deadline?` is the next instant at which it can get any further.

A process is a tree of its possible continuations and therefore always ends; what never ends is a
`Service` of the timeline.
-/

namespace Hearth

/-- A process gave up in an unforeseen way. The cause is a text, or something else. -/
structure Crash where
  message : Option String
deriving DecidableEq, Repr, Inhabited

inductive Process (σ : Type) : Type → Type 1
  | done {α : Type} (value : α) : Process σ α
  | crash {α : Type} (cause : Crash) : Process σ α
  /-- Reads the time and the state and changes the state. -/
  | act {α β : Type} (step : Nat → σ → β × σ) (next : β → Process σ α) : Process σ α
  | waitUntil {α : Type} (instant : Nat) (next : Unit → Process σ α) : Process σ α
  /-- Runs the body until it is done or the instant has come, when the body is dropped. -/
  | within {α β : Type} (instant : Nat) (body : Process σ β) (next : Option β → Process σ α) :
    Process σ α
  /-- Runs the body and takes note of its crash. -/
  | guarded {α β : Type} (body : Process σ β) (next : Except Crash β → Process σ α) : Process σ α
  /-- Runs two processes side by side, the left one first at every instant. -/
  | both {α β γ : Type} (left : Process σ β) (right : Process σ γ) (next : β → γ → Process σ α) :
    Process σ α
  /-- Starts another process. -/
  | fork {α : Type} (child : Process σ Unit) (next : Unit → Process σ α) : Process σ α

namespace Process

variable {σ α β γ : Type}

instance : Inhabited (Process σ α) := ⟨.crash ⟨none⟩⟩

/-! ### Sequence -/

/-- Goes on with `k` where the process is done. -/
def bind {α β : Type} (p : Process σ α) (k : α → Process σ β) : Process σ β :=
  match p with
  | .done value => k value
  | .crash cause => .crash cause
  | .act step next => .act step fun b => (next b).bind k
  | .waitUntil instant next => .waitUntil instant fun u => (next u).bind k
  | .within instant body next => .within instant body fun b => (next b).bind k
  | .guarded body next => .guarded body fun b => (next b).bind k
  | .both left right next => .both left right fun b c => (next b c).bind k
  | .fork child next => .fork child fun u => (next u).bind k

instance : Monad (Process σ) where
  pure := .done
  bind := bind

theorem bind_eq (p : Process σ α) (k : α → Process σ β) : p >>= k = p.bind k := rfl

@[simp] theorem done_bind (a : α) (k : α → Process σ β) : (done a).bind k = k a := rfl

@[simp] theorem bind_done {α : Type} (p : Process σ α) : p.bind done = p := by
  induction p with
  | done => rfl
  | crash => rfl
  | act step next ih => simp only [bind, ih]
  | waitUntil instant next ih => simp only [bind, ih]
  | within instant body next _ ih => simp only [bind, ih]
  | guarded body next _ ih => simp only [bind, ih]
  | both left right next _ _ ih => simp only [bind, ih]
  | fork child next _ ih => simp only [bind, ih]

theorem bind_assoc {α β γ : Type} (p : Process σ α) (k : α → Process σ β) (l : β → Process σ γ) :
    (p.bind k).bind l = p.bind fun a => (k a).bind l := by
  induction p with
  | done => rfl
  | crash => rfl
  | act step next ih => simp only [bind, ih]
  | waitUntil instant next ih => simp only [bind, ih]
  | within instant body next _ ih => simp only [bind, ih]
  | guarded body next _ ih => simp only [bind, ih]
  | both left right next _ _ ih => simp only [bind, ih]
  | fork child next _ ih => simp only [bind, ih]

instance : LawfulMonad (Process σ) :=
  LawfulMonad.mk' _
    (fun p => bind_done p)
    (fun _ _ => rfl)
    (fun p k l => bind_assoc p k l)

/-! ### Elementary processes -/

/-- The milliseconds since the beginning. -/
def now : Process σ Nat := .act (fun now s => (now, s)) .done

def view (f : σ → α) : Process σ α := .act (fun _ s => (f s, s)) .done

/-- Changes the state, given the time. -/
def change (f : Nat → σ → σ) : Process σ Unit := .act (fun now s => ((), f now s)) .done

/-- Changes the state and answers, given the time. -/
def step (f : Nat → σ → α × σ) : Process σ α := .act f .done

/-- Changes the state and answers, given the time. Where there is no answer the process crashes. -/
def attempt (f : Nat → σ → Option α × σ) : Process σ α :=
  .act f fun
    | some answer => .done answer
    | none => .crash ⟨none⟩

/-- Waits. A wait ends at the first whole millisecond at or after its end, and in thirty years at the
latest. -/
def sleep (d : Duration) : Process σ Unit := do
  let start ← now
  .waitUntil (start + d.waitMillis) .done

/-- Gives a process so much time; it has none left if it is not done by then. The time ends at the first
whole millisecond at or after its end, however long it is. -/
def limited (d : Duration) (body : Process σ α) : Process σ (Option α) := do
  let start ← now
  .within (start + d.millisUp) body .done

/-- The crash of a process, or its value. -/
def rescue (body : Process σ α) : Process σ (Except Crash α) := .guarded body .done

/-- Starts a process that goes on by itself. -/
def spawn (child : Process σ Unit) : Process σ Unit := .fork child .done

/-- Runs the processes side by side, in their order at every instant. -/
def together : List (Process σ α) → Process σ (List α)
  | [] => .done []
  | p :: rest => .both p (together rest) fun a as => .done (a :: as)

def inOrder : List (Process σ α) → Process σ (List α)
  | [] => .done []
  | p :: rest => do
    let a ← p
    let as ← inOrder rest
    return a :: as

/-! ### Running at one instant -/

/-- How far a process got: what is left of it, the state, and the processes that it started. -/
structure Progress (σ α : Type) where
  left : Process σ α
  state : σ
  started : List (Process σ Unit)

/-- Adds processes that were started before. -/
def Progress.after (p : Progress σ α) (earlier : List (Process σ Unit)) : Progress σ α :=
  { p with started := earlier ++ p.started }

/-- Carries a process on until it is done, has crashed or has to wait. The body of a race is carried
on before the deadline is looked at, so a body that is ready at the deadline is in time. -/
def poll {α : Type} (now : Nat) (p : Process σ α) (s : σ) : Progress σ α :=
  match p with
  | .done value => ⟨.done value, s, []⟩
  | .crash cause => ⟨.crash cause, s, []⟩
  | .act step next =>
    let (b, s) := step now s
    (next b).poll now s
  | .waitUntil instant next =>
    if instant ≤ now then (next ()).poll now s else ⟨.waitUntil instant next, s, []⟩
  | .within instant body next =>
    let r := body.poll now s
    match r.left with
    | .done b => ((next (some b)).poll now r.state).after r.started
    | .crash cause => ⟨.crash cause, r.state, r.started⟩
    | left =>
      if instant ≤ now then ((next none).poll now r.state).after r.started
      else ⟨.within instant left next, r.state, r.started⟩
  | .guarded body next =>
    let r := body.poll now s
    match r.left with
    | .done b => ((next (.ok b)).poll now r.state).after r.started
    | .crash cause => ((next (.error cause)).poll now r.state).after r.started
    | left => ⟨.guarded left next, r.state, r.started⟩
  | .both left right next =>
    -- A crash on the left keeps the right from going any further.
    let l := left.poll now s
    match l.left with
    | .crash cause => ⟨.crash cause, l.state, l.started⟩
    | leftPart =>
      let r := (right.poll now l.state).after l.started
      match leftPart, r.left with
      | _, .crash cause => ⟨.crash cause, r.state, r.started⟩
      | .done b, .done c => ((next b c).poll now r.state).after r.started
      | leftPart, rightPart => ⟨.both leftPart rightPart next, r.state, r.started⟩
  | .fork child next =>
    ((next ()).poll now s).after [child]

/-- Without an answer the process has crashed, and what it has changed by then stays. -/
theorem poll_attempt (f : Nat → σ → Option α × σ) (k : α → Process σ β) (now : Nat) (s : σ) :
    (attempt f >>= k).poll now s =
      match (f now s).1 with
      | some answer => (k answer).poll now (f now s).2
      | none => ⟨.crash ⟨none⟩, (f now s).2, []⟩ := by
  simp only [attempt, bind_eq, bind, poll]
  cases (f now s).1 <;> rfl

/-- The earlier of two instants, where none is later than any. -/
def earlier : Option Nat → Option Nat → Option Nat
  | some a, some b => some (min a b)
  | some a, none => some a
  | none, b => b

/-- The next instant at which the process can be carried on; a process that is over has none. -/
def deadline? {α : Type} (p : Process σ α) : Option Nat :=
  match p with
  | .done _ => none
  | .crash _ => none
  | .act _ _ => some 0
  | .waitUntil instant _ => some instant
  | .within instant body _ => earlier (some instant) body.deadline?
  | .guarded body _ => body.deadline?
  | .both left right _ => earlier left.deadline? right.deadline?
  | .fork _ _ => some 0

/-- Whether the process can be carried on at an instant. -/
def isDue (p : Process σ α) (now : Nat) : Bool :=
  match p.deadline? with
  | some instant => instant ≤ now
  | none => false

def answer? : Process σ α → Option (Except Crash α)
  | .done value => some (.ok value)
  | .crash cause => some (.error cause)
  | _ => none

end Process

end Hearth

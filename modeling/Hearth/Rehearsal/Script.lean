import Hearth.Data.Time
import Hearth.Fault
import Hearth.Process.Basic
import Hearth.Table

/-!
# Hearth.Rehearsal.Script

What stand-ins answer when they are called. Each of them has a list of replies; every call takes the
next one, and the last one is given again and again.
-/

namespace Hearth

/-- The answer to one call: a wait, and then a crash, a failure, a refusal, or success. -/
structure Reply where
  delay : Duration
  crash : Option Crash
  failure : Option Failure
  /-- A refusal may come with a reason. -/
  refusal : Option (Option String)
deriving Repr, Inhabited

/-- Success at once. -/
def Reply.ready : Reply := { delay := .zero, crash := none, failure := none, refusal := none }

namespace Reply

/-- A text, which may stand in a list of its own, or a cause that is no text. -/
def crashOf : Data → Option Crash
  | .null => none
  | .text s => some ⟨some s⟩
  | .list [.text s] => some ⟨some s⟩
  | _ => some ⟨none⟩

def ofData? (d : Data) : Option Reply := do
  let failure ← (d.entry "err").nullable? Failure.ofData?
  return {
    delay := (Duration.ofMillisData? (d.entry "delay_ms")).getD .zero
    crash := crashOf (d.entry "panic")
    failure
    refusal := (d.get? "reject").map Data.text? }

end Reply

structure Script where
  replies : Table String (List Reply)
deriving Repr, Inhabited

namespace Script

def ofList (replies : List (String × List Reply)) : Script := ⟨.ofList replies⟩

def empty : Script := ofList []

def ofData? : Data → Option Script
  | .record entries => do
    let replies ← entries.mapM fun (name, replies) =>
      (replies.items.mapM Reply.ofData?).map fun replies => (name, replies)
    return ofList replies
  | _ => some empty

/-- Takes the next reply of a stand-in. One without replies is ready. -/
def take (s : Script) (name : String) : Reply × Script :=
  match s.replies.get? name with
  | some (reply :: next :: rest) => (reply, ⟨s.replies.insert name (next :: rest)⟩)
  | some [reply] => (reply, s)
  | _ => (.ready, s)

end Script

/-- Waits, and then crashes, fails or goes on. -/
def Reply.perform {σ : Type} (r : Reply) : Process σ (Except Failure Unit) := do
  Process.sleep r.delay
  match r.crash, r.failure with
  | some cause, _ => .crash cause
  | none, some failure => return .error failure
  | none, none => return .ok ()

end Hearth

import Hearth.Execution.Batch
import Hearth.Proofs.Process.Course

/-!
# Hearth.Proofs.Execution.Stages

The stages of a batch: its actions are carried out, then they are taken back if need be, and all of this
is guarded.

## Main results

- `Batch.executeOne_eq`, `Batch.orchestrate_eq` and `Batch.undo_cons`: an action, a batch and its undoing as
  sequences of their stages.
- `Batch.reaches_execute`: what a batch answers is what its stages have answered.
-/

namespace Hearth.Batch

variable {σ : Type}

/-! ### The parts of an action -/

/-- Tries to get an action done; answers why it failed, if it did, and how often it was tried again. -/
def pursue (link : DeviceLink σ) (options : ExecutionOptions) (a : Action) :
    Process σ (Option Failure × Nat) :=
  match a.command with
  | .error fault => pure (some (Failure.record fault), 0)
  | .ok command => do
    match ← Process.view fun s => link.lookup s a.device with
    | none => pure (some (Failure.notFound "Device" a.device.name), 0)
    | some device =>
      retrying options (attempt link device command options.timeout) options.maxRetries 0

/-- The result of an action that came to this. -/
def concluded (a : Action) (elapsed : Nat) (outcome : Option Failure × Nat) : ActionResult where
  device := a.device
  kind := a.kind
  success := outcome.1.isNone
  elapsed
  retries := outcome.2
  error := outcome.1.map Failure.message

theorem executeOne_eq (link : DeviceLink σ) (options : ExecutionOptions) (a : Action) :
    executeOne link options a = (do
      let start ← Process.now
      let outcome ← pursue link options a
      let finish ← Process.now
      return concluded a (finish - start) outcome) := by
  rw [executeOne]
  refine bind_congr fun start => ?_
  rw [pursue]
  cases a.command with
  | error fault => rfl
  | ok command =>
    dsimp only
    rw [bind_assoc]
    refine bind_congr fun known => ?_
    cases known with
    | none => rfl
    | some device => rfl

/-! ### The parts of a batch -/

/-- Carries out the actions of a batch. -/
def carryOut (link : DeviceLink σ) (options : ExecutionOptions) (actions : List Action) :
    Process σ (List ActionResult) :=
  if options.parallel then Process.together (actions.map (executeOne link options))
  else executeInOrder link options options.rollback actions

/-- Takes back a batch that is to be undone and has not succeeded. -/
def takeBack (link : DeviceLink σ) (options : ExecutionOptions) (actions : List Action)
    (results : List ActionResult) : Process σ (List DeviceId) :=
  if options.rollback && !allSucceeded actions results then
    undo link options (actions.zip results).reverse
  else pure []

theorem orchestrate_eq (link : DeviceLink σ) (options : ExecutionOptions) (actions : List Action) :
    orchestrate link options actions = (do
      let results ← carryOut link options actions
      let rolledBack ← takeBack link options actions results
      return (results, rolledBack)) := by
  have back (results : List ActionResult) :
      (if options.rollback && !allSucceeded actions results then do
        let rolledBack ← undo link options (actions.zip results).reverse
        pure (results, rolledBack)
      else do
        let rolledBack ← pure []
        pure (results, rolledBack)) = (do
      let rolledBack ← takeBack link options actions results
      pure (results, rolledBack)) := by
    rw [takeBack]
    split
    · rfl
    · rfl
  rw [orchestrate, carryOut]
  split
  · exact bind_congr back
  · exact bind_congr back

/-- Undoes one action, if it succeeded and has an inverse. -/
def undoOne (link : DeviceLink σ) (options : ExecutionOptions) (a : Action) (success : Bool) :
    Process σ Bool :=
  match if success then a.kind.inverse? else none with
  | none => pure false
  | some kind => do
    match ← Process.view fun s => link.lookup s a.device with
    | none => pure false
    | some device =>
      let command := if kind = .turnOn then Command.turnOn else Command.turnOff
      let answer ← attempt link device command options.timeout
      pure answer.isOk

theorem undo_cons (link : DeviceLink σ) (options : ExecutionOptions) (a : Action)
    (result : ActionResult) (rest : List (Action × ActionResult)) :
    undo link options ((a, result) :: rest) = (do
      let undone ← undoOne link options a result.success
      let others ← undo link options rest
      return if undone then a.device :: others else others) := by
  rw [undo, undoOne]
  cases if result.success then a.kind.inverse? else none with
  | none => rfl
  | some kind =>
    rw [bind_assoc]
    refine bind_congr fun known => ?_
    cases known with
    | none => rfl
    | some device =>
      dsimp only
      rw [bind_assoc]

/-! ### The course of a batch -/

/-- What a batch answers whose stages have answered so much. -/
def completed (actions : List Action) (elapsed : Nat) (outcome : List ActionResult × List DeviceId) :
    BatchResult where
  actions := outcome.1
  success := allSucceeded actions outcome.1
  elapsed
  rolledBack := outcome.2
  error := none

/-- What a batch answers that has crashed on the way. -/
def abandoned (elapsed : Nat) (cause : Crash) : BatchResult where
  actions := []
  success := false
  elapsed
  rolledBack := []
  error := some (cause.message.getD "unknown panic")

variable {link : DeviceLink σ} {options : ExecutionOptions} {others : σ → σ → Prop}
variable {now t : Nat} {s s' : σ}

/-- A batch that has answered has been orchestrated to the end, or up to a crash. -/
theorem reaches_execute {actions : List Action} {result : BatchResult}
    (course : (execute link options actions).Reaches others now s (.done result) t s') :
    (∃ outcome, (orchestrate link options actions).Reaches others now s (.done outcome) t s' ∧
      result = completed actions (t - now) outcome) ∨
    ∃ cause, (orchestrate link options actions).Reaches others now s (.crash cause) t s' ∧
      result = abandoned (t - now) cause := by
  obtain ⟨_, _, _, started, more⟩ := course.of_bind_done
  obtain ⟨rfl, rfl, rfl⟩ := started.of_step
  obtain ⟨outcome, _, _, guarded, rest⟩ := more.of_bind_done
  obtain ⟨_, _, _, finished, last⟩ := rest.of_bind_done
  obtain ⟨rfl, rfl, rfl⟩ := finished.of_step
  obtain ⟨body, inner, same⟩ := guarded.of_guarded
  cases body with
  | done outcome =>
    cases same
    obtain ⟨rfl, rfl, rfl⟩ := last.of_pure
    exact .inl ⟨outcome, inner, rfl⟩
  | crash cause =>
    cases same
    obtain ⟨rfl, rfl, rfl⟩ := last.of_pure
    exact .inr ⟨cause, inner, rfl⟩
  | _ => cases same

/-- What has been orchestrated to the end has been carried out, and then taken back if need be. -/
theorem reaches_orchestrate {actions : List Action} {outcome : List ActionResult × List DeviceId}
    (course : (orchestrate link options actions).Reaches others now s (.done outcome) t s') :
    ∃ t₁ s₁, (carryOut link options actions).Reaches others now s (.done outcome.1) t₁ s₁ ∧
      (takeBack link options actions outcome.1).Reaches others t₁ s₁ (.done outcome.2) t s' := by
  rw [orchestrate_eq] at course
  obtain ⟨results, t₁, s₁, forward, rest⟩ := course.of_bind_done
  obtain ⟨rolledBack, _, _, back, last⟩ := rest.of_bind_done
  obtain ⟨rfl, rfl, rfl⟩ := last.of_pure
  exact ⟨t₁, s₁, forward, back⟩

end Hearth.Batch

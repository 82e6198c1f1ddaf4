import Hearth.Proofs.Execution.Calls
import Hearth.Scheduler.Basic

/-!
# Hearth.Proofs.Scheduler.Watched

A scheduler that is watched: what it announces is taken down, and so is when a runner is called, what it
returns, and the record of a run that is over.

## Main definitions

- `SchedulerHost.Note`: what is taken down, when, and of which run.
- `SchedulerHost.watched`: surroundings that take notes of one run and are otherwise the same.
- `SchedulerHost.tracked`: a run of which everything is taken down, its record last.
- `SchedulerHost.Order`: what is asked for, one automation or all that are due.

## Main result

`SchedulerHost.Order.follows_tracked`: whatever is asked for can be done with notes, and nothing else is
done then.
-/

namespace Hearth

/-- The first part of a state of two. -/
def Field.onRecord {σ ρ : Type} : Field (σ × ρ) σ where
  get x := x.1
  set s x := (s, x.2)

namespace SchedulerHost

/-- What is taken down of a run. -/
inductive Sign
  | announced (notice : Notice)
  | called
  | returned (answer : Except Failure Unit)
  | recorded (record : RunRecord)

structure Note (ι : Type) where
  run : ι
  time : Nat
  sign : Sign

variable {σ ι : Type}

/-- Takes something down. -/
def jot (run : ι) (sign : Sign) : Process (σ × List (Note ι)) Unit :=
  .change fun now x => (x.1, x.2 ++ [⟨run, now, sign⟩])

variable (host : SchedulerHost σ)

/-- What is left of a runner goes on, and what it returns is taken down. A runner that panics returns
nothing. -/
def overseen (run : ι) (body : Process σ (Except Failure Unit)) :
    Process (σ × List (Note ι)) (Except Failure Unit) := do
  let answer ← body.offRecord
  jot run (.returned answer)
  return answer

/-- Surroundings that take down what is announced, and what becomes of the runner. -/
def watched (run : ι) : SchedulerHost (σ × List (Note ι)) where
  config := host.config
  part := Field.onRecord.comp host.part
  clock x := host.clock x.1
  run a := do
    jot run .called
    overseen run (host.run a)
  publish notice now x := (host.publish notice now x.1, x.2 ++ [⟨run, now, .announced notice⟩])

@[simp] theorem config_watched (run : ι) : (host.watched run).config = host.config := rfl

/-- How a run is entered into the history. -/
def record (a : Automation) (start finish : Nat)
    (outcome : Option (Except Crash (Except Failure Unit))) : RunRecord :=
  let error := runError? host.config.executionTimeout outcome
  { automation := a.id, name := a.name, success := error.isNone, error, elapsed := finish - start }

/-- What is announced of a run that begins. -/
def triggered (origin : String) (a : Automation) : Notice :=
  .about .automationTriggered a.id.text [("name", .text a.name), ("trigger", .text origin)]

/-- What is announced of a run that has failed. -/
def failed (a : Automation) (error : String) : Notice :=
  .about .automationFailed a.id.text [("name", .text a.name), ("error", .text error)]

/-- What is left to do once it is known how a run went. -/
def conclude (a : Automation) (start : Nat)
    (outcome : Option (Except Crash (Except Failure Unit))) : Process σ RunRecord := do
  let finish ← Process.now
  match runError? host.config.executionTimeout outcome with
  | some error => Process.change (host.publish (failed a error))
  | none => pure ()
  Process.change fun _ => host.part.modify fun s =>
    s.remember host.config.historyCapacity (host.record a start finish outcome)
  return host.record a start finish outcome

theorem execute_eq (origin : String) (a : Automation) :
    host.execute origin a = (do
      let start ← Process.now
      Process.change (host.publish (triggered origin a))
      let outcome ← Process.limited host.config.executionTimeout (Process.rescue (host.run a))
      host.conclude a start outcome) := rfl

/-- Runs an automation and takes down everything about the run. -/
def tracked (run : ι) (origin : String) (a : Automation) :
    Process (σ × List (Note ι)) RunRecord := do
  let record ← (host.watched run).execute origin a
  jot run (.recorded record)
  return record

/-! ### Nothing else is done -/

theorem follows_jot (run : ι) (sign : Sign) :
    (jot run sign : Process (σ × List (Note ι)) Unit).Follows (.done ()) :=
  .note fun _ _ => rfl

theorem follows_publish (run : ι) (notice : Notice) :
    (Process.change ((host.watched run).publish notice)).Follows
      (Process.change (host.publish notice)) :=
  .step (fun _ _ => rfl) fun _ _ => rfl

theorem follows_overseen (run : ι) (body : Process σ (Except Failure Unit)) :
    (overseen run body).Follows body := by
  have noted (answer : Except Failure Unit) :
      ((jot run (.returned answer) : Process (σ × List (Note ι)) Unit).bind fun _ =>
        .done answer).Follows (.done answer) :=
    .bind (k := fun _ => .done answer) (follows_jot run _) fun _ => .done answer
  have followed := Process.Follows.bind (Process.follows_offRecord (ρ := List (Note ι)) body) noted
  rwa [Process.bind_done] at followed

theorem follows_conclude (run : ι) (a : Automation) (start : Nat)
    (outcome : Option (Except Crash (Except Failure Unit))) :
    ((host.watched run).conclude a start outcome).Follows (host.conclude a start outcome) := by
  have congruence := Process.congruence_follows (σ := σ) (ρ := List (Note ι))
  have remembered (record : RunRecord) :
      (do Process.change fun _ => (host.watched run).part.modify fun s =>
            s.remember host.config.historyCapacity record
          return record).Follows
      (do Process.change fun _ => host.part.modify fun s =>
            s.remember host.config.historyCapacity record
          return record) :=
    congruence.bind (.step (fun _ _ => rfl) fun _ _ => rfl) fun _ => .done record
  refine congruence.bind congruence.now fun finish => ?_
  simp only [config_watched]
  cases runError? host.config.executionTimeout outcome with
  | none => exact remembered _
  | some error => exact congruence.bind (host.follows_publish run _) fun _ => remembered _

theorem follows_tracked (run : ι) (origin : String) (a : Automation) :
    (host.tracked run origin a).Follows (host.execute origin a) := by
  have congruence := Process.congruence_follows (σ := σ) (ρ := List (Note ι))
  have runner : ((host.watched run).run a).Follows (host.run a) :=
    .bind (k := fun _ => host.run a) (follows_jot run _) fun _ => follows_overseen run _
  have executed : ((host.watched run).execute origin a).Follows (host.execute origin a) := by
    rw [execute_eq, execute_eq]
    exact congruence.bind congruence.now fun start =>
      congruence.bind (host.follows_publish run _) fun _ =>
        congruence.bind (congruence.limited _ (congruence.rescue runner)) fun outcome =>
          host.follows_conclude run a start outcome
  have noted (record : RunRecord) :
      ((jot run (.recorded record) : Process (σ × List (Note ι)) Unit).bind fun _ =>
        .done record).Follows (.done record) :=
    .bind (k := fun _ => .done record) (follows_jot run _) fun _ => .done record
  have closed := executed.bind noted
  rwa [Process.bind_done] at closed

/-! ### Orders -/

/-- A run is known by the call that it was asked for with and its place among the runs of that call. -/
structure RunId where
  call : Nat
  place : Nat
deriving DecidableEq

structure Run where
  id : RunId
  /-- The instant at which it was asked for. -/
  since : Nat
  origin : String
  automation : Automation

/-- What is asked for: to run one automation, or everything that is due. -/
inductive Order
  | execute (origin : String) (a : Automation)
  | runDue

namespace Order

/-- What is done. -/
def process : Order → Process σ (List RunRecord)
  | execute origin a => (fun record => [record]) <$> host.execute origin a
  | runDue => host.runDue

/-- The same with notes. -/
def tracked (call : Nat) : Order → Process (σ × List (Note RunId)) (List RunRecord)
  | execute origin a => (fun record => [record]) <$> host.tracked ⟨call, 0⟩ origin a
  | runDue => do
    let due ← Process.attempt fun now x => ((host.takeDue now x.1).1, ((host.takeDue now x.1).2, x.2))
    Process.together (due.zipIdx.map fun (a, place) => host.tracked ⟨call, place⟩ "schedule" a)

/-- The runs that have been asked for; none if a search crashes. -/
def runs (call now : Nat) (s : σ) : Order → List Run
  | execute origin a => [⟨⟨call, 0⟩, now, origin, a⟩]
  | runDue => ((host.takeDue now s).1.getD []).zipIdx.map fun (a, place) => ⟨⟨call, place⟩, now, "schedule", a⟩

theorem follows_tracked (order : Order) (call : Nat) :
    (order.tracked host call).Follows (order.process host) := by
  have congruence := Process.congruence_follows (σ := σ) (ρ := List (Note RunId))
  cases order with
  | execute origin a =>
    rw [tracked, process, map_eq_pure_bind, map_eq_pure_bind]
    exact congruence.bind (host.follows_tracked _ origin a) fun _ => .done _
  | runDue =>
    refine congruence.bind (.attempt (fun _ _ => rfl) fun _ _ => rfl) fun due => ?_
    have beside := congruence.together (fun entry : Automation × Nat =>
      host.follows_tracked (⟨call, entry.2⟩ : RunId) "schedule" entry.1) due.zipIdx
    have places : due.zipIdx.map (fun entry => host.execute "schedule" entry.1) =
        due.map (host.execute "schedule") := by
      rw [← List.zipIdx_map_fst 0 due, List.map_map, List.zipIdx_map_fst]
      rfl
    rwa [places] at beside

end Order

end SchedulerHost

end Hearth

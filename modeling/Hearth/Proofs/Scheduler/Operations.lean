import Hearth.Proofs.Scheduler.Planning
import Hearth.Proofs.Time.Waiting

/-!
# Hearth.Proofs.Scheduler.Operations

What the operations do that others may use while a dispatcher runs.

## Main definitions

`Scheduler.Operation`: one operation, at one reading of the clock.
`Agenda.OnSeconds`: tasks are armed for whole seconds.

## Main results

`Scheduler.Step.onSeconds`: tasks always are.
`Scheduler.Operations.spares`: operations after which the dispatcher need not look again have armed
nothing.
-/

namespace Hearth

namespace Agenda

/-- Every task is armed for a whole second. -/
def OnSeconds (a : Agenda) : Prop := ∀ {k p}, a.plan? k = some p → p.nextRun.nanos = 0

variable {a b : Agenda}

theorem OnSeconds.mono (onSeconds : a.OnSeconds)
    (kept : ∀ {key task}, b.tasks.get? key = some task → a.tasks.get? key = some task) :
    b.OnSeconds := by
  intro k p armed
  obtain ⟨task, found, rfl⟩ := Option.map_eq_some_iff.1 armed
  have formerly : a.plan? k = some ⟨k.index, task.trigger, task.schedule, task.nextRun⟩ := by
    rw [plan?, kept found]
    rfl
  exact onSeconds formerly

theorem OnSeconds.of_task (onSeconds : a.OnSeconds) {key : TaskKey} {task : Task}
    (armed : a.tasks.get? key = some task) : task.nextRun.nanos = 0 := by
  have planned : a.plan? key = some ⟨key.index, task.trigger, task.schedule, task.nextRun⟩ := by
    rw [plan?, armed]
    rfl
  exact onSeconds planned

theorem kept_remove (a : Agenda) (id : AutomationId) {key : TaskKey} {task : Task}
    (armed : (a.remove id).2.tasks.get? key = some task) : a.tasks.get? key = some task := by
  have looked := Table.get?_filter_keys a.tasks (fun key => decide (key.automation ≠ id)) key
  rw [remove, looked] at armed
  split at armed
  · exact armed
  · cases armed

end Agenda

namespace Scheduler

/-- One of the operations that others may use at a reading of the clock, and that gives an answer. The
tasks may change places in between. -/
inductive Operation (r : Reading) (s : Scheduler) : Scheduler → Prop
  | schedule (automation : Automation) : Operation r s (s.schedule r automation).2
  | unschedule (id : AutomationId) : Operation r s (s.unschedule id).2
  | clear : Operation r s s.clear
  | rescheduleAll (answered : (s.rescheduleAll r).1.isSome = true) :
      Operation r s (s.rescheduleAll r).2
  | checkDrift (threshold elapsed : Duration)
      (answered : (s.checkDrift threshold elapsed r).1.isSome = true) :
      Operation r s (s.checkDrift threshold elapsed r).2
  | remember (capacity : Nat) (record : RunRecord) :
      Operation r s (s.remember capacity record)
  | permute {tasks : Table TaskKey Task} (same : tasks.entries.Perm s.agenda.tasks.entries) :
      Operation r s { s with agenda := { s.agenda with tasks } }

variable {r : Reading} {s t : Scheduler}

theorem Operation.step (operation : Operation r s t) : Step s t := by
  cases operation with
  | schedule automation => exact .schedule s r automation
  | unschedule id => exact .unschedule s id
  | clear => exact .clear s
  | rescheduleAll => exact .rescheduleAll s r
  | checkDrift threshold elapsed => exact .checkDrift s threshold elapsed r
  | remember capacity record => exact .remember s capacity record
  | permute same => exact .permute s same

/-- Any number of operations at one reading of the clock. -/
abbrev Operations (r : Reading) : Scheduler → Scheduler → Prop :=
  Relation.ReflTransGen (Operation r)

theorem Operations.steps (operations : Operations r s t) : Steps s t :=
  operations.lift id fun _ _ operation => operation.step

/-! ### Whole seconds -/

theorem onSeconds_rescheduleAll (upkept : s.agenda.Upkept) (r : Reading) :
    (s.agenda.rescheduleAll r.next).2.OnSeconds := by
  intro k p armed
  rw [upkept.plan?_rescheduleAll] at armed
  obtain ⟨-, armed⟩ := Option.ite_none_right_eq_some.1 armed
  obtain ⟨q, -, renewed⟩ := Option.bind_eq_some_iff.1 armed
  obtain ⟨-, -, -, found⟩ := Agenda.Plan.renew?_eq_some_iff.1 renewed
  exact Schedule.nanos_of_nextAfter found

theorem onSeconds_drain (upkept : s.agenda.Upkept) (onSeconds : s.agenda.OnSeconds) (r : Reading) :
    (s.agenda.drain r.outlook []).2.OnSeconds := by
  obtain ⟨untouched, renewed⟩ := upkept.drain_tasks r.outlook []
  intro k p armed
  by_cases formerly : ∃ task, s.agenda.Reached r.outlook k task
  · obtain ⟨task, reached⟩ := formerly
    obtain ⟨generation, after⟩ := renewed reached
    rw [Agenda.plan?, after] at armed
    cases found : r.outlook.next task.schedule with
    | error fault => simp [found, Except.toOption] at armed
    | ok nextRun =>
      simp only [found, Except.toOption, Option.map_some, Option.some.injEq] at armed
      rw [← armed]
      exact Schedule.nanos_of_nextAfter found
  · rw [Agenda.plan?, untouched fun task reached => formerly ⟨task, reached⟩] at armed
    exact onSeconds armed

/-- Whatever is done to a scheduler, its tasks are armed for whole seconds. -/
theorem Step.onSeconds (step : Step s t) (upkept : s.agenda.Upkept)
    (onSeconds : s.agenda.OnSeconds) : t.agenda.OnSeconds := by
  cases step with
  | schedule r automation =>
    intro k p armed
    rw [agenda_schedule] at armed
    by_cases crashed : (s.agenda.schedule r.next automation).1 = .error .crash
    · rw [Agenda.schedule_of_crash crashed] at armed
      exact onSeconds armed
    · rw [Agenda.plan?_schedule crashed] at armed
      split at armed
      · exact Schedule.nanos_of_nextAfter armed.2.2.2.nextRun
      · exact onSeconds armed
  | unschedule id => exact onSeconds.mono (s.agenda.kept_remove id)
  | clear =>
    intro k p armed
    cases armed
  | takeDue r => exact onSeconds_drain upkept onSeconds r
  | rescheduleAll r => exact onSeconds_rescheduleAll upkept r
  | checkDrift threshold elapsed r =>
    unfold Scheduler.checkDrift
    dsimp only
    split
    · exact onSeconds
    · exact onSeconds
    · exact onSeconds_rescheduleAll upkept r
  | timeUntilNext r => exact onSeconds
  | remember capacity record =>
    unfold Scheduler.remember
    split
    · exact onSeconds
    · exact onSeconds
  | permute same =>
    refine onSeconds.mono ?_
    intro key task armed
    rwa [Table.get?_of_perm upkept.nodup_keys same] at armed

theorem Steps.onSeconds (steps : Steps s t) (upkept : s.agenda.Upkept)
    (onSeconds : s.agenda.OnSeconds) : t.agenda.OnSeconds := by
  induction steps with
  | refl => exact onSeconds
  | tail earlier step ih => exact step.onSeconds (upkept.edits (Steps.edits earlier upkept)) ih

theorem Reachable.onSeconds (reachable : s.Reachable) : s.agenda.OnSeconds :=
  Steps.onSeconds reachable Agenda.Upkept.empty nofun

/-! ### What the dispatcher has to know -/

/-- Whoever is told that everything has been armed anew lets the dispatcher know. -/
theorem changed_rescheduleAll (answered : (s.rescheduleAll r).1.isSome = true) :
    (s.rescheduleAll r).2.changed = true := by
  show (s.changed || (s.agenda.rescheduleAll r.next).1.isSome) = true
  rw [show (s.agenda.rescheduleAll r.next).1.isSome = true from answered, Bool.or_true]

/-- The dispatcher is left alone. Unless it has to look again, nothing is armed that was not before. -/
theorem Operation.spares (operation : Operation r s t) (upkept : s.agenda.Upkept) :
    t.dispatcher = s.dispatcher ∧
    (t.changed = true ∨ t.changed = s.changed ∧ ∀ {key task},
      t.agenda.tasks.get? key = some task → s.agenda.tasks.get? key = some task) := by
  cases operation with
  | schedule automation =>
    -- What is disarmed may have been waited for, but the wait then only ends too early.
    have disarmed : ∀ {key task}, (s.agenda.remove automation.id).2.tasks.get? key = some task →
        s.agenda.tasks.get? key = some task := s.agenda.kept_remove automation.id
    unfold Scheduler.schedule Agenda.schedule
    cases enabled : automation.enabled with
    | false =>
      refine ⟨rfl, ?_⟩
      cases known : s.agenda.automations.contains automation.id with
      | false => exact .inr ⟨by simp, disarmed⟩
      | true => exact .inl (by simp)
    | true =>
      match Agenda.plan r.next automation with
      | .ok plans => exact ⟨rfl, .inl (by simp)⟩
      | .error .crash => exact ⟨rfl, .inr ⟨rfl, id⟩⟩
      | .error (.trigger fault) =>
        refine ⟨rfl, ?_⟩
        cases known : s.agenda.automations.contains automation.id with
        | false => exact .inr ⟨by simp, disarmed⟩
        | true => exact .inl (by simp)
  | unschedule id =>
    refine ⟨rfl, ?_⟩
    cases known : s.agenda.automations.contains id with
    | false => exact .inr ⟨by simp [Scheduler.unschedule, Agenda.remove, known], s.agenda.kept_remove id⟩
    | true => exact .inl (by simp [Scheduler.unschedule, Agenda.remove, known])
  | clear => exact ⟨rfl, .inl rfl⟩
  | rescheduleAll answered => exact ⟨rfl, .inl (changed_rescheduleAll answered)⟩
  | checkDrift threshold elapsed answered =>
    unfold Scheduler.checkDrift at answered ⊢
    dsimp only at answered ⊢
    split at answered
    · cases answered
    · exact ⟨rfl, .inr ⟨rfl, id⟩⟩
    · exact ⟨rfl, .inl (changed_rescheduleAll (by simpa using answered))⟩
  | remember capacity record =>
    unfold Scheduler.remember
    split
    · exact ⟨rfl, .inr ⟨rfl, id⟩⟩
    · exact ⟨rfl, .inr ⟨rfl, id⟩⟩
  | permute same =>
    refine ⟨rfl, .inr ⟨rfl, ?_⟩⟩
    intro key task armed
    rwa [Table.get?_of_perm upkept.nodup_keys same] at armed

theorem Operations.spares (operations : Operations r s t) (upkept : s.agenda.Upkept) :
    t.dispatcher = s.dispatcher ∧
    (t.changed = true ∨ t.changed = s.changed ∧ ∀ {key task},
      t.agenda.tasks.get? key = some task → s.agenda.tasks.get? key = some task) := by
  induction operations with
  | refl => exact ⟨rfl, .inr ⟨rfl, id⟩⟩
  | tail earlier operation ih =>
    obtain ⟨dispatcher, looked⟩ := ih
    obtain ⟨dispatcher', looked'⟩ :=
      operation.spares (upkept.edits (Steps.edits (Operations.steps earlier) upkept))
    refine ⟨dispatcher'.trans dispatcher, ?_⟩
    rcases looked' with again | ⟨same', kept'⟩
    · exact .inl again
    · rcases looked with again | ⟨same, kept⟩
      · exact .inl (same'.trans again)
      · exact .inr ⟨same'.trans same, fun armed => kept (kept' armed)⟩

end Scheduler

end Hearth

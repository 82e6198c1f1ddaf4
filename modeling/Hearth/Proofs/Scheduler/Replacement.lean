import Hearth.Proofs.Scheduler.Faults

/-!
# Hearth.Proofs.Scheduler.Replacement

To schedule an automation puts all that it plans in the place of whatever was armed for it, or puts
nothing there.

## Main definitions

- `Agenda.tasksOf`: the armed tasks of an automation.
- `Scheduler.StepBeside`: one operation, other than to schedule the automation.
- `Scheduler.Replaced`: what becomes of a scheduler when an automation is scheduled.

## Main results

- `Agenda.schedule_remove`: it makes no difference what was armed for the automation before.
- `Agenda.Upkept.generation_lt_schedule`: nothing of it remains.
- `Scheduler.StepsBeside.idle`: without a task an automation gets none until it is scheduled.
- `Scheduler.schedule_replaced`: the account of what is armed, what is lost and what is told.
-/

namespace Hearth

theorem Automation.nodup_scheduleTriggers (a : Automation) :
    (a.scheduleTriggers.map Prod.fst).Nodup := by
  have all : a.positions.map Prod.fst = List.range' 0 a.triggers.length := by
    rw [positions, List.map_map]
    exact List.zipIdx_map_snd 0 a.triggers
  have kept : (a.scheduleTriggers.map Prod.fst).Sublist (a.positions.map Prod.fst) :=
    List.filter_sublist.map _
  rw [all] at kept
  exact List.Nodup.sublist kept List.nodup_range'

namespace Agenda

variable {next : Schedule → Except SearchFault Instant} {a : Agenda} {id : AutomationId}
  {automation : Automation} {plans : List Plan}

/-! ### The tasks of one automation -/

/-- The armed tasks of an automation. -/
def tasksOf (a : Agenda) (id : AutomationId) : List (TaskKey × Task) :=
  a.tasks.entries.filter fun entry => entry.1.automation = id

theorem mem_keys_tasksOf {key : TaskKey} : key ∈ (a.tasksOf id).map Prod.fst ↔
    key.automation = id ∧ (a.plan? key).isSome = true := by
  have armed : (a.plan? key).isSome = true ↔ key ∈ a.tasks.keys := by
    rw [plan?, Option.isSome_map, Table.isSome_get?_iff]
  simp only [armed, tasksOf, Table.keys, List.mem_map, List.mem_filter, decide_eq_true_eq]
  constructor
  · rintro ⟨entry, ⟨member, own⟩, rfl⟩
    exact ⟨own, entry, member, rfl⟩
  · rintro ⟨own, entry, member, rfl⟩
    exact ⟨entry, ⟨member, own⟩, rfl⟩

theorem tasksOf_eq_nil_iff :
    a.tasksOf id = [] ↔ ∀ key, key.automation = id → a.plan? key = none := by
  rw [← List.map_eq_nil_iff (f := Prod.fst), List.eq_nil_iff_forall_not_mem]
  simp only [mem_keys_tasksOf, not_and, Option.not_isSome_iff_eq_none]

theorem index_planTriggers_sublist {triggers : List (Nat × Trigger)}
    (planned : planTriggers next triggers = .ok plans) :
    (plans.map Plan.index).Sublist (triggers.map Prod.fst) := by
  induction triggers generalizing plans with
  | nil =>
    cases planned
    exact .slnil
  | cons entry rest ih =>
    obtain ⟨-, later, found, rfl⟩ := planTriggers_cons_ok_iff.1 planned
    rw [List.map_append, List.map_cons]
    cases one : planOne? next entry.1 entry.2 with
    | none => exact (ih found).cons _
    | some p =>
      rw [← (planOne?_eq_some_iff.1 one).1]
      exact (ih found).cons_cons _

/-- An automation plans each of its triggers at most once. -/
theorem nodup_index_plan (planned : plan next automation = .ok plans) :
    (plans.map Plan.index).Nodup :=
  automation.nodup_scheduleTriggers.sublist (index_planTriggers_sublist (planTriggers_of_plan planned))

/-- As many tasks are armed as are planned. -/
theorem Upkept.length_tasksOf_armAll (upkept : (a.armAll automation plans).Upkept)
    (planned : plan next automation = .ok plans) :
    ((a.armAll automation plans).tasksOf automation.id).length = plans.length := by
  have once : (((a.armAll automation plans).tasksOf automation.id).map Prod.fst).Nodup :=
    upkept.nodup_keys.sublist (List.filter_sublist.map _)
  have apart : (plans.map fun p => TaskKey.mk automation.id p.index).Nodup := by
    have positions := (nodup_index_plan planned).map
      (f := TaskKey.mk automation.id) fun _ _ same => congrArg TaskKey.index same
    rwa [List.map_map] at positions
  -- The keys of the tasks are those of the plans, and neither list has a key twice.
  have same : (((a.armAll automation plans).tasksOf automation.id).map Prod.fst).Perm
      (plans.map fun p => TaskKey.mk automation.id p.index) := by
    refine (List.perm_ext_iff_of_nodup once apart).2 fun key => ?_
    rw [mem_keys_tasksOf, List.mem_map, Option.isSome_iff_exists]
    constructor
    · rintro ⟨own, p, armed⟩
      rw [plan?_armAll planned, if_pos own] at armed
      refine ⟨p, (mem_plan planned).2 armed.2, ?_⟩
      rw [← own, armed.1]
    · rintro ⟨p, member, rfl⟩
      refine ⟨rfl, p, ?_⟩
      rw [plan?_armAll planned, if_pos rfl]
      exact ⟨rfl, (mem_plan planned).1 member⟩
  simpa only [List.length_map] using same.length_eq

/-! ### What scheduling replaces -/

theorem remove_remove (a : Agenda) (id : AutomationId) :
    ((a.remove id).2.remove id).2 = (a.remove id).2 := by
  simp only [remove, Table.erase, Table.filter, List.filter_filter, Bool.and_self]

/-- Whatever was armed for the automation before makes no difference, unless a search crashes. -/
theorem schedule_remove (returned : (a.schedule next automation).1 ≠ .error .crash) :
    (a.remove automation.id).2.schedule next automation = a.schedule next automation := by
  unfold schedule at returned ⊢
  simp only [armAll, remove_remove]
  cases enabled : automation.enabled with
  | false => rfl
  | true =>
    match planned : plan next automation with
    | .error .crash => simp [enabled, planned] at returned
    | .error (.trigger fault) => rfl
    | .ok plans => rfl

/-- No task of the automation is from before. -/
theorem Upkept.generation_lt_schedule (upkept : a.Upkept)
    (returned : (a.schedule next automation).1 ≠ .error .crash) {key : TaskKey} {task : Task}
    (armed : (a.schedule next automation).2.tasks.get? key = some task)
    (own : key.automation = automation.id) : a.generation < task.generation := by
  -- Scheduling might as well begin where the automation has been removed, and whatever is armed after
  -- that under one of its keys is newer.
  have removed := upkept.edits (upkept.edits_remove automation.id)
  rw [← schedule_remove returned] at armed
  rcases (Outlives.edits (removed.edits_schedule next automation)).armed armed with before | newer
  · -- What was armed before has been removed.
    have absent := a.plan?_remove automation.id key
    rw [if_pos own, plan?, before] at absent
    cases absent
  · exact newer

theorem get?_tasks_remove (a : Agenda) {key : TaskKey} (other : key.automation ≠ id) :
    (a.remove id).2.tasks.get? key = a.tasks.get? key := by
  have looked := Table.get?_filter_keys a.tasks (fun key => decide (key.automation ≠ id)) key
  rwa [if_pos (decide_eq_true other)] at looked

theorem get?_automations_remove (a : Agenda) {other : AutomationId} (apart : other ≠ id) :
    (a.remove id).2.automations.get? other = a.automations.get? other :=
  (Table.get?_erase a.automations id other).trans (if_neg apart)

/-- To arm the plans of one automation leaves the others as they are. -/
theorem foldl_arm_spares (id : AutomationId) (plans : List Plan) (a : Agenda) :
    (plans.foldl (fun a p => a.arm ⟨id, p.index⟩ p.trigger p.schedule p.nextRun) a).automations =
      a.automations ∧
    ∀ key, key.automation ≠ id →
      (plans.foldl (fun a p => a.arm ⟨id, p.index⟩ p.trigger p.schedule p.nextRun) a).tasks.get? key =
        a.tasks.get? key := by
  induction plans generalizing a with
  | nil => exact ⟨rfl, fun _ _ => rfl⟩
  | cons p rest ih =>
    obtain ⟨automations, tasks⟩ := ih (a.arm ⟨id, p.index⟩ p.trigger p.schedule p.nextRun)
    refine ⟨automations, fun key other => (tasks key other).trans ?_⟩
    exact Table.get?_insert_ne _ _ fun same => other (congrArg TaskKey.automation same)

/-- Other automations keep their tasks, with their generations, and are known as they were. -/
theorem schedule_spares (a : Agenda) (automation : Automation) :
    (∀ key, key.automation ≠ automation.id →
      (a.schedule next automation).2.tasks.get? key = a.tasks.get? key) ∧
    ∀ other, other ≠ automation.id →
      (a.schedule next automation).2.automations.get? other = a.automations.get? other := by
  unfold schedule
  split
  · exact ⟨fun _ => a.get?_tasks_remove, fun _ => a.get?_automations_remove⟩
  · match plan next automation with
    | .error .crash => exact ⟨fun _ _ => rfl, fun _ _ => rfl⟩
    | .error (.trigger fault) =>
      exact ⟨fun _ => a.get?_tasks_remove, fun _ => a.get?_automations_remove⟩
    | .ok plans =>
      unfold armAll
      obtain ⟨automations, tasks⟩ := foldl_arm_spares automation.id plans
        (if plans.isEmpty then (a.remove automation.id).2
          else { (a.remove automation.id).2 with
            automations := (a.remove automation.id).2.automations.insert automation.id automation })
      -- Before the plans are armed the automation itself is entered, if it has any.
      constructor
      · intro key other
        refine (tasks key other).trans (Eq.trans ?_ (a.get?_tasks_remove other))
        split <;> rfl
      · intro other apart
        rw [automations]
        refine Eq.trans ?_ (a.get?_automations_remove apart)
        split
        · rfl
        · exact Table.get?_insert_ne _ _ apart

end Agenda

namespace SchedulerHost

variable {σ : Type} (host : SchedulerHost σ) (run : Automation → Process σ (Except Failure Unit))

/-- A run has to do with its own automation alone. -/
theorem execute_congr (origin : String) {a : Automation} (same : run a = host.run a) :
    SchedulerHost.execute { host with run } origin a = host.execute origin a := by
  simp only [execute, same]

/-- The host runs what is due, and nothing else: what does not run may run in any way. -/
theorem poll_runDue_congr (now : Nat) (s : σ)
    (same : ∀ taken, (host.takeDue now s).1 = some taken → ∀ a ∈ taken, run a = host.run a) :
    (SchedulerHost.runDue { host with run }).poll now s = host.runDue.poll now s := by
  cases due : (host.takeDue now s).1 with
  | none =>
    -- The crash comes before anything runs.
    have left {run} : (SchedulerHost.runDue { host with run }).poll now s =
        ⟨.crash ⟨none⟩, (host.takeDue now s).2, []⟩ := by
      have same : SchedulerHost.takeDue { host with run } now s = host.takeDue now s := rfl
      rw [runDue, Process.poll_attempt, same, due]
    exact left.trans left.symm
  | some taken =>
    have runs : taken.map (SchedulerHost.execute { host with run } "schedule") =
        taken.map (host.execute "schedule") :=
      List.map_congr_left fun a member => host.execute_congr run "schedule" (same taken due a member)
    have left {run} : (SchedulerHost.runDue { host with run }).poll now s =
        (Process.together (taken.map (SchedulerHost.execute { host with run } "schedule"))).poll now
          (host.takeDue now s).2 := by
      have same : SchedulerHost.takeDue { host with run } now s = host.takeDue now s := rfl
      rw [runDue, Process.poll_attempt, same, due]
    rw [left, runs]
    exact left.symm

end SchedulerHost

namespace Scheduler

open Agenda

variable {s t : Scheduler} {id : AutomationId}

/-! ### Until it is scheduled again -/

/-- One operation, other than to schedule the automation. -/
inductive StepBeside (id : AutomationId) : Scheduler → Scheduler → Prop
  | schedule (s : Scheduler) (r : Reading) {a : Automation} (apart : a.id ≠ id) :
      StepBeside id s (s.schedule r a).2
  | unschedule (s : Scheduler) (other : AutomationId) : StepBeside id s (s.unschedule other).2
  | clear (s : Scheduler) : StepBeside id s s.clear
  | tend {s t : Scheduler} (tends : Tends s t) : StepBeside id s t

/-- Any number of operations, none of which schedules the automation. -/
abbrev StepsBeside (id : AutomationId) : Scheduler → Scheduler → Prop :=
  Relation.ReflTransGen (StepBeside id)

theorem StepBeside.step (beside : StepBeside id s t) : Step s t := by
  cases beside with
  | schedule r apart => exact .schedule s r _
  | unschedule other => exact .unschedule s other
  | clear => exact .clear s
  | tend tends => exact tends.step

theorem StepsBeside.steps (beside : StepsBeside id s t) : Steps s t :=
  Relation.ReflTransGen.mono (fun _ _ => StepBeside.step) _ _ beside

theorem StepBeside.idle (beside : StepBeside id s t) (upkept : s.agenda.Upkept)
    (idle : s.agenda.tasksOf id = []) : t.agenda.tasksOf id = [] := by
  rw [tasksOf_eq_nil_iff] at idle ⊢
  intro key own
  rw [Option.eq_none_iff_forall_ne_some]
  intro p armed
  have absent := idle key own
  cases beside with
  | @schedule r b apart =>
    -- Another automation is scheduled, or a crash leaves everything as it was.
    have spared := (@schedule_spares r.next s.agenda b).1 key fun same =>
      apart (same.symm.trans own)
    rw [agenda_schedule, plan?, spared] at armed
    cases absent.symm.trans armed
  | unschedule other =>
    have removed : (s.agenda.remove other).2.plan? key = some p := armed
    rw [plan?_remove, absent, ite_self] at removed
    cases removed
  | clear => cases armed
  | tend tends =>
    -- What is armed anew was armed already.
    obtain ⟨q, formerly, -⟩ := tends.plan? upkept armed
    cases absent.symm.trans formerly

/-- An automation without a task gets none until it is scheduled. -/
theorem StepsBeside.idle (beside : StepsBeside id s t) (upkept : s.agenda.Upkept)
    (idle : s.agenda.tasksOf id = []) : t.agenda.tasksOf id = [] := by
  induction beside with
  | refl => exact idle
  | tail earlier step ih =>
    exact step.idle (upkept.edits (Steps.edits (StepsBeside.steps earlier) upkept)) ih

/-- An automation without a task is not taken. -/
theorem Reachable.not_mem_takeDue (reachable : s.Reachable) (idle : s.agenda.tasksOf id = [])
    {r : Reading} {taken : List Automation} (answered : (s.takeDue r).1 = some taken) :
    id ∉ taken.map Automation.id := by
  intro member
  have upkept := reachable.upkept
  obtain ⟨entry, pending, own⟩ := ((gathered_takeDue upkept answered).mem_iff id).1 member
  obtain ⟨task, due, -⟩ := upkept.mem_pending.1 pending
  have absent := tasksOf_eq_nil_iff.1 idle entry.key own
  rw [plan?, due.1] at absent
  cases absent

/-! ### All or nothing -/

theorem Reachable.schedule (reachable : s.Reachable) (r : Reading) (a : Automation) :
    (s.schedule r a).2.Reachable := reachable.tail (.schedule s r a)

/-- The answer is the number of plans or the fault of the automation; to be disabled is none. -/
theorem schedule_fst (s : Scheduler) (r : Reading) (a : Automation) : (s.schedule r a).1 =
    if a.enabled then
      match plan r.next a with
      | .ok plans => some (.ok plans.length)
      | .error (.trigger fault) => some (.error (.trigger fault))
      | .error .crash => none
    else some (.ok 0) := by
  unfold Scheduler.schedule Agenda.schedule
  cases a.enabled with
  | false => rfl
  | true =>
    match plan r.next a with
    | .ok plans => rfl
    | .error (.trigger fault) => rfl
    | .error .crash => rfl

theorem not_crash_of_answer {r : Reading} {a : Automation} {answer : Except Failure Nat}
    (answered : (s.schedule r a).1 = some answer) :
    (s.agenda.schedule r.next a).1 ≠ .error .crash := by
  rw [ne_eq, ← schedule_fst_eq_none_iff, answered]
  exact nofun

theorem schedule_eq_error_iff {r : Reading} {a : Automation} (enabled : a.enabled = true)
    {answer : Except Failure Nat} (answered : (s.schedule r a).1 = some answer) {failure : Failure} :
    answer = .error failure ↔ ∃ fault, failure = .trigger fault ∧ a.Unfit r.place fault := by
  rw [schedule_fst, if_pos enabled] at answered
  have returned : plan r.next a ≠ .error .crash := by
    intro crashed
    rw [crashed] at answered
    cases answered
  simp only [← plan_eq_error_iff returned]
  match planned : plan r.next a with
  | .error .crash => exact absurd planned returned
  | .error (.trigger fault) =>
    rw [planned] at answered
    cases answered
    simp [eq_comm]
  | .ok plans =>
    rw [planned] at answered
    cases answered
    simp

/-- A disabled automation, and one that is refused, is left without a task. -/
theorem tasksOf_schedule_eq_nil {r : Reading} {a : Automation} {answer : Except Failure Nat}
    (answered : (s.schedule r a).1 = some answer)
    (refused : a.enabled = false ∨ ∃ failure, answer = .error failure) :
    (s.schedule r a).2.agenda.tasksOf a.id = [] := by
  rw [tasksOf_eq_nil_iff]
  intro key own
  rw [Option.eq_none_iff_forall_ne_some]
  intro p armed
  rw [agenda_schedule, plan?_schedule (not_crash_of_answer answered), if_pos own] at armed
  obtain ⟨enabled, accepted, -⟩ := armed
  rcases refused with disabled | ⟨failure, rfl⟩
  · simp [disabled] at enabled
  · obtain ⟨count, ok⟩ := (exists_schedule_ok_iff (s := s) enabled).2 accepted
    cases answered.symm.trans ok

/-- A search that crashes leaves everything as it was. It does so only for an automation that is enabled
and in order. -/
theorem schedule_crashes {r : Reading} {a : Automation} (crashed : (s.schedule r a).1 = none) :
    (s.schedule r a).2 = s ∧ a.enabled = true ∧ a.InOrder ∧
      ∃ t ∈ a.triggers, ∃ schedule, Schedule.ofTrigger t = .ok (some schedule) ∧
        crashes r.next schedule = true := by
  obtain ⟨enabled, planned⟩ := schedule_fst_eq_crash.1 (schedule_fst_eq_none_iff.1 crashed)
  refine ⟨?_, enabled, inOrder_of_plan_eq_crash planned⟩
  simp [Scheduler.schedule, Agenda.schedule, enabled, planned]

/-- What becomes of a scheduler when an automation is scheduled: the answer, and the scheduler after
it. -/
structure Replaced (s : Scheduler) (r : Reading) (a : Automation) (answer : Except Failure Nat)
    (after : Scheduler) : Prop where
  /-- What is armed for an automation that is accepted are its triggers that have an occurrence, each at
  its position and for this occurrence; their number is answered. -/
  armed : a.enabled = true → ∀ {count}, answer = .ok count →
    (∀ {index p}, after.agenda.plan? ⟨a.id, index⟩ = some p ↔
      p.index = index ∧ a.Plans r.next p) ∧
    (after.agenda.tasksOf a.id).length = count
  /-- A disabled automation is not at fault. -/
  disabled : a.enabled = false → answer = .ok 0
  /-- Any other automation is refused only if it is unfit, and told why. -/
  refused : a.enabled = true → ∀ {failure}, answer = .error failure ↔
    ∃ fault, failure = .trigger fault ∧ a.Unfit r.place fault
  /-- A place is missed only where no trigger is malformed. -/
  unplaced : answer = .error (.trigger .missingLocation) → a.InOrder
  /-- Without being accepted an automation has no task, and until it is scheduled again it is not taken
  when something is due, nor does it make a difference how it would run. -/
  disarmed : (a.enabled = false ∨ ∃ failure, answer = .error failure) →
    ∀ {later}, StepsBeside a.id after later →
      later.agenda.tasksOf a.id = [] ∧
      (∀ r' taken, (later.takeDue r').1 = some taken → a.id ∉ taken.map Automation.id) ∧
      ∀ {σ : Type} (host : SchedulerHost σ) (run : Automation → Process σ (Except Failure Unit)),
        (∀ b, b.id ≠ a.id → run b = host.run b) → ∀ now x, host.part.get x = later →
          (SchedulerHost.runDue { host with run }).poll now x = host.runDue.poll now x
  /-- No task of the automation is from before, -/
  fresh : ∀ entry ∈ after.agenda.tasksOf a.id, s.agenda.generation < entry.2.generation
  /-- and what earlier tasks have left in the queue never has a task again. -/
  stale : ∀ entry ∈ s.agenda.queue, entry.key.automation = a.id →
    ∀ {later}, Steps after later → later.agenda.isCurrent entry = false
  /-- Other automations keep their tasks, -/
  tasks : ∀ key, key.automation ≠ a.id →
    after.agenda.tasks.get? key = s.agenda.tasks.get? key
  /-- and are known as they were. -/
  automations : ∀ id, id ≠ a.id →
    after.agenda.automations.get? id = s.agenda.automations.get? id

theorem schedule_armed (reachable : s.Reachable) (r : Reading) {a : Automation}
    (enabled : a.enabled = true) {count : Nat} (accepted : (s.schedule r a).1 = some (.ok count)) :
    (∀ {index p}, (s.schedule r a).2.agenda.plan? ⟨a.id, index⟩ = some p ↔
      p.index = index ∧ a.Plans r.next p) ∧
    ((s.schedule r a).2.agenda.tasksOf a.id).length = count := by
  have kept := (reachable.schedule r a).upkept
  obtain ⟨plans, planned⟩ := (exists_schedule_ok_iff enabled).1 ⟨count, accepted⟩
  refine ⟨?_, ?_⟩
  · intro index p
    rw [agenda_schedule, plan?_schedule (not_crash_of_answer accepted), if_pos rfl]
    simp only [enabled, true_and, and_iff_right_iff_imp]
    exact fun _ => ⟨plans, planned⟩
  · rw [schedule_fst, if_pos enabled, planned] at accepted
    cases accepted
    rw [agenda_schedule] at kept ⊢
    simp only [Agenda.schedule, enabled, planned, Bool.not_true, Bool.false_eq_true, ↓reduceIte]
      at kept ⊢
    exact kept.length_tasksOf_armAll planned

theorem schedule_stale (reachable : s.Reachable) {r : Reading} {a : Automation}
    {answer : Except Failure Nat} (answered : (s.schedule r a).1 = some answer) {later : Scheduler}
    (steps : Steps (s.schedule r a).2 later) {entry : QueueEntry} (member : entry ∈ s.agenda.queue)
    (own : entry.key.automation = a.id) : later.agenda.isCurrent entry = false := by
  have before := reachable.upkept
  have kept := (reachable.schedule r a).upkept
  have bound := before.generation_le entry member
  have onward := (Outlives.edits (before.edits_schedule r.next a)).generation_le
  rw [Bool.eq_false_iff]
  intro current
  obtain ⟨task, found, same⟩ := isCurrent_eq_true_iff.1 current
  -- Whatever is armed under its key is from this scheduling or from later on.
  rcases (Outlives.edits (Steps.edits steps kept)).armed found with now | newer
  · rw [agenda_schedule] at now
    have fresh := before.generation_lt_schedule (not_crash_of_answer answered) now own
    omega
  · rw [agenda_schedule] at newer
    omega

/-- To schedule an automation replaces everything that was armed for it by all that it plans, or, when
it is disabled or unfit, by nothing; no other automation is touched. If a search crashes nothing is
changed. -/
theorem schedule_replaced (reachable : s.Reachable) (r : Reading) (a : Automation) :
    (∀ {answer}, (s.schedule r a).1 = some answer → Replaced s r a answer (s.schedule r a).2) ∧
    ((s.schedule r a).1 = none → (s.schedule r a).2 = s ∧ a.enabled = true ∧ a.InOrder ∧
      ∃ t ∈ a.triggers, ∃ schedule, Schedule.ofTrigger t = .ok (some schedule) ∧
        crashes r.next schedule = true) := by
  refine ⟨?_, schedule_crashes⟩
  intro answer answered
  exact {
    armed := fun enabled _ accepted => schedule_armed reachable r enabled (accepted ▸ answered)
    disabled := by
      intro disabled
      rw [schedule_fst, disabled] at answered
      exact (Option.some.inj answered).symm
    refused := fun enabled _ => schedule_eq_error_iff enabled answered
    unplaced := by
      rintro rfl
      cases enabled : a.enabled with
      | false =>
        rw [schedule_fst, enabled] at answered
        cases answered
      | true =>
        obtain ⟨fault, same, unfit⟩ := (schedule_eq_error_iff enabled answered).1 rfl
        cases same
        exact unfit.inOrder
    disarmed := by
      intro refused later beside
      have after := reachable.schedule r a
      have reached : later.Reachable := after.trans (StepsBeside.steps beside)
      have idle := StepsBeside.idle beside after.upkept (tasksOf_schedule_eq_nil answered refused)
      refine ⟨idle, fun r' taken due => reached.not_mem_takeDue idle due, ?_⟩
      intro σ host run same now x here
      refine host.poll_runDue_congr run now x fun taken due b member => same b ?_
      intro own
      have named : b.id ∈ taken.map Automation.id := List.mem_map_of_mem member
      have answered : (later.takeDue (host.reading now x)).1 = some taken := here ▸ due
      exact reached.not_mem_takeDue idle answered (own ▸ named)
    fresh := by
      intro entry member
      obtain ⟨listed, own⟩ := List.mem_filter.1 member
      have kept := (reachable.schedule r a).upkept
      have found := (Table.get?_eq_some_iff kept.nodup_keys).2 listed
      rw [agenda_schedule] at found
      exact reachable.upkept.generation_lt_schedule (not_crash_of_answer answered) found
        (of_decide_eq_true own)
    stale := fun _ member own _ steps => schedule_stale reachable answered steps member own
    tasks := by
      rw [agenda_schedule]
      exact (schedule_spares s.agenda a).1
    automations := by
      rw [agenda_schedule]
      exact (schedule_spares s.agenda a).2 }

/-- The alarm with a time that no clock shows, and behind it a condition that watches no device. -/
def unreadableAlarm : Automation :=
  { alarm with triggers := [.time "07:00" none, .time "25:00" none, .condition none none none none] }

/-- An alarm that is set again is armed under new generations. Then it is replaced by nothing, since the
time cannot be read; the device is not asked for any more. -/
theorem schedule_replaced_alarm :
    resetAlarm.Reachable ∧ (resetAlarm.agenda.tasksOf alarm.id).length = 2 ∧
    (∀ entry ∈ resetAlarm.agenda.tasksOf alarm.id, 2 < entry.2.generation) ∧
    (resetAlarm.schedule firstMidnight unreadableAlarm).1 =
      some (.error (.trigger (.invalidTime "25:00"))) ∧
    (resetAlarm.schedule firstMidnight unreadableAlarm).2.agenda.tasksOf alarm.id = [] ∧
    ∀ r taken, ((resetAlarm.schedule firstMidnight unreadableAlarm).2.takeDue r).1 = some taken →
      alarm.id ∉ taken.map Automation.id := by
  have reachable : (empty.schedule firstMidnight alarm).2.Reachable :=
    .single (.schedule empty firstMidnight alarm)
  have reset : resetAlarm.Reachable := reachable.schedule firstMidnight alarm
  have accepted : ((empty.schedule firstMidnight alarm).2.schedule firstMidnight alarm).1 =
      some (.ok 2) := schedule_fst_eq_ok_iff.2 (by decide +kernel)
  have again := (schedule_replaced reachable firstMidnight alarm).1 accepted
  have unfit : unreadableAlarm.Unfit none (.invalidTime "25:00") := by
    refine .malformed (i := 1) rfl (by decide +kernel) ?_
    intro j u earlier found
    obtain rfl : j = 0 := by omega
    obtain rfl : .time "07:00" none = u := Option.some.inj found
    decide +kernel
  obtain ⟨broken, crashed⟩ := schedule_replaced reset firstMidnight unreadableAlarm
  cases answered : (resetAlarm.schedule firstMidnight unreadableAlarm).1 with
  | none =>
    obtain ⟨-, -, inOrder, -⟩ := crashed answered
    have wrong : (Trigger.time "25:00" none).check 1 ≠ .ok () := by decide +kernel
    exact absurd (inOrder 1 _ rfl) wrong
  | some answer =>
    have refused := broken answered
    obtain rfl := (refused.refused rfl).2 ⟨_, rfl, unfit⟩
    obtain ⟨idle, quiet, -⟩ := refused.disarmed (.inr ⟨_, rfl⟩) .refl
    exact ⟨reset, (again.armed rfl rfl).2, again.fresh, rfl, idle, quiet⟩

end Scheduler

end Hearth

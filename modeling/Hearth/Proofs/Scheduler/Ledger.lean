import Hearth.Proofs.Scheduler.Requests

/-!
# Hearth.Proofs.Scheduler.Ledger

What a scheduler answers when an automation is taken off. It looks whether it knows the automation, and
not whether anything of it is armed. The two are kept apart by an account of what was armed and what has
been dropped since.

## Main definitions

- `Scheduler.Request.drops`: a task that is taken away and not armed anew, for want of a next occurrence or
  because a search crashes.
- `Scheduler.Account`: how many triggers of an automation were armed when it was scheduled last, and how
  many of them have been dropped since.

## Main results

- `Scheduler.Account.Balanced.request`: the account balances after each request.
- `Scheduler.unschedule_accounts`: an automation is said to have been armed if one of its triggers is, or
  if all that were armed have been dropped.
- `Scheduler.unschedule_misleads`: the second case occurs.
-/

namespace Hearth

namespace Agenda

variable {a b : Agenda} {id : AutomationId}

theorem mem_tasksOf {entry : TaskKey × Task} :
    entry ∈ a.tasksOf id ↔ entry ∈ a.tasks.entries ∧ entry.1.automation = id := by
  simp [tasksOf]

/-- As many tasks of an automation are left as are kept. -/
theorem Upkept.length_tasksOf_of_kept (upkept : a.Upkept) (upkept' : b.Upkept)
    {keep : TaskKey × Task → Bool} (kept : ∀ k : TaskKey, k.automation = id →
      ((b.plan? k).isSome = true ↔ ∃ task, a.tasks.get? k = some task ∧ keep (k, task) = true)) :
    (b.tasksOf id).length = ((a.tasksOf id).filter keep).length := by
  have once : ((b.tasksOf id).map Prod.fst).Nodup :=
    upkept'.nodup_keys.sublist (List.filter_sublist.map _)
  have once' : (((a.tasksOf id).filter keep).map Prod.fst).Nodup :=
    upkept.nodup_keys.sublist ((List.filter_sublist.trans List.filter_sublist).map _)
  -- The same keys are left, though the tasks have other generations and may have changed places.
  have same : ((b.tasksOf id).map Prod.fst).Perm (((a.tasksOf id).filter keep).map Prod.fst) := by
    refine (List.perm_ext_iff_of_nodup once once').2 fun k => ?_
    rw [mem_keys_tasksOf]
    simp only [List.mem_map, List.mem_filter, mem_tasksOf,
      ← Table.get?_eq_some_iff upkept.nodup_keys, Prod.exists]
    constructor
    · rintro ⟨own, left⟩
      obtain ⟨task, armed, keeps⟩ := (kept k own).1 left
      exact ⟨k, task, ⟨⟨armed, own⟩, keeps⟩, rfl⟩
    · rintro ⟨_, task, ⟨⟨armed, own⟩, keeps⟩, rfl⟩
      exact ⟨own, (kept _ own).2 ⟨task, armed, keeps⟩⟩
  simpa only [List.length_map] using same.length_eq

theorem tasksOf_remove (a : Agenda) (id : AutomationId) : (a.remove id).2.tasksOf id = [] := by
  rw [tasksOf_eq_nil_iff]
  intro key own
  rw [plan?_remove, if_pos own]

/-- The answer is the number of tasks. -/
theorem Upkept.length_tasksOf_schedule (upkept : a.Upkept)
    {next : Schedule → Except SearchFault Instant} {automation : Automation}
    (returned : (a.schedule next automation).1 ≠ .error .crash) :
    ((a.schedule next automation).2.tasksOf automation.id).length =
      (a.schedule next automation).1.toOption.getD 0 := by
  have none := congrArg List.length (a.tasksOf_remove automation.id)
  unfold schedule at returned ⊢
  cases enabled : automation.enabled with
  | false => exact none
  | true =>
    match planned : plan next automation with
    | .error .crash => simp [enabled, planned] at returned
    | .error (.trigger fault) => exact none
    | .ok plans =>
      have kept := upkept.edits (upkept.edits_armAll automation plans)
      exact kept.length_tasksOf_armAll planned

/-- The tasks that are listed are the armed ones. -/
theorem exists_mem_nextRuns_iff :
    (∃ entry ∈ a.nextRuns, entry.1.automation = id) ↔ 0 < (a.tasksOf id).length := by
  simp only [List.length_pos_iff_exists_mem, mem_tasksOf, nextRuns, List.mem_mergeSort]

/-- Whether the loop that takes what is due comes to a task, before a search crashes. -/
def comesTo (a : Agenda) (o : Outlook) (key : TaskKey) (task : Task) : Bool :=
  task.nextRun.notAfter o.now && a.tasks.entries.all fun (key', other) =>
    !(other.nextRun.notAfter o.now && (other.entry key').precedes (task.entry key) &&
      crashes o.next other.schedule)

theorem Upkept.comesTo_iff (upkept : a.Upkept) {o : Outlook} {key : TaskKey} {task : Task}
    (armed : a.tasks.get? key = some task) : a.comesTo o key task = true ↔ a.Reached o key task := by
  simp only [comesTo, Bool.and_eq_true, List.all_eq_true, Bool.not_eq_true', Bool.and_eq_false_iff,
    Prod.forall, ← Table.get?_eq_some_iff upkept.nodup_keys]
  constructor
  · rintro ⟨due, sound⟩
    refine ⟨⟨armed, due⟩, fun {key' other} isDue first => ?_⟩
    simpa [isDue.2, first] using sound key' other isDue.1
  · intro reached
    refine ⟨reached.due.2, fun key' other found => ?_⟩
    cases due : other.nextRun.notAfter o.now with
    | false => simp
    | true =>
      cases first : (other.entry key').precedes (task.entry key) with
      | false => simp
      | true => exact .inr (reached.first ⟨found, due⟩ first)

end Agenda

namespace Scheduler

open Agenda

theorem schedule_answer (s : Scheduler) (r : Reading) (a : Automation) : (s.schedule r a).1 =
    match (s.agenda.schedule r.next a).1 with
    | .ok count => some (.ok count)
    | .error (.trigger fault) => some (.error (.trigger fault))
    | .error .crash => none := by
  unfold Scheduler.schedule
  dsimp only
  split <;> next found => rw [found]

/-! ### The account of an automation -/

/-- A task that a request takes away and does not arm anew: it has no next occurrence, or a search crashes
before or while it is armed. -/
def Request.drops (s : Scheduler) : Request → TaskKey × Task → Bool
  | runDue r, (key, task) => s.agenda.comesTo r.outlook key task && !(r.next task.schedule).isOk
  | rescheduleAll r, (key, task) => lost r key task
  | checkDrift threshold elapsed r, (key, task) =>
    (s.jump? threshold elapsed r.now).join.isSome && lost r key task
  | _, _ => false
where
  /-- When everything is armed anew. -/
  lost (r : Reading) (key : TaskKey) (task : Task) : Bool :=
    !(((s.agenda.reached r.next).map Prod.fst).contains key && (r.next task.schedule).isOk)

/-- How many triggers of an automation were armed when it was scheduled last, none if it has been taken
off since; and how many of them have been dropped. -/
structure Account where
  armed : Nat
  dropped : Nat

namespace Account

def book (id : AutomationId) (x : Account) (turn : Turn) : Account :=
  match turn.request with
  | .schedule r automation =>
    if automation.id = id then
      match (turn.before.schedule r automation).1 with
      | some answer => ⟨answer.toOption.getD 0, 0⟩
      -- A crash leaves everything as it was.
      | none => x
    else x
  | .unschedule other => if other = id then ⟨0, 0⟩ else x
  | .clear => ⟨0, 0⟩
  | request =>
    { x with
      dropped := x.dropped + (turn.before.agenda.tasksOf id).countP (request.drops turn.before) }

/-- What is armed and what has been dropped add up, and the automation is known if anything was armed. -/
structure Balanced (id : AutomationId) (x : Account) (s : Scheduler) : Prop where
  balance : (s.agenda.tasksOf id).length + x.dropped = x.armed
  known : (s.agenda.automations.get? id).isSome = true ↔ 0 < x.armed

variable {id : AutomationId} {x : Account} {s t : Scheduler}

/-- What is dropped changes columns. -/
theorem Balanced.drop (balanced : x.Balanced id s) (upkept : s.agenda.Upkept)
    (upkept' : t.agenda.Upkept) (drops : TaskKey × Task → Bool)
    (left : ∀ k : TaskKey, k.automation = id → ((t.agenda.plan? k).isSome = true ↔
      ∃ task, s.agenda.tasks.get? k = some task ∧ drops (k, task) = false))
    (known : t.agenda.automations.get? id = s.agenda.automations.get? id) :
    Balanced id { x with dropped := x.dropped + (s.agenda.tasksOf id).countP drops } t := by
  have kept : (t.agenda.tasksOf id).length = (s.agenda.tasksOf id).countP fun entry => !drops entry := by
    rw [List.countP_eq_length_filter]
    exact upkept.length_tasksOf_of_kept upkept' fun k own => by simpa using left k own
  have parts := List.length_eq_countP_add_countP drops (l := s.agenda.tasksOf id)
  have balance := balanced.balance
  refine ⟨?_, known ▸ balanced.known⟩
  simp only [Bool.not_eq_true, Bool.decide_eq_false] at parts ⊢
  omega

/-- Nothing happens to the account as long as nothing happens to the automation. -/
theorem Balanced.congr (balanced : x.Balanced id s) (upkept : s.agenda.Upkept)
    (upkept' : t.agenda.Upkept)
    (plans : ∀ k : TaskKey, k.automation = id → t.agenda.plan? k = s.agenda.plan? k)
    (known : t.agenda.automations.get? id = s.agenda.automations.get? id) : x.Balanced id t := by
  have dropped := balanced.drop upkept upkept' (fun _ => false) (fun k own => by
    rw [plans k own, Agenda.plan?, Option.isSome_map, Option.isSome_iff_exists]
    simp) known
  rwa [List.countP_false] at dropped

/-- A task that is armed anew is kept if it has an occurrence. -/
theorem isSome_renew?_iff {next : Schedule → Except SearchFault Instant} {p : Plan} :
    (p.renew? next).isSome = true ↔ (next p.schedule).isOk = true := by
  unfold Plan.renew?
  cases next p.schedule <;> simp [Except.toOption, Except.isOk, Except.toBool]

theorem Balanced.rescheduleAll (balanced : x.Balanced id s) (upkept : s.agenda.Upkept) (r : Reading)
    (drops : TaskKey × Task → Bool) (same : ∀ k task, drops (k, task) = Request.drops.lost s r k task) :
    Balanced id { x with dropped := x.dropped + (s.agenda.tasksOf id).countP drops }
      (s.rescheduleAll r).2 := by
  refine balanced.drop upkept (upkept.edits (upkept.edits_rescheduleAll r.next)) drops ?_ ?_
  · intro k own
    have renewed : (s.rescheduleAll r).2.agenda.plan? k =
        if k ∈ (s.agenda.reached r.next).map Prod.fst then
          (s.agenda.plan? k).bind (Plan.renew? r.next) else none := upkept.plan?_rescheduleAll k
    rw [renewed]
    simp only [Agenda.plan?, same, Request.drops.lost, List.contains_iff_mem,
      Bool.not_eq_false', Bool.and_eq_true]
    cases s.agenda.tasks.get? k with
    | none => simp
    | some task =>
      by_cases reached : k ∈ (s.agenda.reached r.next).map Prod.fst
      · simp only [reached, ↓reduceIte, Option.map_some, Option.bind_some, isSome_renew?_iff,
          Option.some.injEq, exists_eq_left', true_and]
      · simp [reached]
  · exact congrArg (·.get? id) (automations_rescheduleAll s.agenda r.next)

theorem Balanced.takeDue (balanced : x.Balanced id s) (upkept : s.agenda.Upkept) (r : Reading) :
    Balanced id (x.book id ⟨s, .runDue r⟩) (s.takeDue r).2 := by
  refine balanced.drop upkept (upkept.edits (upkept.edits_drain r.outlook [])) _ ?_ ?_
  · intro k own
    have left : ((s.takeDue r).2.agenda.plan? k).isSome = true ↔
        ((s.takeDue r).2.agenda.tasks.get? k).isSome = true := by rw [Agenda.plan?, Option.isSome_map]
    rw [left]
    cases armed : s.agenda.tasks.get? k with
    | none =>
      have gone : (s.takeDue r).2.agenda.tasks.get? k = none :=
        upkept.get?_drain_of_vacant r.outlook [] armed
      simp [gone]
    | some task =>
      simp only [Option.some.injEq, exists_eq_left', Request.drops]
      -- What the loop comes to is armed for its next occurrence, and anything else is left alone.
      by_cases reached : s.agenda.Reached r.outlook k task
      · obtain ⟨generation, found⟩ := (upkept.drain_tasks r.outlook []).2 reached
        have after : (s.takeDue r).2.agenda.tasks.get? k =
          (r.next task.schedule).toOption.map fun nextRun => { task with nextRun, generation } := found
        rw [after, (upkept.comesTo_iff armed).2 reached]
        cases r.next task.schedule <;> simp [Except.toOption, Except.isOk, Except.toBool]
      · have kept : (s.takeDue r).2.agenda.tasks.get? k = some task :=
          upkept.get?_drain_of_passed r.outlook [] armed reached
        have notCome := mt (upkept.comesTo_iff armed).1 reached
        simp [kept, notCome]
  · exact congrArg (·.get? id) (automations_drain s.agenda r.outlook [])

theorem Balanced.checkDrift (balanced : x.Balanced id s) (upkept : s.agenda.Upkept)
    (threshold elapsed : Duration) (r : Reading) :
    Balanced id (x.book id ⟨s, .checkDrift threshold elapsed r⟩)
      (s.checkDrift threshold elapsed r).2 := by
  have agenda := s.agenda_checkDrift threshold elapsed r
  cases jump : (s.jump? threshold elapsed r.now).join.isSome with
  | true =>
    -- Everything is armed anew, with the look at the clock remembered besides.
    rw [jump, if_pos rfl] at agenda
    have renewed := balanced.rescheduleAll upkept r
      (Request.drops s (.checkDrift threshold elapsed r)) fun k task => by
        simp only [Request.drops, jump, Bool.true_and]
    exact ⟨agenda ▸ renewed.balance, agenda ▸ renewed.known⟩
  | false =>
    rw [jump, if_neg Bool.false_ne_true] at agenda
    have none : (s.agenda.tasksOf id).countP
        (Request.drops s (.checkDrift threshold elapsed r)) = 0 := by
      rw [List.countP_eq_zero]
      simp [Request.drops, jump]
    simp only [book, none, Nat.add_zero]
    exact ⟨agenda ▸ balanced.balance, agenda ▸ balanced.known⟩

theorem Balanced.schedule (balanced : x.Balanced id s) (upkept : s.agenda.Upkept) (r : Reading)
    {a : Automation} (own : a.id = id) :
    Balanced id (x.book id ⟨s, .schedule r a⟩) (s.schedule r a).2 := by
  subst own
  have answer := s.schedule_answer r a
  by_cases crashed : (s.agenda.schedule r.next a).1 = .error .crash
  · rw [crashed] at answer
    have booked : x.book a.id ⟨s, .schedule r a⟩ = x := by
      simp only [book, ↓reduceIte, answer]
    rw [booked]
    refine ⟨?_, ?_⟩
    · rw [agenda_schedule, schedule_of_crash crashed, balanced.balance]
    · rw [agenda_schedule, schedule_of_crash crashed, balanced.known]
  · have booked : x.book a.id ⟨s, .schedule r a⟩ =
        ⟨(s.agenda.schedule r.next a).1.toOption.getD 0, 0⟩ := by
      simp only [book, ↓reduceIte, answer]
      match found : (s.agenda.schedule r.next a).1 with
      | .ok count => rfl
      | .error (.trigger fault) => rfl
      | .error .crash => exact absurd found crashed
    rw [booked]
    refine ⟨?_, ?_⟩
    · rw [agenda_schedule]
      exact upkept.length_tasksOf_schedule crashed
    · rw [agenda_schedule, get?_automations_schedule crashed]
      split <;> simp [*]

theorem Balanced.remove (s : Scheduler) (id : AutomationId) :
    Balanced id ⟨0, 0⟩ (s.unschedule id).2 := by
  refine ⟨congrArg List.length (s.agenda.tasksOf_remove id), ?_⟩
  have gone : (s.unschedule id).2.agenda.automations.get? id = none :=
    (Table.get?_erase _ _ _).trans (if_pos rfl)
  simp [gone]

theorem book_of_foreign {request : Request} (foreign : request.concerns id = false) :
    x.book id ⟨s, request⟩ = x := by
  cases request with
  | schedule r automation => exact if_neg (of_decide_eq_false foreign)
  | unschedule other => exact if_neg (of_decide_eq_false foreign)
  | _ => cases foreign

theorem Balanced.request (balanced : x.Balanced id s) (upkept : s.agenda.Upkept) (request : Request) :
    (x.book id ⟨s, request⟩).Balanced id (request.apply s) := by
  cases concerned : request.concerns id with
  | false =>
    obtain ⟨plans, known, -⟩ := Request.spares concerned s
    rw [book_of_foreign concerned]
    exact balanced.congr upkept (upkept.edits ((request.step s).edits upkept)) plans known
  | true =>
    cases request with
    | schedule r a => exact balanced.schedule upkept r (of_decide_eq_true concerned)
    | unschedule other =>
      obtain rfl : other = id := of_decide_eq_true concerned
      simp only [book, ↓reduceIte]
      exact .remove s other
    | clear => exact ⟨rfl, by simp [book, Request.apply, Scheduler.clear, Agenda.clear, Table.get?_empty]⟩
    | runDue r => exact balanced.takeDue upkept r
    | rescheduleAll r => exact balanced.rescheduleAll upkept r _ fun _ _ => rfl
    | checkDrift threshold elapsed r => exact balanced.checkDrift upkept threshold elapsed r

end Account

/-! ### What is answered -/

/-- The account of an automation after a course that began with nothing. -/
def account (id : AutomationId) (turns : List Turn) : Account := turns.foldl (Account.book id) ⟨0, 0⟩

theorem Course.balanced {turns : List Turn} {s : Scheduler} (course : Course empty turns s)
    (id : AutomationId) : (account id turns).Balanced id s := by
  have nothing : Account.Balanced id ⟨0, 0⟩ empty := ⟨rfl, by simp [empty, Agenda.empty, Table.get?_empty]⟩
  refine course.keeps _ ?_ ?_ Upkept.empty nothing
  · intro x s t upkept silent balanced
    obtain ⟨plans, known, -⟩ := silent.spares upkept
    exact balanced.congr upkept (upkept.edits (silent.step.edits upkept)) (fun k _ => plans k)
      (by rw [known])
  · intro x s request upkept balanced
    exact balanced.request upkept request

/-- Whoever takes an automation off is told that it was armed if a trigger of it is listed, but also if
all that were armed when it was scheduled last have been dropped since. In no other case is the answer out
of step with what is listed. -/
theorem unschedule_accounts {turns : List Turn} {s : Scheduler} (course : Course empty turns s)
    (id : AutomationId) :
    (s.agenda.tasksOf id).length + (account id turns).dropped = (account id turns).armed ∧
    ((s.unschedule id).1 = true ↔ (∃ entry ∈ s.agenda.nextRuns, entry.1.automation = id) ∨
      0 < (account id turns).dropped ∧ (account id turns).dropped = (account id turns).armed) ∧
    ∀ entry ∈ (s.unschedule id).2.agenda.nextRuns, entry.1.automation ≠ id := by
  have balanced := course.balanced id
  have balance := balanced.balance
  have answer : (s.unschedule id).1 = (s.agenda.automations.get? id).isSome := rfl
  refine ⟨balance, ?_, ?_⟩
  · -- It is known as soon as anything was armed, of which either a task is left or all are dropped.
    rw [answer, balanced.known, exists_mem_nextRuns_iff]
    omega
  · intro entry listed own
    have some := exists_mem_nextRuns_iff.1 ⟨entry, listed, own⟩
    have none : ((s.unschedule id).2.agenda.tasksOf id).length = 0 :=
      congrArg List.length (s.agenda.tasksOf_remove id)
    omega

/-- The alarm has been set, and everything has been armed anew when the clock had been put forward to the
last evening. -/
def silencedAlarm : Scheduler := ((empty.schedule firstMidnight alarm).2.rescheduleAll lastEvening).2

def silencing : List Turn :=
  [⟨empty, .schedule firstMidnight alarm⟩,
    ⟨(empty.schedule firstMidnight alarm).2, .rescheduleAll lastEvening⟩]

theorem course_silencedAlarm : Course empty silencing silencedAlarm :=
  .turn _ (.turn _ (.done _))

theorem unschedule_accounts_alarm :
    (account alarm.id silencing).armed = 2 ∧ (account alarm.id silencing).dropped = 2 ∧
    (silencedAlarm.unschedule alarm.id).1 = true := by
  have armed : (account alarm.id silencing).armed = 2 := by decide +kernel
  have dropped : (account alarm.id silencing).dropped = 2 := by decide +kernel
  obtain ⟨-, answer, -⟩ := unschedule_accounts course_silencedAlarm alarm.id
  exact ⟨armed, dropped, answer.2 (.inr (by rw [dropped, armed]; decide))⟩

/-- The alarm is said to have been armed, although nothing is. -/
theorem unschedule_misleads :
    Course empty silencing silencedAlarm ∧ (silencedAlarm.unschedule alarm.id).1 = true ∧
    silencedAlarm.agenda.nextRuns = [] := by
  have none : silencedAlarm.agenda.tasks.entries = [] := by
    rw [← List.length_eq_zero_iff]
    decide +kernel
  exact ⟨course_silencedAlarm, by decide +kernel, by simp [nextRuns, none]⟩

end Scheduler

end Hearth

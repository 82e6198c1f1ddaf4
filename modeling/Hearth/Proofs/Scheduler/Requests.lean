import Hearth.Proofs.Scheduler.Dispatch
import Hearth.Proofs.Scheduler.Replacement

/-!
# Hearth.Proofs.Scheduler.Requests

A scheduler in use: one request after another, each at a reading of the clock of its own, and between
them what nobody asks for.

## Main definitions

- `Scheduler.Request`: what others ask of a scheduler.
- `Scheduler.Course`: a scheduler goes through a list of requests. Each stands there with the scheduler
  that it was made to.

## Main results

- `Agenda.Upkept.plan?_drain_eq`: what the loop that takes what is due makes of every task.
- `Scheduler.Course.keeps`: what each request turns into the next thing to hold, holds of a whole course.
-/

namespace Hearth

namespace Agenda

variable {next : Schedule → Except SearchFault Instant}

/-! ### The automations that are known -/

theorem automations_drain (a : Agenda) (o : Outlook) (due : List Automation) :
    (a.drain o due).2.automations = a.automations := by
  refine drain_rule (o := o) (motive := fun a _ answer => answer.2.automations = a.automations)
    ?_ ?_ ?_ a due
  · intro a due _
    rfl
  · intro a due entry rest task _ _ _ _ _
    exact a.automations_turn o.next entry rest task
  · intro a due entry rest task answer _ _ _ _ _ ih
    exact ih.trans (a.automations_turn o.next entry rest task)

theorem automations_foldl_rearm (next : Schedule → Except SearchFault Instant)
    (entries : List (TaskKey × Task)) (a : Agenda) :
    (entries.foldl (fun a (key, task) =>
      match next task.schedule with
      | .ok nextRun => a.arm key task.trigger task.schedule nextRun
      | .error _ => a) a).automations = a.automations := by
  induction entries generalizing a with
  | nil => rfl
  | cons entry rest ih =>
    rw [List.foldl_cons, ih]
    dsimp only
    split <;> rfl

theorem automations_rescheduleAll (a : Agenda) (next : Schedule → Except SearchFault Instant) :
    (a.rescheduleAll next).2.automations = a.automations :=
  automations_foldl_rearm next (a.reached next) { a with tasks := .empty, queue := [] }

/-- Only an automation with a task is entered. -/
theorem get?_automations_schedule {a : Agenda} {automation : Automation}
    (returned : (a.schedule next automation).1 ≠ .error .crash) :
    (a.schedule next automation).2.automations.get? automation.id =
      if 0 < (a.schedule next automation).1.toOption.getD 0 then some automation else none := by
  have removed : (a.remove automation.id).2.automations.get? automation.id = none :=
    (Table.get?_erase _ _ _).trans (if_pos rfl)
  unfold schedule at returned ⊢
  cases enabled : automation.enabled with
  | false => exact removed
  | true =>
    match planned : plan next automation with
    | .error .crash => simp [enabled, planned] at returned
    | .error (.trigger fault) => exact removed
    | .ok plans =>
      simp only [Bool.not_true, Bool.false_eq_true, ↓reduceIte, armAll,
        (foldl_arm_spares automation.id plans _).1, Except.toOption, Option.getD_some]
      cases plans with
      | nil => exact removed
      | cons p rest => exact Table.get?_insert_self _ _ _

variable (next) in
/-- The answer has nothing to do with what is armed. -/
theorem schedule_fst_congr (a b : Agenda) (automation : Automation) :
    (a.schedule next automation).1 = (b.schedule next automation).1 := by
  unfold schedule
  cases automation.enabled with
  | false => rfl
  | true =>
    match plan next automation with
    | .error .crash => rfl
    | .error (.trigger fault) => rfl
    | .ok plans => rfl

/-! ### What becomes of a task -/

/-- Unless a search crashes, a task that is due is armed for its next occurrence, as far as there is one;
any other task is left alone. -/
theorem Upkept.plan?_drain_eq {a : Agenda} (upkept : a.Upkept) {o : Outlook} {due : List Automation}
    (answered : (a.drain o due).1 ≠ none) (k : TaskKey) : (a.drain o due).2.plan? k =
      (a.plan? k).bind fun p => if p.nextRun.notAfter o.now then p.renew? o.next else some p := by
  -- The loop takes a task at most once, as the time it is armed for anew is ahead of the reading.
  obtain ⟨taken, answer⟩ := Option.ne_none_iff_exists'.1 answered
  cases armed : a.tasks.get? k with
  | none =>
    have free := upkept.get?_drain_of_vacant o due armed
    simp only [plan?, free, armed, Option.map_none, Option.bind_none]
  | some task =>
    cases isDue : task.nextRun.notAfter o.now with
    | true =>
      obtain ⟨generation, found⟩ := (upkept.drain_tasks o due).2
        (upkept.reached_of_drain answer ⟨armed, isDue⟩)
      simp only [plan?, found, armed, Option.map_map, Option.map_some, Option.bind_some, isDue,
        ↓reduceIte]
      rfl
    | false =>
      have kept := upkept.get?_drain_of_passed o due armed fun reached => by
        cases isDue.symm.trans reached.due.2
      simp only [plan?, kept, armed, Option.map_some, Option.bind_some, isDue, Bool.false_eq_true,
        ↓reduceIte]

theorem due_iff_plan? {a : Agenda} {now : Instant} {k : TaskKey} :
    (∃ task, a.Due now k task) ↔ ∃ p, a.plan? k = some p ∧ p.nextRun.notAfter now = true := by
  unfold Due plan?
  cases a.tasks.get? k <;> simp

end Agenda

namespace Scheduler

open Agenda

/-! ### Requests -/

/-- What others ask of a scheduler, with what the clocks show then. -/
inductive Request
  | schedule (r : Reading) (automation : Automation)
  | unschedule (id : AutomationId)
  | clear
  | runDue (r : Reading)
  | rescheduleAll (r : Reading)
  | checkDrift (threshold elapsed : Duration) (r : Reading)

/-- What becomes of the scheduler. -/
def Request.apply (s : Scheduler) : Request → Scheduler
  | schedule r automation => (s.schedule r automation).2
  | unschedule id => (s.unschedule id).2
  | clear => s.clear
  | runDue r => (s.takeDue r).2
  | rescheduleAll r => (s.rescheduleAll r).2
  | checkDrift threshold elapsed r => (s.checkDrift threshold elapsed r).2

/-- The automations that are run for it; none if a search crashes. -/
def Request.fired (s : Scheduler) : Request → List Automation
  | runDue r => (s.takeDue r).1.getD []
  | _ => []

/-- Whether it gets an answer, and does not crash. -/
def Request.returns (s : Scheduler) : Request → Bool
  | schedule r automation => (s.schedule r automation).1.isSome
  | runDue r => (s.takeDue r).1.isSome
  | rescheduleAll r => (s.rescheduleAll r).1.isSome
  | checkDrift threshold elapsed r => (s.checkDrift threshold elapsed r).1.isSome
  | _ => true

/-- Whether a request is about an automation, or about all of them. -/
def Request.concerns (id : AutomationId) : Request → Bool
  | schedule _ automation => automation.id = id
  | unschedule other => other = id
  | _ => true

/-- Whether a request goes through everything that is armed, or may do so. -/
def Request.sweeps : Request → Bool
  | runDue _ => true
  | rescheduleAll _ => true
  | checkDrift .. => true
  | _ => false

/-- What goes on between requests: the dispatcher looks how long it may sleep, a run is entered into the
history, or the tasks change places. -/
inductive Silent : Scheduler → Scheduler → Prop
  | timeUntilNext (s : Scheduler) (r : Reading) : Silent s (s.timeUntilNext r).2
  | remember (s : Scheduler) (capacity : Nat) (record : RunRecord) :
      Silent s (s.remember capacity record)
  | permute (s : Scheduler) {tasks : Table TaskKey Task}
      (same : tasks.entries.Perm s.agenda.tasks.entries) :
      Silent s { s with agenda := { s.agenda with tasks } }

/-- A request and the scheduler that it is made to. -/
structure Turn where
  before : Scheduler
  request : Request

def Turn.after (turn : Turn) : Scheduler := turn.request.apply turn.before

def Turn.fired (turn : Turn) : List Automation := turn.request.fired turn.before

def Turn.returns (turn : Turn) : Bool := turn.request.returns turn.before

/-- What a scheduler goes through. -/
inductive Course : Scheduler → List Turn → Scheduler → Prop
  | done (s : Scheduler) : Course s [] s
  | silent {s t u : Scheduler} {turns : List Turn} (unseen : Silent s t) (rest : Course t turns u) :
      Course s turns u
  | turn {s u : Scheduler} {turns : List Turn} (request : Request)
      (rest : Course (request.apply s) turns u) : Course s (⟨s, request⟩ :: turns) u

variable {s t u : Scheduler} {turns more : List Turn}

theorem Request.step (request : Request) (s : Scheduler) : Step s (request.apply s) := by
  cases request with
  | schedule r automation => exact .schedule s r automation
  | unschedule id => exact .unschedule s id
  | clear => exact .clear s
  | runDue r => exact .takeDue s r
  | rescheduleAll r => exact .rescheduleAll s r
  | checkDrift threshold elapsed r => exact .checkDrift s threshold elapsed r

theorem Silent.step (silent : Silent s t) : Step s t := by
  cases silent with
  | timeUntilNext r => exact .timeUntilNext s r
  | remember capacity record => exact .remember s capacity record
  | permute same => exact .permute s same

theorem Course.steps (course : Course s turns t) : Steps s t := by
  induction course with
  | done s => exact .refl
  | silent unseen _ ih => exact .head unseen.step ih
  | turn request _ ih => exact .head (request.step _) ih

theorem Course.reachable (course : Course empty turns s) : s.Reachable := course.steps

theorem Course.trans (first : Course s turns t) (second : Course t more u) :
    Course s (turns ++ more) u := by
  induction first with
  | done s => exact second
  | silent unseen _ ih => exact .silent unseen (ih second)
  | turn request _ ih => exact .turn request (ih second)

/-- What holds in the beginning and is carried from request to request, with an account of what has been
asked so far, holds in the end. The tasks and the queue are in step throughout. -/
theorem Course.keeps {α : Type} {account : α → Turn → α} (holds : α → Scheduler → Prop)
    (silent : ∀ {x s t}, s.agenda.Upkept → Silent s t → holds x s → holds x t)
    (turn : ∀ {x s} (request : Request), s.agenda.Upkept → holds x s →
      holds (account x ⟨s, request⟩) (request.apply s))
    (course : Course s turns t) (upkept : s.agenda.Upkept) {x : α} (first : holds x s) :
    holds (turns.foldl account x) t := by
  induction course generalizing x with
  | done s => exact first
  | silent unseen _ ih =>
    exact ih (upkept.edits (unseen.step.edits upkept)) (silent upkept unseen first)
  | turn request _ ih =>
    exact ih (upkept.edits ((request.step _).edits upkept)) (turn request upkept first)

/-! ### What requests leave alone -/

/-- What nobody asks for changes no task, makes no automation known or unknown, and is no look at the
clock. -/
theorem Silent.spares (silent : Silent s t) (upkept : s.agenda.Upkept) :
    (∀ k, t.agenda.plan? k = s.agenda.plan? k) ∧ t.agenda.automations = s.agenda.automations ∧
      t.heartbeat = s.heartbeat := by
  cases silent with
  | timeUntilNext r => exact ⟨fun _ => rfl, rfl, rfl⟩
  | remember capacity record =>
    unfold Scheduler.remember
    split
    · exact ⟨fun _ => rfl, rfl, rfl⟩
    · exact ⟨fun _ => rfl, rfl, rfl⟩
  | permute same =>
    refine ⟨fun k => ?_, rfl, rfl⟩
    simp only [plan?, Table.get?_of_perm upkept.nodup_keys same]

theorem heartbeat_schedule (s : Scheduler) (r : Reading) (automation : Automation) :
    (s.schedule r automation).2.heartbeat = s.heartbeat := by
  unfold Scheduler.schedule
  dsimp only
  split <;> rfl

/-- A request about another automation leaves this one alone. -/
theorem Request.spares {id : AutomationId} {request : Request} (foreign : request.concerns id = false)
    (s : Scheduler) :
    (∀ k : TaskKey, k.automation = id →
      (request.apply s).agenda.plan? k = s.agenda.plan? k) ∧
    (request.apply s).agenda.automations.get? id = s.agenda.automations.get? id ∧
    (request.apply s).heartbeat = s.heartbeat := by
  cases request with
  | schedule r automation =>
    have apart : id ≠ automation.id := fun same => of_decide_eq_false foreign same.symm
    obtain ⟨tasks, automations⟩ := @schedule_spares r.next s.agenda automation
    refine ⟨fun k own => ?_, ?_, heartbeat_schedule s r automation⟩
    · rw [apply, agenda_schedule, Agenda.plan?, Agenda.plan?, tasks k (own ▸ apart)]
    · rw [apply, agenda_schedule, automations id apart]
  | unschedule other =>
    have apart : id ≠ other := fun same => of_decide_eq_false foreign same.symm
    refine ⟨fun k own => ?_, get?_automations_remove s.agenda apart, rfl⟩
    exact (plan?_remove s.agenda other k).trans (if_neg (own ▸ apart))
  | _ => cases foreign

/-- Without a jump of the clock nothing is armed anew. -/
theorem agenda_checkDrift (s : Scheduler) (threshold elapsed : Duration) (r : Reading) :
    (s.checkDrift threshold elapsed r).2.agenda =
      if (s.jump? threshold elapsed r.now).join.isSome then (s.agenda.rescheduleAll r.next).2
      else s.agenda := by
  unfold Scheduler.checkDrift
  dsimp only
  split
  · next lost => simp [lost]
  · next none => simp [none]
  · next jump found =>
    rw [found]
    rfl

/-- A look at the clock crashes if the jump is out of bounds, or if there is one and a search crashes. -/
theorem checkDrift_fst_eq_none_iff {threshold elapsed : Duration} {r : Reading} :
    (s.checkDrift threshold elapsed r).1 = none ↔ s.jump? threshold elapsed r.now = none ∨
      (s.jump? threshold elapsed r.now).join.isSome = true ∧ (s.agenda.rescheduleAll r.next).1 = none := by
  unfold Scheduler.checkDrift
  dsimp only
  split
  · next lost => simp [lost]
  · next none => simp [none]
  · next jump found =>
    rw [found]
    simp [Scheduler.rescheduleAll]

theorem heartbeat_takeDue (s : Scheduler) (r : Reading) :
    (s.takeDue r).2.heartbeat = s.heartbeat := by
  unfold Scheduler.takeDue
  generalize s.agenda.takeDue r.outlook = taken
  rfl

theorem heartbeat_checkDrift (s : Scheduler) (threshold elapsed : Duration) (r : Reading) :
    (s.checkDrift threshold elapsed r).2.heartbeat = some (elapsed, r.now) := by
  unfold Scheduler.checkDrift
  dsimp only
  split <;> rfl

end Scheduler

end Hearth

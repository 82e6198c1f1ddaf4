import Hearth.Schedule
import Hearth.Table

/-!
# Hearth.Scheduler.Agenda

What is armed and when it fires. A task is a trigger of an automation with its next run. The queue
holds the next runs in order; an entry is not taken out when its task is armed anew or disarmed, but
carries the generation of the task, and is passed over when it surfaces with an old one.

The operations take the next occurrence of a schedule as a function, so that they do not depend on
the clock, the zone or the sun. Where the search for it crashes, an operation ends without an answer and
leaves what it has done until then.
-/

namespace Hearth

/-- A trigger of an automation, by its position. -/
structure TaskKey where
  automation : AutomationId
  index : Nat
deriving DecidableEq, Repr, Inhabited

structure Task where
  trigger : Trigger
  schedule : Schedule
  nextRun : Instant
  generation : Nat
deriving Repr

structure QueueEntry where
  fireAt : Instant
  generation : Nat
  key : TaskKey
deriving DecidableEq, Repr

def TaskKey.beforeOrSame (a b : TaskKey) : Bool :=
  a.index < b.index || (a.index == b.index && a.automation.text ≤ b.automation.text)

def Task.toData (key : TaskKey) (t : Task) : Data :=
  .record [("automation_id", key.automation.toData), ("trigger_index", .nat key.index),
    ("trigger", t.trigger.toData), ("next_run", t.nextRun.toData), ("recurring", .bool true)]

namespace QueueEntry

/-- By time, and at the same time by generation. -/
def precedes (a b : QueueEntry) : Bool :=
  a.fireAt.before b.fireAt || (a.fireAt == b.fireAt && a.generation < b.generation)

/-- Puts an entry into a queue in front of the first one that it precedes. -/
def insertInto (a : QueueEntry) : List QueueEntry → List QueueEntry
  | [] => [a]
  | b :: rest => if a.precedes b then a :: b :: rest else b :: insertInto a rest

theorem insertInto_perm (a : QueueEntry) (queue : List QueueEntry) :
    (a.insertInto queue).Perm (a :: queue) := by
  induction queue with
  | nil => exact .refl _
  | cons b rest ih =>
    unfold insertInto
    split
    · exact .refl _
    · exact (ih.cons b).trans (.swap a b rest)

end QueueEntry

structure Agenda where
  /-- The automations that have an armed trigger, as they were scheduled. -/
  automations : Table AutomationId Automation
  tasks : Table TaskKey Task
  queue : List QueueEntry
  /-- The generation of the task that was armed last. -/
  generation : Nat
deriving Repr, Inhabited

namespace Agenda

def empty : Agenda := ⟨.empty, .empty, [], 0⟩

/-- Arms a trigger for its next run, under a new generation. -/
def arm (a : Agenda) (key : TaskKey) (trigger : Trigger) (schedule : Schedule)
    (nextRun : Instant) : Agenda :=
  let generation := a.generation + 1
  { a with
    tasks := a.tasks.insert key { trigger, schedule, nextRun, generation }
    queue := QueueEntry.insertInto { fireAt := nextRun, generation, key } a.queue
    generation }

/-- Disarms every trigger of an automation; answers whether it had any. -/
def remove (a : Agenda) (id : AutomationId) : Bool × Agenda :=
  (a.automations.contains id,
    { a with
      automations := a.automations.erase id
      tasks := a.tasks.filter fun key _ => key.automation ≠ id })

/-- Disarms everything. Generations go on from where they were. -/
def clear (a : Agenda) : Agenda :=
  { a with automations := .empty, tasks := .empty, queue := [] }

/-- Whether an entry belongs to an armed task as it is armed now. -/
def isCurrent (a : Agenda) (entry : QueueEntry) : Bool :=
  match a.tasks.get? entry.key with
  | some task => task.generation == entry.generation
  | none => false

/-- Drops the entries at the front of the queue that are not current. -/
def prune (a : Agenda) : Agenda :=
  { a with queue := a.queue.dropWhile fun entry => !a.isCurrent entry }

/-- The time of the first entry, once the ones before it that are not current are dropped. -/
def earliest? (a : Agenda) : Option Instant × Agenda :=
  let pruned := a.prune
  (pruned.queue.head?.map QueueEntry.fireAt, pruned)

/-- A trigger of an automation with its schedule and next run. -/
structure Plan where
  index : Nat
  trigger : Trigger
  schedule : Schedule
  nextRun : Instant
deriving Repr

variable (next : Schedule → Except SearchFault Instant)

/-- Whether the search for the next occurrence of a schedule crashes. -/
def crashes (s : Schedule) : Bool :=
  match next s with
  | .error .crash => true
  | _ => false

/-- The plans of triggers. A schedule without an upcoming occurrence is left out; any other fault is
the fault of the automation. -/
def planTriggers : List (Nat × Trigger) → Except SearchFault (List Plan)
  | [] => .ok []
  | (index, trigger) :: rest => do
    let schedule? ← (Schedule.ofTrigger trigger).mapError .trigger
    match schedule? with
    | none => planTriggers rest
    | some schedule =>
      match next schedule with
      | .ok nextRun => do
        let plans ← planTriggers rest
        return { index, trigger, schedule, nextRun } :: plans
      | .error (.trigger (.noOccurrence _)) => planTriggers rest
      | .error fault => .error fault

/-- The plans of an automation whose triggers are all in order. -/
def plan (automation : Automation) : Except SearchFault (List Plan) := do
  automation.checkTriggers.mapError .trigger
  planTriggers next automation.scheduleTriggers

/-- Arms the plans of an automation in place of whatever was armed for it before. -/
def armAll (a : Agenda) (automation : Automation) (plans : List Plan) : Agenda :=
  let cleared := (a.remove automation.id).2
  let kept :=
    if plans.isEmpty then cleared
    else { cleared with automations := cleared.automations.insert automation.id automation }
  plans.foldl (fun a p => a.arm ⟨automation.id, p.index⟩ p.trigger p.schedule p.nextRun) kept

/-- Arms the triggers of an automation and answers their number. A disabled automation and one with
a fault are disarmed. Everything is planned before anything is changed. -/
def schedule (a : Agenda) (automation : Automation) : Except SearchFault Nat × Agenda :=
  if !automation.enabled then (.ok 0, (a.remove automation.id).2)
  else
    match plan next automation with
    | .error .crash => (.error .crash, a)
    | .error (.trigger fault) => (.error (.trigger fault), (a.remove automation.id).2)
    | .ok plans => (.ok plans.length, a.armAll automation plans)

/-- Arms a task anew for its next occurrence. A task without one is disarmed. -/
def rearm (a : Agenda) (key : TaskKey) (task : Task) : Agenda :=
  let disarmed := { a with tasks := a.tasks.erase key }
  match next task.schedule with
  | .ok nextRun => disarmed.arm key task.trigger task.schedule nextRun
  | .error _ => disarmed

/-- Adds an automation to those that are due, unless it is among them. -/
def collect (a : Agenda) (due : List Automation) (id : AutomationId) : List Automation :=
  if due.any fun known => known.id == id then due
  else
    match a.automations.get? id with
    | some automation => due ++ [automation]
    | none => due

/-- The tasks that are reached when all of them are armed anew, one after another: those in front of the
first one for which the search crashes. -/
def reached (a : Agenda) : List (TaskKey × Task) :=
  a.tasks.entries.takeWhile fun entry => !crashes next entry.2.schedule

/-- Arms every task anew for its next occurrence; a task without one is disarmed. Answers how many
tasks remain. If a search crashes, its task and those that have not been reached are lost. -/
def rescheduleAll (a : Agenda) : Option Nat × Agenda :=
  let emptied := { a with tasks := .empty, queue := [] }
  let rearmed := (a.reached next).foldl (fun a (key, task) =>
    match next task.schedule with
    | .ok nextRun => a.arm key task.trigger task.schedule nextRun
    | .error _ => a) emptied
  (if a.tasks.entries.any fun entry => crashes next entry.2.schedule then none
    else some rearmed.tasks.size, rearmed)

end Agenda

/-- What is ahead at an instant: the next occurrence of a schedule, which is later. -/
structure Outlook where
  now : Instant
  next : Schedule → Except SearchFault Instant
  later : ∀ {schedule : Schedule} {t : Instant}, next schedule = .ok t → now.before t = true

namespace Agenda

/-- The entries of the queue that are due. -/
def dueEntries (a : Agenda) (now : Instant) : List QueueEntry :=
  a.queue.filter fun entry => entry.fireAt.notAfter now

theorem length_dueEntries_prune_le (a : Agenda) (now : Instant) :
    (a.prune.dueEntries now).length ≤ (a.dueEntries now).length :=
  ((List.dropWhile_sublist _).filter _).length_le

theorem length_dueEntries_arm {a : Agenda} {now nextRun : Instant} (later : now.before nextRun = true)
    (key : TaskKey) (trigger : Trigger) (schedule : Schedule) :
    ((a.arm key trigger schedule nextRun).dueEntries now).length = (a.dueEntries now).length := by
  have same := ((QueueEntry.insertInto_perm ⟨nextRun, a.generation + 1, key⟩ a.queue).filter
    fun entry => entry.fireAt.notAfter now).length_eq
  simpa only [dueEntries, arm, List.filter_cons, Instant.notAfter, later, Bool.not_true,
    Bool.false_eq_true, ↓reduceIte] using same

theorem length_dueEntries_rearm (o : Outlook) (a : Agenda) (key : TaskKey) (task : Task) :
    ((a.rearm o.next key task).dueEntries o.now).length = (a.dueEntries o.now).length := by
  unfold rearm
  split
  · next nextRun found => exact length_dueEntries_arm (o.later found) key _ _
  · rfl

theorem length_dueEntries_pop_lt {a : Agenda} {now : Instant} {entry : QueueEntry}
    {rest : List QueueEntry} (front : a.prune.queue = entry :: rest)
    (due : now.before entry.fireAt = false) :
    (({ a.prune with queue := rest }).dueEntries now).length < (a.dueEntries now).length := by
  have fewer := length_dueEntries_prune_le a now
  simp only [dueEntries, front, List.filter_cons, Instant.notAfter, due, Bool.not_false,
    ↓reduceIte, List.length_cons] at fewer ⊢
  exact fewer

/-- Takes one due task after another, the earliest first, and arms it anew before the next one is
taken. Ends because what is armed anew is not due. If a search crashes, its task is lost and nothing is
answered. -/
def drain (a : Agenda) (o : Outlook) (due : List Automation) : Option (List Automation) × Agenda :=
  match front : a.prune.queue with
  | [] => (some due, a.prune)
  | entry :: rest =>
    if _due : o.now.before entry.fireAt then (some due, a.prune)
    else
      let popped := { a.prune with queue := rest }
      match popped.tasks.get? entry.key with
      | none => popped.drain o due
      | some task =>
        let rearmed := popped.rearm o.next entry.key task
        if crashes o.next task.schedule then (none, rearmed)
        else
          -- The task is armed anew even if its automation is due already through another trigger.
          rearmed.drain o (popped.collect due entry.key.automation)
termination_by (a.dueEntries o.now).length
decreasing_by
  · exact length_dueEntries_pop_lt front (Bool.not_eq_true _ ▸ _due)
  · rw [length_dueEntries_rearm]
    exact length_dueEntries_pop_lt front (Bool.not_eq_true _ ▸ _due)

/-- Takes what is due, each automation once, in the order in which their first triggers are due. -/
def takeDue (a : Agenda) (o : Outlook) : Option (List Automation) × Agenda := a.drain o []

/-- The armed tasks, by next run, position of the trigger and identifier. -/
def nextRuns (a : Agenda) : List (TaskKey × Task) :=
  a.tasks.entries.mergeSort fun (k, s) (l, t) =>
    s.nextRun.before t.nextRun || (s.nextRun == t.nextRun && k.beforeOrSame l)

/-- The next runs in short: identifier, position and time. -/
def armed (a : Agenda) : Data :=
  .ofList (fun (key, t) => .list [key.automation.toData, .nat key.index, t.nextRun.toData])
    a.nextRuns

end Agenda

end Hearth

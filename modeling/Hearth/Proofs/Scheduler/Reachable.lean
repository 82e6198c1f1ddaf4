import Mathlib.Data.List.TakeWhile
import Hearth.Proofs.Scheduler.Upkeep
import Hearth.Proofs.Table
import Hearth.Scheduler.Basic

/-!
# Hearth.Proofs.Scheduler.Reachable

The states that a scheduler can come into, and what its queue says about its tasks in all of them.

## Main definitions

`Scheduler.Step`: one operation, at any reading of the clock.
`Scheduler.Reachable`: what operations make of the empty scheduler.

## Main results

`Scheduler.Step.edits`: whatever is done to a scheduler edits its agenda.
`Scheduler.queue_represents_tasks`: the queue holds each armed task once; what else it holds is and
remains without a task, so its front is the first task and the time until then is the time to wait.
-/

namespace Hearth

namespace Agenda

/-! ### The operations as edits -/

/-- Pruning drops entries without a task. -/
theorem queue_eq_append_prune (a : Agenda) :
    ∃ dropped, a.queue = dropped ++ a.prune.queue ∧
      ∀ entry ∈ dropped, a.isCurrent entry = false := by
  refine ⟨a.queue.takeWhile fun entry => !a.isCurrent entry, ?_, ?_⟩
  · exact List.takeWhile_append_dropWhile.symm
  · intro entry member
    simpa using List.mem_takeWhile_imp member

theorem edit_prune (a : Agenda) : Edit a a.prune := by
  refine .drop a (List.dropWhile_sublist _) ?_
  intro entry member current
  obtain ⟨dropped, split, stale⟩ := a.queue_eq_append_prune
  rw [split, List.mem_append] at member
  rcases member with lost | kept
  · simp [stale entry lost] at current
  · exact kept

theorem Upkept.edits_remove {a : Agenda} (upkept : a.Upkept) (id : AutomationId) :
    Edits a (a.remove id).2 := by
  let disarmed : Agenda :=
    { a with tasks := a.tasks.filter fun key _ => key.automation ≠ id }
  have looked (key : TaskKey) : disarmed.tasks.get? key =
      if key.automation ≠ id then a.tasks.get? key else none :=
    (Table.get?_filter_keys a.tasks (fun key => decide (key.automation ≠ id)) key).trans (by simp)
  have disarm : Edit a disarmed := by
    refine .disarm a (Table.nodup_keys_filter upkept.nodup_keys _) ?_
    intro key task armed
    rw [looked] at armed
    split at armed
    · exact armed
    · cases armed
  have forget : Edit disarmed (a.remove id).2 := by
    refine .know disarmed ?_
    intro key task armed
    rw [looked] at armed
    split at armed
    · next other =>
      obtain ⟨automation, found, named⟩ := upkept.known armed
      refine ⟨automation, ?_, named⟩
      simpa [Table.get?_erase, other] using found
    · cases armed
  exact .tail (.single disarm) forget

theorem edits_clear (a : Agenda) : Edits a a.clear := by
  -- The tasks go first: without them nothing needs an automation or an entry.
  have disarm : Edit a { a with tasks := .empty } := .disarm a .nil nofun
  have forget : Edit { a with tasks := .empty } { a with tasks := .empty, automations := .empty } :=
    .know _ nofun
  have drop : Edit { a with tasks := .empty, automations := .empty } a.clear :=
    .drop _ (List.nil_sublist _) nofun
  exact .tail (.tail (.single disarm) forget) drop

theorem edits_foldl_arm {id : AutomationId} (plans : List Plan) {a : Agenda} (known : a.Knows id) :
    Edits a (plans.foldl (fun a p => a.arm ⟨id, p.index⟩ p.trigger p.schedule p.nextRun) a) := by
  induction plans generalizing a with
  | nil => exact .refl
  | cons p rest ih =>
    have armed : Edit a (a.arm ⟨id, p.index⟩ p.trigger p.schedule p.nextRun) := .arm a known _ _ _
    exact .head armed (ih known)

theorem Upkept.edits_armAll {a : Agenda} (upkept : a.Upkept) (automation : Automation)
    (plans : List Plan) : Edits a (a.armAll automation plans) := by
  have removed := upkept.edits_remove automation.id
  unfold armAll
  -- Without a plan the automation is not entered.
  cases plans with
  | nil => exact removed
  | cons p rest =>
    let cleared := (a.remove automation.id).2
    let kept := { cleared with automations := cleared.automations.insert automation.id automation }
    have learn : Edit cleared kept := by
      refine .know cleared ?_
      intro key task armed
      by_cases same : key.automation = automation.id
      · exact ⟨automation, same ▸ Table.get?_insert_self _ _ _, same.symm⟩
      · obtain ⟨other, found, named⟩ := (upkept.edits removed).known armed
        exact ⟨other, (Table.get?_insert_ne _ _ same).trans found, named⟩
    have known : kept.Knows automation.id := ⟨automation, Table.get?_insert_self _ _ _, rfl⟩
    exact (removed.tail learn).trans (edits_foldl_arm (p :: rest) known)

theorem Upkept.edits_schedule {a : Agenda} (upkept : a.Upkept)
    (next : Schedule → Except SearchFault Instant) (automation : Automation) :
    Edits a (a.schedule next automation).2 := by
  unfold schedule
  split
  · exact upkept.edits_remove automation.id
  · split
    · exact .refl
    · exact upkept.edits_remove automation.id
    · exact upkept.edits_armAll automation _

theorem edits_foldl_rearm (next : Schedule → Except SearchFault Instant)
    (entries : List (TaskKey × Task)) {a : Agenda}
    (known : ∀ entry ∈ entries, a.Knows entry.1.automation) :
    Edits a (entries.foldl (fun a (key, task) =>
      match next task.schedule with
      | .ok nextRun => a.arm key task.trigger task.schedule nextRun
      | .error _ => a) a) := by
  induction entries generalizing a with
  | nil => exact .refl
  | cons entry rest ih =>
    obtain ⟨first, others⟩ := List.forall_mem_cons.1 known
    rw [List.foldl_cons]
    dsimp only
    split
    · exact .head (.arm a first _ _ _) (ih others)
    · exact ih others

theorem Upkept.edits_rescheduleAll {a : Agenda} (upkept : a.Upkept)
    (next : Schedule → Except SearchFault Instant) : Edits a (a.rescheduleAll next).2 := by
  have disarm : Edit a { a with tasks := .empty } := .disarm a .nil nofun
  have drop : Edit { a with tasks := .empty } { a with tasks := .empty, queue := [] } :=
    .drop _ (List.nil_sublist _) nofun
  refine (Relation.ReflTransGen.tail (.single disarm) drop).trans (edits_foldl_rearm next _ ?_)
  intro entry member
  have armed := (List.takeWhile_sublist _).subset member
  exact upkept.known ((Table.get?_eq_some_iff upkept.nodup_keys).2 armed)

/-! ### The loop that takes what is due -/

/-- One turn of the loop: the task at the front is taken out of the queue and armed anew. -/
def turn (a : Agenda) (next : Schedule → Except SearchFault Instant) (entry : QueueEntry)
    (rest : List QueueEntry) (task : Task) : Agenda :=
  { a.prune with queue := rest }.rearm next entry.key task

/-- The first entry of a pruned queue has a task. -/
theorem isCurrent_front {a : Agenda} {entry : QueueEntry} {rest : List QueueEntry}
    (front : a.prune.queue = entry :: rest) : a.isCurrent entry = true := by
  have kept := List.head?_dropWhile_not (fun e => !a.isCurrent e) a.queue
  have first : (a.queue.dropWhile fun e => !a.isCurrent e).head? = some entry := by
    show a.prune.queue.head? = some entry
    rw [front]
    rfl
  simpa [first] using kept

/-- What holds when nothing is due at the front and when the first search crashes, and is carried back
over a turn, holds of the whole loop. -/
theorem drain_rule {o : Outlook}
    {motive : Agenda → List Automation → Option (List Automation) × Agenda → Prop}
    (stop : ∀ a due, (∀ entry ∈ a.prune.queue.head?, o.now.before entry.fireAt = true) →
      motive a due (some due, a.prune))
    (crash : ∀ a due entry rest task, a.prune.queue = entry :: rest →
      o.now.before entry.fireAt = false → a.tasks.get? entry.key = some task →
      task.generation = entry.generation → crashes o.next task.schedule = true →
      motive a due (none, a.turn o.next entry rest task))
    (turn : ∀ a due entry rest task answer, a.prune.queue = entry :: rest →
      o.now.before entry.fireAt = false → a.tasks.get? entry.key = some task →
      task.generation = entry.generation → crashes o.next task.schedule = false →
      motive (a.turn o.next entry rest task) (a.collect due entry.key.automation) answer →
      motive a due answer)
    (a : Agenda) (due : List Automation) : motive a due (a.drain o due) := by
  fun_induction drain a o due with
  | case1 a due front => exact stop a due (by simp [front])
  | case2 a due entry rest front later => exact stop a due (by simpa [front] using later)
  | case3 a due entry rest front notLater popped absent =>
    -- The front has a task, so it never has to be passed over.
    obtain ⟨task, armed, -⟩ := isCurrent_eq_true_iff.1 (isCurrent_front front)
    exact absurd (absent.symm.trans armed) nofun
  | case4 a due entry rest front notLater popped task armed rearmed crashed =>
    obtain ⟨other, found, same⟩ := isCurrent_eq_true_iff.1 (isCurrent_front front)
    obtain rfl : task = other := Option.some.inj (armed.symm.trans found)
    exact crash a due entry rest task front (Bool.not_eq_true _ ▸ notLater) armed same crashed
  | case5 a due entry rest front notLater popped task armed rearmed goes ih =>
    obtain ⟨other, found, same⟩ := isCurrent_eq_true_iff.1 (isCurrent_front front)
    obtain rfl : task = other := Option.some.inj (armed.symm.trans found)
    exact turn a due entry rest task _ front (Bool.not_eq_true _ ▸ notLater) armed same
      (Bool.not_eq_true _ ▸ goes) ih

theorem Upkept.edits_turn {a : Agenda} (upkept : a.Upkept) {entry : QueueEntry}
    {rest : List QueueEntry} (front : a.prune.queue = entry :: rest) {task : Task}
    (armed : a.tasks.get? entry.key = some task)
    (next : Schedule → Except SearchFault Instant) : Edits a (a.turn next entry rest task) := by
  -- The task is taken away before its entry, so that the entry may go.
  let disarmed : Agenda := { a.prune with tasks := a.tasks.erase entry.key }
  have looked (key : TaskKey) : disarmed.tasks.get? key =
      if key = entry.key then none else a.tasks.get? key := Table.get?_erase _ _ _
  have disarm : Edit a.prune disarmed := by
    refine .disarm a.prune (Table.nodup_keys_filter upkept.nodup_keys _) ?_
    intro key other found
    rw [looked] at found
    split at found
    · cases found
    · exact found
  have pop : Edit disarmed { disarmed with queue := rest } := by
    refine .drop disarmed ?_ ?_
    · exact front ▸ List.sublist_cons_self entry rest
    · intro other member current
      rw [show disarmed.queue = entry :: rest from front] at member
      rcases List.mem_cons.1 member with rfl | kept
      · obtain ⟨_, found, -⟩ := isCurrent_eq_true_iff.1 current
        simp [looked] at found
      · exact kept
  have popped : Edits a { disarmed with queue := rest } :=
    .tail (.tail (.single a.edit_prune) disarm) pop
  have known : { disarmed with queue := rest }.Knows entry.key.automation := upkept.known armed
  unfold turn rearm
  split
  · exact popped.tail (.arm _ known _ _ _)
  · exact popped

theorem Upkept.edits_drain {a : Agenda} (upkept : a.Upkept) (o : Outlook) (due : List Automation) :
    Edits a (a.drain o due).2 := by
  refine drain_rule (o := o) (motive := fun a _ answer => a.Upkept → Edits a answer.2)
    ?_ ?_ ?_ a due upkept
  · intro a due _ _
    exact .single a.edit_prune
  · intro a due entry rest task front _ armed _ _ upkept
    exact upkept.edits_turn front armed o.next
  · intro a due entry rest task answer front _ armed _ _ ih upkept
    have turned := upkept.edits_turn front armed o.next
    exact turned.trans (ih (upkept.edits turned))

/-! ### The front of the queue -/

/-- An armed task that no other one comes before. -/
structure First (a : Agenda) (key : TaskKey) (task : Task) : Prop where
  armed : a.tasks.get? key = some task
  first : ∀ {key' other}, a.tasks.get? key' = some other → other.nextRun.before task.nextRun = false

theorem Upkept.first_front {a : Agenda} (upkept : a.Upkept) {entry : QueueEntry}
    {rest : List QueueEntry} (front : a.prune.queue = entry :: rest) :
    ∃ task, a.First entry.key task ∧ task.entry entry.key = entry := by
  have pruned := upkept.edit a.edit_prune
  obtain ⟨task, armed, same⟩ := isCurrent_eq_true_iff.1 (isCurrent_front front)
  have member : entry ∈ a.prune.queue := front ▸ List.mem_cons_self
  have own := pruned.entry_eq member armed same
  refine ⟨task, ⟨armed, ?_⟩, own.symm⟩
  intro key other found
  have time : entry.fireAt = task.nextRun := congrArg QueueEntry.fireAt own
  have queued : other.entry key ∈ entry :: rest := front ▸ pruned.queued found
  have sorted := pruned.sorted
  rw [front, List.pairwise_cons] at sorted
  -- A task stands at the front itself or behind it, and behind it nothing is earlier.
  rcases List.mem_cons.1 queued with here | behind
  · have shared : other.nextRun = task.nextRun := (congrArg QueueEntry.fireAt here).trans time
    rw [shared]
    exact Instant.before_irrefl _
  · rw [← time]
    exact QueueEntry.not_before_of_precedes (sorted.1 _ behind)

theorem Upkept.prune_queue_eq_nil_iff {a : Agenda} (upkept : a.Upkept) :
    a.prune.queue = [] ↔ a.tasks.entries = [] := by
  constructor
  · intro nothing
    rw [Table.entries_eq_nil_iff]
    intro key
    cases armed : a.tasks.get? key with
    | none => rfl
    | some task =>
      have queued : task.entry key ∈ a.prune.queue := (upkept.edit a.edit_prune).queued armed
      rw [nothing] at queued
      exact absurd queued List.not_mem_nil
  · intro disarmed
    rw [Table.entries_eq_nil_iff] at disarmed
    cases front : a.prune.queue with
    | nil => rfl
    | cons entry rest =>
      obtain ⟨task, armed, -⟩ := isCurrent_eq_true_iff.1 (isCurrent_front front)
      exact absurd ((disarmed entry.key).symm.trans armed) nofun

theorem Upkept.filter_queue_eq {a : Agenda} (upkept : a.Upkept) {key : TaskKey} {task : Task}
    (armed : a.tasks.get? key = some task) :
    a.queue.filter (fun entry => entry.key = key && entry.generation = task.generation) =
      [task.entry key] := by
  have queued := upkept.queued armed
  -- A list without repetitions is a single entry if that is its only member.
  have once : (a.queue.filter fun entry =>
      entry.key = key && entry.generation = task.generation).Nodup :=
    (upkept.nodup_generations.of_map _).filter _
  refine List.perm_singleton.1 ((List.perm_ext_iff_of_nodup once (List.nodup_singleton _)).2 ?_)
  intro entry
  simp only [List.mem_filter, Bool.and_eq_true, decide_eq_true_eq, List.mem_singleton]
  constructor
  · rintro ⟨member, rfl, same⟩
    exact upkept.entry_eq member armed same.symm
  · rintro rfl
    exact ⟨queued, rfl, rfl⟩

end Agenda

namespace Scheduler

open Agenda

/-! ### Reachable states -/

/-- One operation, at any reading of the clock. Between operations the tasks may change places: their
order in the table is nothing that one may rely on. -/
inductive Step : Scheduler → Scheduler → Prop
  | schedule (s : Scheduler) (r : Reading) (automation : Automation) :
      Step s (s.schedule r automation).2
  | unschedule (s : Scheduler) (id : AutomationId) : Step s (s.unschedule id).2
  | clear (s : Scheduler) : Step s s.clear
  | takeDue (s : Scheduler) (r : Reading) : Step s (s.takeDue r).2
  | rescheduleAll (s : Scheduler) (r : Reading) : Step s (s.rescheduleAll r).2
  | checkDrift (s : Scheduler) (threshold : Duration) (elapsed : Duration) (r : Reading) :
      Step s (s.checkDrift threshold elapsed r).2
  | timeUntilNext (s : Scheduler) (r : Reading) : Step s (s.timeUntilNext r).2
  | remember (s : Scheduler) (capacity : Nat) (record : RunRecord) :
      Step s (s.remember capacity record)
  | permute (s : Scheduler) {tasks : Table TaskKey Task}
      (same : tasks.entries.Perm s.agenda.tasks.entries) :
      Step s { s with agenda := { s.agenda with tasks } }

/-- Any number of operations. -/
abbrev Steps : Scheduler → Scheduler → Prop := Relation.ReflTransGen Step

def Reachable (s : Scheduler) : Prop := Steps empty s

theorem agenda_schedule (s : Scheduler) (r : Reading) (automation : Automation) :
    (s.schedule r automation).2.agenda = (s.agenda.schedule r.next automation).2 := by
  unfold schedule
  dsimp only
  split <;> next found => rw [found]

theorem edit_permute {a : Agenda} (upkept : a.Upkept) {tasks : Table TaskKey Task}
    (same : tasks.entries.Perm a.tasks.entries) : Edit a { a with tasks } := by
  refine .disarm a (Table.nodup_keys_of_perm upkept.nodup_keys same) ?_
  intro key task armed
  rwa [Table.get?_of_perm upkept.nodup_keys same] at armed

/-- Whatever is done to a scheduler edits its agenda. -/
theorem Step.edits {s t : Scheduler} (step : Step s t) (upkept : s.agenda.Upkept) :
    Edits s.agenda t.agenda := by
  cases step with
  | schedule r automation =>
    rw [agenda_schedule]
    exact upkept.edits_schedule r.next automation
  | unschedule id => exact upkept.edits_remove id
  | clear => exact edits_clear s.agenda
  | takeDue r => exact upkept.edits_drain r.outlook []
  | rescheduleAll r => exact upkept.edits_rescheduleAll r.next
  | checkDrift threshold elapsed r =>
    unfold Scheduler.checkDrift
    dsimp only
    split
    · exact .refl
    · exact .refl
    · exact upkept.edits_rescheduleAll r.next
  | timeUntilNext r => exact .single s.agenda.edit_prune
  | remember capacity record =>
    unfold Scheduler.remember
    split
    · exact .refl
    · exact .refl
  | permute same => exact .single (edit_permute upkept same)

theorem Steps.edits {s t : Scheduler} (steps : Steps s t) (upkept : s.agenda.Upkept) :
    Edits s.agenda t.agenda := by
  induction steps with
  | refl => exact .refl
  | tail _ step ih => exact ih.trans (step.edits (upkept.edits ih))

theorem Reachable.upkept {s : Scheduler} (reachable : s.Reachable) : s.agenda.Upkept :=
  Upkept.empty.edits (Steps.edits reachable Upkept.empty)

/-! ### What the queue says -/

/-- Every armed task stands in the queue exactly once, and everything else in it has no task and
never gets one. So the front of the queue, cleared of what has no task, is a first task, and the time
until then is the time to wait. -/
theorem queue_represents_tasks {s : Scheduler} (reachable : s.Reachable) :
    (∀ {key task}, s.agenda.tasks.get? key = some task →
      s.agenda.queue.filter (fun entry => entry.key = key && entry.generation = task.generation) =
        [task.entry key]) ∧
    (s.agenda.queue.map QueueEntry.generation).Nodup ∧
    (∀ entry ∈ s.agenda.queue, entry.generation ≤ s.agenda.generation) ∧
    (∀ entry ∈ s.agenda.queue,
      (∀ task, s.agenda.tasks.get? entry.key = some task → entry ≠ task.entry entry.key) →
      ∀ {t}, Steps s t → t.agenda.isCurrent entry = false) ∧
    (∀ entry ∈ s.agenda.prune.queue.head?,
      ∃ task, s.agenda.First entry.key task ∧ task.entry entry.key = entry) ∧
    (s.agenda.prune.queue = [] ↔ s.agenda.tasks.entries = []) ∧
    (∀ r, (s.timeUntilNext r).1 = none ↔ s.agenda.tasks.entries = []) ∧
    (∀ r {key task}, s.agenda.First key task →
      (s.timeUntilNext r).1 = some ⟨(task.nextRun.since r.now).toNat⟩) := by
  have upkept := reachable.upkept
  refine ⟨upkept.filter_queue_eq, upkept.nodup_generations, upkept.generation_le, ?_, ?_,
    upkept.prune_queue_eq_nil_iff, ?_, ?_⟩
  · intro entry member foreign t steps
    refine upkept.stale_edits (Steps.edits steps upkept) member ?_
    rw [Bool.eq_false_iff]
    intro current
    obtain ⟨task, armed, same⟩ := isCurrent_eq_true_iff.1 current
    exact foreign task armed (upkept.entry_eq member armed same)
  · intro entry front
    obtain ⟨rest, queue⟩ := List.head?_eq_some_iff.1 front
    exact upkept.first_front queue
  · intro r
    rw [← upkept.prune_queue_eq_nil_iff]
    simp [timeUntilNext, earliest?]
  · intro r key task first
    cases front : s.agenda.prune.queue with
    | nil =>
      have nothing := upkept.prune_queue_eq_nil_iff.1 front
      have absent := (Table.entries_eq_nil_iff _).1 nothing key
      exact absurd (absent.symm.trans first.armed) nofun
    | cons entry rest =>
      -- Two tasks that no other one comes before are due at the same time.
      obtain ⟨other, also, own⟩ := upkept.first_front front
      have same : other.nextRun = task.nextRun :=
        Instant.eq_of_not_before (first.first also.armed) (also.first first.armed)
      have time : entry.fireAt = task.nextRun := (congrArg QueueEntry.fireAt own).symm.trans same
      simp [timeUntilNext, earliest?, front, time]

/-- At midnight in universal time, at the beginning of 1970. -/
def firstMidnight : Reading := ⟨⟨0, 0, Instant.zero_nanos_lt⟩, .universal, none⟩

/-- Rings at seven and, before that, at half past six. -/
def alarm : Automation :=
  { id := ⟨⟨1⟩⟩, name := "alarm", enabled := true
    triggers := [.time "07:00" none, .time "06:30" none], actions := [] }

/-- An alarm that is set twice leaves the entries of the first time behind. -/
def resetAlarm : Scheduler :=
  ((empty.schedule firstMidnight alarm).2.schedule firstMidnight alarm).2

theorem queue_represents_resetAlarm :
    resetAlarm.Reachable ∧
    resetAlarm.agenda.queue.map QueueEntry.generation = [2, 4, 1, 3] ∧
    (∀ {t}, Steps resetAlarm t → t.agenda.isCurrent ⟨⟨23400, 0, by decide⟩, 2, ⟨⟨⟨1⟩⟩, 1⟩⟩ = false) ∧
    (resetAlarm.timeUntilNext firstMidnight).1 = some (.ofSecs 23400) := by
  have reachable : resetAlarm.Reachable :=
    .tail (.single (.schedule empty firstMidnight alarm)) (.schedule _ firstMidnight alarm)
  obtain ⟨-, -, -, stale, top, -, -, wait⟩ := queue_represents_tasks reachable
  refine ⟨reachable, by decide +kernel, ?_, ?_⟩
  · refine stale _ (by decide +kernel) ?_
    intro task armed same
    have renewed : (resetAlarm.agenda.tasks.get? ⟨⟨⟨1⟩⟩, 1⟩).map Task.generation = some 4 := by
      decide +kernel
    have former : 2 = task.generation := congrArg QueueEntry.generation same
    rw [armed, Option.map_some, ← former] at renewed
    cases renewed
  · have front : resetAlarm.agenda.prune.queue.head? =
        some ⟨⟨23400, 0, by decide⟩, 4, ⟨⟨⟨1⟩⟩, 1⟩⟩ := by decide +kernel
    obtain ⟨task, first, own⟩ := top _ front
    have time : task.nextRun = ⟨23400, 0, by decide⟩ := congrArg QueueEntry.fireAt own
    rw [wait firstMidnight first, time]
    rfl

end Scheduler

end Hearth

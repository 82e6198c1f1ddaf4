import Hearth.Proofs.Scheduler.Reachable

/-!
# Hearth.Proofs.Scheduler.Due

What is taken when it is due, and what is left behind.

## Main definitions

`Agenda.Due`: an armed task whose next run is not after now.
`Agenda.Reached`: a due task with none before it for which the search crashes.
`Agenda.pending`: the entries of the due tasks, in order.
`Agenda.Gathered`: a list of automations that are due, each once, the one with the earliest task
first.

## Main results

`Agenda.Upkept.drain_eq_none_iff`, `Agenda.Upkept.drain_fst` and `Agenda.Upkept.drain_tasks`: when the
loop answers, what it answers, and what it does to every task.
`Scheduler.takeDue_exact`: unless a search crashes, what is due is taken once and armed anew, and nothing
else is touched.
-/

namespace Hearth

theorem QueueEntry.filter_insertInto {a : QueueEntry} {keep : QueueEntry → Bool}
    (dropped : keep a = false) (queue : List QueueEntry) :
    (a.insertInto queue).filter keep = queue.filter keep := by
  induction queue with
  | nil => simp [insertInto, dropped]
  | cons b rest ih =>
    unfold insertInto
    split
    · simp [dropped]
    · simp only [List.filter_cons, ih]

theorem QueueEntry.precedes_irrefl (a : QueueEntry) : a.precedes a = false := by
  simp [precedes, Instant.before_irrefl]

theorem Outlook.later_of_toOption (o : Outlook) {schedule : Schedule} {t : Instant}
    (found : (o.next schedule).toOption = some t) : o.now.before t = true := by
  cases occurrence : o.next schedule with
  | ok nextRun =>
    rw [occurrence, Except.toOption, Option.some.injEq] at found
    exact found ▸ o.later occurrence
  | error fault => simp [occurrence, Except.toOption] at found

namespace Agenda

/-! ### One turn of the loop -/

/-- An armed task whose next run is not after now. -/
def Due (a : Agenda) (now : Instant) (key : TaskKey) (task : Task) : Prop :=
  a.tasks.get? key = some task ∧ task.nextRun.notAfter now = true

/-- A due task that the loop comes to: for no task that is due before it the search crashes. -/
structure Reached (a : Agenda) (o : Outlook) (key : TaskKey) (task : Task) : Prop where
  due : a.Due o.now key task
  first : ∀ {key' other}, a.Due o.now key' other →
    (other.entry key').precedes (task.entry key) = true → crashes o.next other.schedule = false

/-- Under one key only one task is armed. -/
theorem Due.eq_armed {a : Agenda} {now : Instant} {key : TaskKey} {task armed : Task}
    (due : a.Due now key task) (found : a.tasks.get? key = some armed) : armed = task :=
  Option.some.inj (found.symm.trans due.1)

theorem Due.reached {a : Agenda} {o : Outlook} {key : TaskKey} {task : Task}
    (due : a.Due o.now key task)
    (sound : ∀ {key' other}, a.Due o.now key' other → crashes o.next other.schedule = false) :
    a.Reached o key task :=
  ⟨due, fun otherDue _ => sound otherDue⟩

/-- The entries of the due tasks, in order. -/
def pending (a : Agenda) (now : Instant) : List QueueEntry :=
  (a.dueEntries now).filter a.isCurrent

theorem Upkept.mem_pending {a : Agenda} (upkept : a.Upkept) {now : Instant} {entry : QueueEntry} :
    entry ∈ a.pending now ↔ ∃ task, a.Due now entry.key task ∧ task.entry entry.key = entry := by
  simp only [pending, dueEntries, List.mem_filter]
  constructor
  · rintro ⟨⟨member, due⟩, current⟩
    obtain ⟨task, armed, same⟩ := isCurrent_eq_true_iff.1 current
    have own := upkept.entry_eq member armed same
    have time : entry.fireAt = task.nextRun := congrArg QueueEntry.fireAt own
    exact ⟨task, ⟨armed, time ▸ due⟩, own.symm⟩
  · rintro ⟨task, ⟨armed, due⟩, own⟩
    have time : task.nextRun = entry.fireAt := congrArg QueueEntry.fireAt own
    have same : task.generation = entry.generation := congrArg QueueEntry.generation own
    exact ⟨⟨own ▸ upkept.queued armed, time ▸ due⟩, isCurrent_eq_true_iff.2 ⟨task, armed, same⟩⟩

theorem Upkept.entry_mem_pending {a : Agenda} (upkept : a.Upkept) {now : Instant} {key : TaskKey}
    {task : Task} (due : a.Due now key task) : task.entry key ∈ a.pending now :=
  upkept.mem_pending.2 ⟨task, due, rfl⟩

theorem pending_prune (a : Agenda) (now : Instant) : a.prune.pending now = a.pending now := by
  obtain ⟨dropped, split, stale⟩ := a.queue_eq_append_prune
  have none : dropped.filter (fun entry => a.isCurrent entry && entry.fireAt.notAfter now) = [] := by
    rw [List.filter_eq_nil_iff]
    intro entry member
    simp [stale entry member]
  simp only [pending, dueEntries, List.filter_filter]
  rw [split, List.filter_append, none, List.nil_append]
  rfl

/-- A task that is armed anew has a new generation; one without another occurrence is gone. -/
theorem get?_turn (a : Agenda) (next : Schedule → Except SearchFault Instant)
    (entry : QueueEntry) (rest : List QueueEntry) (task : Task) (key : TaskKey) :
    (a.turn next entry rest task).tasks.get? key =
      if key = entry.key then
        (next task.schedule).toOption.map fun nextRun =>
          { task with nextRun, generation := a.generation + 1 }
      else a.tasks.get? key := by
  have erased : (a.prune.tasks.erase entry.key).get? key =
      if key = entry.key then none else a.tasks.get? key := Table.get?_erase _ _ _
  unfold turn rearm
  split
  · next nextRun found =>
    simp only [arm, Table.get?_insert, found, Except.toOption, Option.map_some]
    split
    · rfl
    · next other => simpa [other] using erased
  · next fault found =>
    simpa only [found, Except.toOption, Option.map_none] using erased

theorem automations_turn (a : Agenda) (next : Schedule → Except SearchFault Instant)
    (entry : QueueEntry) (rest : List QueueEntry) (task : Task) :
    (a.turn next entry rest task).automations = a.automations := by
  unfold turn rearm
  split <;> rfl

/-- What is armed anew is not due, so the queue that is left has the due entries behind the front. -/
theorem dueEntries_turn (a : Agenda) (o : Outlook) (entry : QueueEntry) (rest : List QueueEntry)
    (task : Task) : (a.turn o.next entry rest task).dueEntries o.now =
      rest.filter fun e => e.fireAt.notAfter o.now := by
  unfold turn rearm
  split
  · next nextRun found =>
    exact QueueEntry.filter_insertInto (by simp [Instant.notAfter, o.later found]) rest
  · rfl

/-- The entries behind the front are as current as they were. -/
theorem Upkept.isCurrent_turn {a : Agenda} (upkept : a.Upkept)
    (next : Schedule → Except SearchFault Instant) {entry other : QueueEntry}
    {rest : List QueueEntry} (front : a.prune.queue = entry :: rest) (behind : other ∈ rest)
    {task : Task} (armed : a.tasks.get? entry.key = some task)
    (same : task.generation = entry.generation) :
    (a.turn next entry rest task).isCurrent other = a.isCurrent other := by
  by_cases here : other.key = entry.key
  · -- An older entry of the task at the front: it has not the generation that the task had, and not
    -- the one that the task has been given.
    have pruned := upkept.edit a.edit_prune
    have queued : other ∈ a.prune.queue := front ▸ List.mem_cons_of_mem _ behind
    have apart := pruned.nodup_generations
    rw [front, List.map_cons, List.nodup_cons] at apart
    have different : entry.generation ≠ other.generation := fun equal =>
      apart.1 (equal ▸ List.mem_map_of_mem behind)
    have formerly : a.isCurrent other = false := by
      simpa [isCurrent, here, armed, same] using different
    rw [formerly, Bool.eq_false_iff]
    intro current
    obtain ⟨renewed, found, equal⟩ := isCurrent_eq_true_iff.1 current
    rw [get?_turn, if_pos here, Option.map_eq_some_iff] at found
    obtain ⟨nextRun, -, rfl⟩ := found
    have above : other.generation = a.generation + 1 := equal.symm
    have below : other.generation ≤ a.generation := pruned.generation_le other queued
    omega
  · simp only [isCurrent, get?_turn, here, ↓reduceIte]

/-- A turn takes the first of the pending entries, and no other one. -/
theorem Upkept.pending_turn {a : Agenda} (upkept : a.Upkept) (o : Outlook) {entry : QueueEntry}
    {rest : List QueueEntry} (front : a.prune.queue = entry :: rest)
    (due : o.now.before entry.fireAt = false) {task : Task}
    (armed : a.tasks.get? entry.key = some task) (same : task.generation = entry.generation) :
    a.pending o.now = entry :: (a.turn o.next entry rest task).pending o.now := by
  have current := isCurrent_front front
  have kept : ∀ other ∈ rest.filter fun e => e.fireAt.notAfter o.now,
      a.isCurrent other = (a.turn o.next entry rest task).isCurrent other := by
    intro other member
    exact (upkept.isCurrent_turn o.next front (List.mem_filter.1 member).1 armed same).symm
  calc a.pending o.now
      = a.prune.pending o.now := (a.pending_prune o.now).symm
    _ = entry :: (rest.filter fun e => e.fireAt.notAfter o.now).filter a.isCurrent := by
        simp only [pending, dueEntries, front, List.filter_cons, Instant.notAfter, due,
          Bool.not_false, ↓reduceIte]
        exact if_pos current
    _ = entry :: (a.turn o.next entry rest task).pending o.now := by
        rw [pending, dueEntries_turn, List.filter_congr kept]

/-- When the front is not due, nothing is. -/
theorem Upkept.pending_eq_nil {a : Agenda} (upkept : a.Upkept) {now : Instant}
    (later : ∀ entry ∈ a.prune.queue.head?, now.before entry.fireAt = true) :
    a.pending now = [] := by
  rw [List.eq_nil_iff_forall_not_mem]
  intro entry member
  obtain ⟨task, ⟨armed, due⟩, -⟩ := upkept.mem_pending.1 member
  have queued : task.entry entry.key ∈ a.prune.queue := (upkept.edit a.edit_prune).queued armed
  cases front : a.prune.queue with
  | nil => simp [front] at queued
  | cons head rest =>
    obtain ⟨first, ⟨-, least⟩, place⟩ := upkept.first_front front
    have ahead : now.before first.nextRun = true := by
      have time : first.nextRun = head.fireAt := congrArg QueueEntry.fireAt place
      rw [time]
      exact later head (by simp [front])
    have after : now.before task.nextRun = true :=
      Instant.before_of_not_before ahead (least armed)
    simp [Instant.notAfter, after] at due

/-! ### The whole loop -/

section Turn

variable {a : Agenda} {o : Outlook} {entry : QueueEntry} {rest : List QueueEntry} {task : Task}
  {key : TaskKey} {t : Task}

theorem get?_turn_ne (other : key ≠ entry.key) :
    (a.turn o.next entry rest task).tasks.get? key = a.tasks.get? key := by
  rw [get?_turn, if_neg other]

/-- What a turn has armed lies after now. -/
theorem not_due_turn_self : ¬ (a.turn o.next entry rest task).Due o.now entry.key t := by
  rintro ⟨found, isDue⟩
  rw [get?_turn, if_pos rfl, Option.map_eq_some_iff] at found
  obtain ⟨nextRun, occurrence, rfl⟩ := found
  have after : o.now.before nextRun = true := o.later_of_toOption occurrence
  simp [Instant.notAfter, after] at isDue

/-- What is due after a turn was due before it. -/
theorem Due.of_turn (isDue : (a.turn o.next entry rest task).Due o.now key t) :
    key ≠ entry.key ∧ a.Due o.now key t := by
  have other : key ≠ entry.key := by
    rintro rfl
    exact not_due_turn_self isDue
  exact ⟨other, get?_turn_ne other ▸ isDue.1, isDue.2⟩

theorem Due.turn (isDue : a.Due o.now key t) (other : key ≠ entry.key) :
    (a.turn o.next entry rest task).Due o.now key t :=
  ⟨(get?_turn_ne other).trans isDue.1, isDue.2⟩

/-- A turn that does not crash leads on to the same tasks. -/
theorem Reached.of_turn (goes : crashes o.next task.schedule = false)
    (armed : a.tasks.get? entry.key = some task)
    (reached : (a.turn o.next entry rest task).Reached o key t) : a.Reached o key t := by
  refine ⟨(reached.due.of_turn).2, ?_⟩
  intro key' other otherDue before
  by_cases here : key' = entry.key
  · subst here
    obtain rfl := otherDue.eq_armed armed
    exact goes
  · exact reached.first (otherDue.turn here) before

theorem Reached.turn (reached : a.Reached o key t) (other : key ≠ entry.key) :
    (a.turn o.next entry rest task).Reached o key t :=
  ⟨reached.due.turn other, fun otherDue before => reached.first otherDue.of_turn.2 before⟩

/-- The task at the front is due, and no other one is due before it. -/
theorem Upkept.reached_front (upkept : a.Upkept) (front : a.prune.queue = entry :: rest)
    (due : o.now.before entry.fireAt = false) (armed : a.tasks.get? entry.key = some task)
    (same : task.generation = entry.generation) :
    a.Reached o entry.key task ∧ task.entry entry.key = entry ∧
      ∀ {key t}, a.Due o.now key t → key ≠ entry.key →
        entry.precedes (t.entry key) = true := by
  have sorted : (a.pending o.now).Pairwise fun e f => e.precedes f = true :=
    (upkept.sorted.filter _).filter _
  have split := upkept.pending_turn o front due armed same
  rw [split, List.pairwise_cons] at sorted
  have first : entry ∈ a.pending o.now := split ▸ List.mem_cons_self
  obtain ⟨t, isDue, own⟩ := upkept.mem_pending.1 first
  obtain rfl := isDue.eq_armed armed
  have behind {key t} (otherDue : a.Due o.now key t) (other : key ≠ entry.key) :
      entry.precedes (t.entry key) = true := by
    have member := upkept.entry_mem_pending otherDue
    rw [split] at member
    rcases List.mem_cons.1 member with here | later
    · exact absurd (congrArg QueueEntry.key here) other
    · exact sorted.1 _ later
  refine ⟨⟨isDue, ?_⟩, own, behind⟩
  intro key' other otherDue before
  rw [own] at before
  -- Nothing stands before the front, itself included.
  have circle : (other.entry key').precedes (other.entry key') = true := by
    by_cases here : key' = entry.key
    · subst here
      obtain rfl := otherDue.eq_armed armed
      rw [own] at before ⊢
      exact before
    · exact QueueEntry.precedes_trans before (behind otherDue here)
  rw [QueueEntry.precedes_irrefl] at circle
  cases circle

end Turn

/-- The loop answers unless the search for a due task crashes. -/
theorem Upkept.drain_eq_none_iff {a : Agenda} (upkept : a.Upkept) (o : Outlook)
    (due : List Automation) : (a.drain o due).1 = none ↔
      ∃ key task, a.Due o.now key task ∧ crashes o.next task.schedule = true := by
  refine drain_rule (o := o) (motive := fun a due answer => a.Upkept → (answer.1 = none ↔
    ∃ key task, a.Due o.now key task ∧ crashes o.next task.schedule = true)) ?_ ?_ ?_ a due upkept
  · intro a due later upkept
    constructor
    · intro never
      cases never
    · rintro ⟨key, task, isDue, -⟩
      have member := upkept.entry_mem_pending isDue
      rw [upkept.pending_eq_nil later] at member
      exact absurd member List.not_mem_nil
  · intro a due entry rest task front notLater armed same crashed upkept
    obtain ⟨reached, -, -⟩ := upkept.reached_front front notLater armed same
    exact ⟨fun _ => ⟨entry.key, task, reached.due, crashed⟩, fun _ => rfl⟩
  · intro a due entry rest task answer front notLater armed same goes ih upkept
    rw [ih (upkept.edits (upkept.edits_turn front armed o.next))]
    constructor
    · rintro ⟨key, t, isDue, crashed⟩
      exact ⟨key, t, isDue.of_turn.2, crashed⟩
    · rintro ⟨key, t, isDue, crashed⟩
      refine ⟨key, t, isDue.turn ?_, crashed⟩
      rintro rfl
      obtain rfl := isDue.eq_armed armed
      rw [goes] at crashed
      cases crashed

/-- The loop goes through the automations of the pending entries in their order. -/
theorem Upkept.drain_fst {a : Agenda} (upkept : a.Upkept) (o : Outlook) {due taken : List Automation}
    (answered : (a.drain o due).1 = some taken) :
    taken = (a.pending o.now).foldl (fun due entry => a.collect due entry.key.automation) due := by
  refine drain_rule (o := o) (motive := fun a due answer => a.Upkept → answer.1 = some taken →
    taken = (a.pending o.now).foldl (fun due entry => a.collect due entry.key.automation) due)
    ?_ ?_ ?_ a due upkept answered
  · intro a due later upkept answered
    rw [upkept.pending_eq_nil later]
    exact (Option.some.inj answered).symm
  · intro a due entry rest task _ _ _ _ _ _ never
    cases never
  · intro a due entry rest task answer front notLater armed same _ ih upkept answered
    have turned := upkept.edits (upkept.edits_turn front armed o.next)
    rw [ih turned answered, upkept.pending_turn o front notLater armed same]
    simp only [collect, automations_turn, List.foldl_cons]

/-- The loop leaves alone what it does not come to, and arms what it comes to for its next occurrence, as
far as there is one. -/
theorem Upkept.drain_tasks {a : Agenda} (upkept : a.Upkept) (o : Outlook) (due : List Automation) :
    (∀ {key}, (∀ task, ¬ a.Reached o key task) →
      (a.drain o due).2.tasks.get? key = a.tasks.get? key) ∧
    (∀ {key task}, a.Reached o key task → ∃ generation,
      (a.drain o due).2.tasks.get? key =
        (o.next task.schedule).toOption.map fun nextRun => { task with nextRun, generation }) := by
  -- The induction is on the turns of the loop. The task at the front is settled by its turn, and the
  -- others are as they were before it.
  refine drain_rule (o := o) (motive := fun a _ answer => a.Upkept →
    (∀ {key}, (∀ task, ¬ a.Reached o key task) →
      answer.2.tasks.get? key = a.tasks.get? key) ∧
    (∀ {key task}, a.Reached o key task → ∃ generation, answer.2.tasks.get? key =
      (o.next task.schedule).toOption.map fun nextRun => { task with nextRun, generation }))
    ?_ ?_ ?_ a due upkept
  · intro a due later upkept
    refine ⟨fun _ => rfl, ?_⟩
    intro key task reached
    have member := upkept.entry_mem_pending reached.due
    rw [upkept.pending_eq_nil later] at member
    exact absurd member List.not_mem_nil
  · intro a due entry rest task front notLater armed same crashed upkept
    obtain ⟨reached, own, behind⟩ := upkept.reached_front front notLater armed same
    constructor
    · intro key notReached
      refine get?_turn_ne ?_
      rintro rfl
      exact notReached task reached
    · intro key t reachedToo
      -- Behind a crash nothing is reached.
      have here : key = entry.key := by
        by_contra other
        have sound := reachedToo.first reached.due (own ▸ behind reachedToo.due other)
        rw [sound] at crashed
        cases crashed
      subst here
      obtain rfl := reachedToo.due.eq_armed armed
      exact ⟨a.generation + 1, by rw [get?_turn, if_pos rfl]⟩
  · intro a due entry rest task answer front notLater armed same goes ih upkept
    obtain ⟨untouched, renewed⟩ := ih (upkept.edits (upkept.edits_turn front armed o.next))
    obtain ⟨reached, -, -⟩ := upkept.reached_front front notLater armed same
    constructor
    · intro key notReached
      have other : key ≠ entry.key := by
        rintro rfl
        exact notReached task reached
      rw [untouched fun t there => notReached t (there.of_turn goes armed), get?_turn_ne other]
    · intro key t reachedToo
      by_cases here : key = entry.key
      · subst here
        obtain rfl := reachedToo.due.eq_armed armed
        refine ⟨a.generation + 1, ?_⟩
        rw [untouched fun t there => not_due_turn_self there.due, get?_turn, if_pos rfl]
      · exact renewed (reachedToo.turn here)

section Passed

variable {a : Agenda} (upkept : a.Upkept) (o : Outlook) (due : List Automation) {key : TaskKey}
include upkept

theorem Upkept.get?_drain_of_vacant (vacant : a.tasks.get? key = none) :
    (a.drain o due).2.tasks.get? key = none := by
  refine ((upkept.drain_tasks o due).1 fun task reached => ?_).trans vacant
  cases vacant.symm.trans reached.due.1

theorem Upkept.get?_drain_of_passed {task : Task} (armed : a.tasks.get? key = some task)
    (passed : ¬ a.Reached o key task) : (a.drain o due).2.tasks.get? key = some task := by
  refine ((upkept.drain_tasks o due).1 fun other reached => ?_).trans armed
  obtain rfl := reached.due.eq_armed armed
  exact passed reached

/-- Where nothing is due, the loop is over at once. -/
theorem Upkept.drain_of_calm (calm : ∀ key task, ¬ a.Due o.now key task) :
    (a.drain o due).1 = some due := by
  have nothing : a.pending o.now = [] := by
    rw [List.eq_nil_iff_forall_not_mem]
    intro entry member
    obtain ⟨task, isDue, -⟩ := upkept.mem_pending.1 member
    exact calm entry.key task isDue
  cases answered : (a.drain o due).1 with
  | none =>
    obtain ⟨key, task, isDue, -⟩ := (upkept.drain_eq_none_iff o due).1 answered
    exact absurd isDue (calm key task)
  | some taken =>
    rw [upkept.drain_fst o answered, nothing]
    rfl

end Passed

/-- When the loop answers, it has come to everything that was due. -/
theorem Upkept.reached_of_drain {a : Agenda} (upkept : a.Upkept) {o : Outlook}
    {due taken : List Automation} (answered : (a.drain o due).1 = some taken) {key : TaskKey}
    {task : Task} (isDue : a.Due o.now key task) : a.Reached o key task := by
  refine isDue.reached ?_
  intro key' other otherDue
  rw [← Bool.not_eq_true]
  intro crashed
  have lost := (upkept.drain_eq_none_iff o due).2 ⟨key', other, otherDue, crashed⟩
  rw [answered] at lost
  cases lost

/-- And nothing is due any more. -/
theorem Upkept.not_due_drain {a : Agenda} (upkept : a.Upkept) {o : Outlook}
    {due taken : List Automation} (answered : (a.drain o due).1 = some taken) (key : TaskKey)
    (task : Task) : ¬ (a.drain o due).2.Due o.now key task := by
  obtain ⟨untouched, renewed⟩ := upkept.drain_tasks o due
  rintro ⟨armed, isDue⟩
  -- A task that is due afterwards was due before and has a next run after now, or was not due before
  -- and is the same.
  by_cases formerly : ∃ t, a.Due o.now key t
  · obtain ⟨t, wasDue⟩ := formerly
    obtain ⟨generation, found⟩ := renewed (upkept.reached_of_drain answered wasDue)
    obtain ⟨nextRun, occurrence, rfl⟩ := Option.map_eq_some_iff.1 (found.symm.trans armed)
    have after := o.later_of_toOption occurrence
    simp [Instant.notAfter, after] at isDue
  · have idle : ∀ t, ¬ a.Due o.now key t := not_exists.1 formerly
    exact idle task ⟨(untouched fun t reached => idle t reached.due).symm.trans armed, isDue⟩

/-! ### The automations that are due -/

/-- The automations of a list of entries, each once, the one with the earliest entry first. -/
structure Gathered (a : Agenda) (entries : List QueueEntry) (due : List Automation) : Prop where
  known : ∀ x ∈ due, a.automations.get? x.id = some x
  mem_iff : ∀ id, id ∈ due.map Automation.id ↔ ∃ e ∈ entries, e.key.automation = id
  nodup : (due.map Automation.id).Nodup
  ordered : due.Pairwise fun x y => ∃ e ∈ entries, e.key.automation = x.id ∧
    ∀ f ∈ entries, f.key.automation = y.id → e.precedes f = true

theorem Gathered.collect {a : Agenda} {entries : List QueueEntry} {due : List Automation}
    (gathered : a.Gathered entries due) {entry : QueueEntry}
    (known : a.Knows entry.key.automation) (last : ∀ e ∈ entries, e.precedes entry = true) :
    a.Gathered (entries ++ [entry]) (a.collect due entry.key.automation) := by
  obtain ⟨automation, found, named⟩ := known
  -- What is in order among the entries so far stays in order when one comes after all of them.
  have ordered : due.Pairwise fun x y => ∃ e ∈ entries ++ [entry], e.key.automation = x.id ∧
      ∀ f ∈ entries ++ [entry], f.key.automation = y.id → e.precedes f = true := by
    refine gathered.ordered.imp ?_
    rintro x y ⟨e, member, owner, first⟩
    refine ⟨e, List.mem_append_left _ member, owner, ?_⟩
    intro f among
    rcases List.mem_append.1 among with earlier | new
    · exact first f earlier
    · intro _
      rw [List.mem_singleton.1 new]
      exact last e member
  unfold Agenda.collect
  -- An automation that is there already stays where it is: its first entry came before this one.
  by_cases already : entry.key.automation ∈ due.map Automation.id
  · rw [if_pos (Automation.any_id_iff.2 already)]
    refine ⟨gathered.known, ?_, gathered.nodup, ordered⟩
    intro id
    rw [gathered.mem_iff]
    constructor
    · rintro ⟨e, member, owner⟩
      exact ⟨e, List.mem_append_left _ member, owner⟩
    · rintro ⟨e, among, owner⟩
      rcases List.mem_append.1 among with earlier | new
      · exact ⟨e, earlier, owner⟩
      · rw [← owner, List.mem_singleton.1 new]
        exact (gathered.mem_iff _).1 already
  · rw [if_neg (mt Automation.any_id_iff.1 already), found]
    refine ⟨?_, ?_, ?_, ?_⟩
    · intro x member
      rcases List.mem_append.1 member with earlier | new
      · exact gathered.known x earlier
      · rw [List.mem_singleton.1 new, named, found]
    · intro id
      simp only [List.map_append, List.mem_append, gathered.mem_iff, List.map_cons, List.map_nil,
        named, List.mem_singleton, or_and_right, exists_or, exists_eq_left, @eq_comm _ id]
    · rw [List.map_append, List.map_singleton, named, ← List.concat_eq_append]
      exact List.Nodup.concat already gathered.nodup
    · refine List.pairwise_append.2 ⟨ordered, List.pairwise_singleton _ _, ?_⟩
      intro x member y single
      obtain ⟨e, among, owner⟩ := (gathered.mem_iff x.id).1 (List.mem_map_of_mem member)
      refine ⟨e, List.mem_append_left _ among, owner, ?_⟩
      intro f amongAll ownerOfLast
      rw [List.mem_singleton.1 single, named] at ownerOfLast
      rcases List.mem_append.1 amongAll with earlier | new
      · exact absurd ((gathered.mem_iff _).2 ⟨f, earlier, ownerOfLast⟩) already
      · rw [List.mem_singleton.1 new]
        exact last e among

theorem Gathered.foldl {a : Agenda} {entries due} (gathered : a.Gathered entries due)
    (more : List QueueEntry) (known : ∀ e ∈ more, a.Knows e.key.automation)
    (sorted : (entries ++ more).Pairwise fun e f => e.precedes f = true) :
    a.Gathered (entries ++ more)
      (more.foldl (fun due entry => a.collect due entry.key.automation) due) := by
  induction more generalizing entries due with
  | nil => simpa using gathered
  | cons entry rest ih =>
    obtain ⟨first, others⟩ := List.forall_mem_cons.1 known
    rw [List.append_cons] at sorted ⊢
    have sofar := (List.pairwise_append.1 sorted).1
    have last : ∀ e ∈ entries, e.precedes entry = true := fun e member =>
      (List.pairwise_append.1 sofar).2.2 e member entry List.mem_cons_self
    exact ih (gathered.collect first last) others sorted

theorem Upkept.gathered_pending {a : Agenda} (upkept : a.Upkept) (now : Instant) :
    a.Gathered (a.pending now)
      ((a.pending now).foldl (fun due entry => a.collect due entry.key.automation) []) := by
  have known : ∀ e ∈ a.pending now, a.Knows e.key.automation := by
    intro e member
    obtain ⟨task, ⟨armed, -⟩, -⟩ := upkept.mem_pending.1 member
    exact upkept.known armed
  have sorted : (a.pending now).Pairwise fun e f => e.precedes f = true :=
    (upkept.sorted.filter _).filter _
  have none : a.Gathered [] [] := ⟨nofun, by simp, .nil, .nil⟩
  exact none.foldl (a.pending now) known sorted

end Agenda

namespace Scheduler

open Agenda

/-- What is taken is gathered from the tasks that are due. -/
theorem gathered_takeDue {s : Scheduler} (upkept : s.agenda.Upkept) {r : Reading}
    {taken : List Automation} (answered : (s.takeDue r).1 = some taken) :
    s.agenda.Gathered (s.agenda.pending r.now) taken := by
  rw [upkept.drain_fst r.outlook answered]
  exact upkept.gathered_pending r.now

/-- Unless the search for a due task crashes, what is due is taken: every automation with a due task, once,
in the order of the first due tasks, and of two at the same time in the order in which they were armed. A
due task is armed for its next occurrence, if there is one; no other task is touched, and then nothing is
due any more. If a search crashes nothing is answered, and of the due tasks those that have been reached
by then are armed anew or gone. -/
theorem takeDue_exact {s : Scheduler} (reachable : s.Reachable) (r : Reading) :
    ((s.takeDue r).1 = none ↔
      ∃ key task, s.agenda.Due r.now key task ∧ crashes r.next task.schedule = true) ∧
    (∀ {key task}, s.agenda.Reached r.outlook key task → ∃ generation,
      (s.takeDue r).2.agenda.tasks.get? key =
        (r.next task.schedule).toOption.map fun nextRun => { task with nextRun, generation }) ∧
    (∀ {key}, (∀ task, ¬ s.agenda.Reached r.outlook key task) →
      (s.takeDue r).2.agenda.tasks.get? key = s.agenda.tasks.get? key) ∧
    ∀ {taken}, (s.takeDue r).1 = some taken →
      (∀ id, id ∈ taken.map Automation.id ↔
        ∃ key task, s.agenda.Due r.now key task ∧ key.automation = id) ∧
      (∀ x ∈ taken, s.agenda.automations.get? x.id = some x) ∧
      (taken.map Automation.id).Nodup ∧
      (taken.Pairwise fun x y =>
        ∃ key task, s.agenda.Due r.now key task ∧ key.automation = x.id ∧
          ∀ {key' other}, s.agenda.Due r.now key' other → key'.automation = y.id →
            (task.entry key).precedes (other.entry key') = true) ∧
      (∀ {key task}, s.agenda.Due r.now key task ↔ s.agenda.Reached r.outlook key task) ∧
      (∀ key task, ¬ (s.takeDue r).2.agenda.Due r.now key task) ∧
      ((s.takeDue r).2.takeDue r).1 = some [] := by
  have upkept := reachable.upkept
  have kept : (s.takeDue r).2.agenda.Upkept := upkept.edits (upkept.edits_drain r.outlook [])
  obtain ⟨untouched, renewed⟩ := upkept.drain_tasks r.outlook []
  refine ⟨upkept.drain_eq_none_iff r.outlook [], renewed, untouched, ?_⟩
  intro taken answered
  have gathered := gathered_takeDue upkept answered
  have settled := upkept.not_due_drain answered
  refine ⟨?_, gathered.known, gathered.nodup, ?_,
    ⟨upkept.reached_of_drain answered, Reached.due⟩, settled, kept.drain_of_calm _ _ settled⟩
  · intro id
    rw [gathered.mem_iff]
    constructor
    · rintro ⟨entry, member, owner⟩
      obtain ⟨task, due, -⟩ := upkept.mem_pending.1 member
      exact ⟨entry.key, task, due, owner⟩
    · rintro ⟨key, task, due, owner⟩
      exact ⟨task.entry key, upkept.entry_mem_pending due, owner⟩
  · refine gathered.ordered.imp ?_
    rintro x y ⟨entry, member, owner, first⟩
    obtain ⟨task, due, own⟩ := upkept.mem_pending.1 member
    refine ⟨entry.key, task, due, owner, ?_⟩
    intro key other otherDue otherOwner
    rw [own]
    exact first _ (upkept.entry_mem_pending otherDue) otherOwner

/-- Brews at a quarter to seven. -/
def coffee : Automation :=
  { id := ⟨⟨2⟩⟩, name := "coffee", enabled := true, triggers := [.time "06:45" none], actions := [] }

/-- Before dawn, with the coffee and the alarm set in this order. -/
def quietHouse : Scheduler :=
  ((empty.schedule firstMidnight coffee).2.schedule firstMidnight alarm).2

def firstEight : Reading := ⟨⟨28800, 0, Instant.zero_nanos_lt⟩, .universal, none⟩

/-- At eight the alarm is due twice, and once before the coffee; each is taken once. -/
theorem takeDue_quietHouse :
    quietHouse.Reachable ∧
    ∃ taken, (quietHouse.takeDue firstEight).1 = some taken ∧
      taken.map Automation.name = ["alarm", "coffee"] ∧ (taken.map Automation.id).Nodup ∧
      (∀ key task, ¬ (quietHouse.takeDue firstEight).2.agenda.Due firstEight.now key task) ∧
      ((quietHouse.takeDue firstEight).2.takeDue firstEight).1 = some [] := by
  have reachable : quietHouse.Reachable :=
    .tail (.single (.schedule empty firstMidnight coffee)) (.schedule _ firstMidnight alarm)
  have names : (quietHouse.takeDue firstEight).1.map (List.map Automation.name) =
      some ["alarm", "coffee"] := by decide +kernel
  obtain ⟨taken, answered, named⟩ := Option.map_eq_some_iff.1 names
  obtain ⟨-, -, -, exact⟩ := takeDue_exact reachable firstEight
  obtain ⟨-, -, nodup, -, -, settled, nothing⟩ := exact answered
  exact ⟨reachable, taken, answered, named, nodup, settled, nothing⟩

/-- Its clock is put forward over the last hour of the calendar. -/
def lastLeap : Zone := ⟨0, [(⟨8210266873200, 0, Instant.zero_nanos_lt⟩, 60)]⟩

/-- At noon on the day before the last one. -/
def lastNoonButOne : Reading := ⟨⟨8210266747200, 0, Instant.zero_nanos_lt⟩, lastLeap, none⟩

/-- At noon on the last day. -/
def lastNoon : Reading := ⟨⟨8210266833600, 0, Instant.zero_nanos_lt⟩, lastLeap, none⟩

/-- Begins at half past eleven in the evening. -/
def vigil : Automation :=
  { id := ⟨⟨3⟩⟩, name := "vigil", enabled := true, triggers := [.time "23:30" none], actions := [] }

/-- On the last day half past eleven is skipped, and an hour later there is no day any more. The vigil of
the night before is due, but the search for the next one crashes, and its task is lost. -/
theorem takeDue_crashes_lastNoon :
    (empty.schedule lastNoonButOne vigil).2.Reachable ∧
    ((empty.schedule lastNoonButOne vigil).2.agenda.tasks.get? ⟨vigil.id, 0⟩).any
      (fun task => task.nextRun.notAfter lastNoon.now) = true ∧
    ((empty.schedule lastNoonButOne vigil).2.takeDue lastNoon).1.isNone = true ∧
    ((empty.schedule lastNoonButOne vigil).2.takeDue lastNoon).2.agenda.tasks.size = 0 :=
  ⟨.single (.schedule empty lastNoonButOne vigil), by decide +kernel, by decide +kernel,
    by decide +kernel⟩

end Scheduler

end Hearth

import Mathlib.Data.List.Nodup
import Mathlib.Logic.Relation
import Hearth.Scheduler.Agenda

/-!
# Hearth.Proofs.Scheduler.Upkeep

How the queue keeps up with the armed tasks, although entries are left behind in it.

## Main definitions

`Agenda.Edit`: the four ways in which an agenda is changed. Whatever is done to an agenda is a
sequence of edits.
`Agenda.Upkept`: every armed task stands in the queue once, and no two entries have the same
generation.
`Agenda.Outlives`: what is armed later was armed before, or under a generation of its own.

## Main results

`Agenda.Upkept.edits`: edits keep the queue in step with the tasks.
`Agenda.Upkept.stale_edits`: an entry that has lost its task never gets one again.
-/

namespace Hearth

/-- The entry under which a task is queued. -/
def Task.entry (key : TaskKey) (t : Task) : QueueEntry := ⟨t.nextRun, t.generation, key⟩

namespace QueueEntry

theorem precedes_trans {a b c : QueueEntry} (first : a.precedes b = true)
    (second : b.precedes c = true) : a.precedes c = true := by
  simp only [precedes, Bool.or_eq_true, Bool.and_eq_true, decide_eq_true_eq, beq_iff_eq] at *
  -- The earlier time decides; only among equal times do the generations count.
  rcases first with first | ⟨same, first⟩
  · rcases second with second | ⟨same', second⟩
    · exact .inl (Instant.before_trans first second)
    · exact .inl (same' ▸ first)
  · rcases second with second | ⟨same', second⟩
    · exact .inl (same ▸ second)
    · exact .inr ⟨same.trans same', by omega⟩

theorem precedes_total {a b : QueueEntry} (apart : a.generation ≠ b.generation)
    (notFirst : a.precedes b = false) : b.precedes a = true := by
  simp only [precedes, Bool.or_eq_false_iff, Bool.and_eq_false_iff, Bool.or_eq_true,
    Bool.and_eq_true, decide_eq_true_eq, decide_eq_false_iff_not, beq_iff_eq,
    beq_eq_false_iff_ne] at *
  obtain ⟨early, late⟩ := notFirst
  cases later : b.fireAt.before a.fireAt with
  | true => exact .inl rfl
  | false =>
    have same := Instant.eq_of_not_before early later
    rcases late with different | below
    · exact absurd same different
    · exact .inr ⟨same.symm, by omega⟩

theorem not_before_of_precedes {a b : QueueEntry} (first : a.precedes b = true) :
    b.fireAt.before a.fireAt = false := by
  rw [Bool.eq_false_iff]
  intro earlier
  simp only [precedes, Bool.or_eq_true, Bool.and_eq_true, beq_iff_eq] at first
  rcases first with later | ⟨same, -⟩
  · have circle := Instant.before_trans earlier later
    simp [Instant.before_irrefl] at circle
  · simp [same, Instant.before_irrefl] at earlier

theorem mem_insertInto {a b : QueueEntry} {queue : List QueueEntry} :
    b ∈ a.insertInto queue ↔ b = a ∨ b ∈ queue := by
  rw [(a.insertInto_perm queue).mem_iff, List.mem_cons]

theorem pairwise_insertInto {a : QueueEntry} {queue : List QueueEntry}
    (apart : ∀ b ∈ queue, a.generation ≠ b.generation)
    (sorted : queue.Pairwise fun b c => b.precedes c = true) :
    (a.insertInto queue).Pairwise fun b c => b.precedes c = true := by
  induction queue with
  | nil => simp [insertInto]
  | cons b rest ih =>
    rw [List.pairwise_cons] at sorted
    unfold insertInto
    cases first : a.precedes b with
    | true =>
      refine List.pairwise_cons.2 ⟨?_, List.pairwise_cons.2 sorted⟩
      intro c member
      rcases List.mem_cons.1 member with rfl | later
      · exact first
      · exact precedes_trans first (sorted.1 c later)
    | false =>
      have behind : b.precedes a = true := precedes_total (apart b List.mem_cons_self) first
      refine List.pairwise_cons.2 ⟨?_, ih ?_ sorted.2⟩
      · intro c member
        rcases mem_insertInto.1 member with rfl | later
        · exact behind
        · exact sorted.1 c later
      · intro c member
        exact apart c (List.mem_cons_of_mem _ member)

end QueueEntry

namespace Agenda

theorem isCurrent_eq_true_iff {a : Agenda} {entry : QueueEntry} :
    a.isCurrent entry = true ↔
      ∃ task, a.tasks.get? entry.key = some task ∧ task.generation = entry.generation := by
  unfold isCurrent
  cases a.tasks.get? entry.key <;> simp

/-! ### Edits -/

/-- An automation is known under its identifier. -/
def Knows (a : Agenda) (id : AutomationId) : Prop :=
  ∃ automation, a.automations.get? id = some automation ∧ automation.id = id

/-- One change of an agenda: a task is armed, some tasks are disarmed, other automations become
known, or entries of the queue are dropped. -/
inductive Edit : Agenda → Agenda → Prop
  | arm (a : Agenda) {key : TaskKey} (known : a.Knows key.automation) (trigger : Trigger)
      (schedule : Schedule) (nextRun : Instant) : Edit a (a.arm key trigger schedule nextRun)
  | disarm (a : Agenda) {tasks : Table TaskKey Task} (nodup : tasks.keys.Nodup)
      (kept : ∀ {key task}, tasks.get? key = some task → a.tasks.get? key = some task) :
      Edit a { a with tasks }
  | know (a : Agenda) {automations : Table AutomationId Automation}
      (known : ∀ {key task}, a.tasks.get? key = some task →
        { a with automations }.Knows key.automation) :
      Edit a { a with automations }
  | drop (a : Agenda) {queue : List QueueEntry} (sublist : queue.Sublist a.queue)
      (current : ∀ entry ∈ a.queue, a.isCurrent entry = true → entry ∈ queue) :
      Edit a { a with queue }

/-- Any number of changes. -/
abbrev Edits : Agenda → Agenda → Prop := Relation.ReflTransGen Edit

/-! ### What edits keep -/

/-- The queue is in order and in step with the tasks, and every task belongs to a known
automation. -/
structure Upkept (a : Agenda) : Prop where
  sorted : a.queue.Pairwise fun b c => b.precedes c = true
  nodup_generations : (a.queue.map QueueEntry.generation).Nodup
  generation_le : ∀ entry ∈ a.queue, entry.generation ≤ a.generation
  nodup_keys : a.tasks.keys.Nodup
  queued : ∀ {key task}, a.tasks.get? key = some task → task.entry key ∈ a.queue
  known : ∀ {key task}, a.tasks.get? key = some task → a.Knows key.automation

theorem Upkept.empty : Agenda.empty.Upkept where
  sorted := .nil
  nodup_generations := .nil
  generation_le := by simp [Agenda.empty]
  nodup_keys := .nil
  queued := nofun
  known := nofun

theorem Upkept.arm {a : Agenda} (upkept : a.Upkept) {key : TaskKey}
    (known : a.Knows key.automation) (trigger : Trigger) (schedule : Schedule)
    (nextRun : Instant) : (a.arm key trigger schedule nextRun).Upkept := by
  -- The new generation is above all that are in the queue; everything else follows from that.
  have newest : ∀ entry ∈ a.queue, a.generation + 1 ≠ entry.generation := by
    intro entry member
    have bound := upkept.generation_le entry member
    omega
  refine ⟨?_, ?_, ?_, ?_, ?_, ?_⟩
  · exact QueueEntry.pairwise_insertInto newest upkept.sorted
  · refine ((QueueEntry.insertInto_perm _ a.queue).map _).nodup_iff.2 ?_
    refine List.nodup_cons.2 ⟨?_, upkept.nodup_generations⟩
    intro member
    obtain ⟨entry, queued, same⟩ := List.mem_map.1 member
    exact newest entry queued same.symm
  · intro entry member
    rcases QueueEntry.mem_insertInto.1 member with rfl | queued
    · exact Nat.le_refl _
    · exact Nat.le_succ_of_le (upkept.generation_le entry queued)
  · exact Table.nodup_keys_insert upkept.nodup_keys key _
  · intro other task armed
    simp only [Agenda.arm, Table.get?_insert] at armed
    rw [Agenda.arm, QueueEntry.mem_insertInto]
    split at armed
    · next same =>
      subst same
      cases armed
      exact .inl rfl
    · exact .inr (upkept.queued armed)
  · intro other task armed
    simp only [Agenda.arm, Table.get?_insert] at armed
    split at armed
    · next same => exact same ▸ known
    · exact upkept.known armed

theorem Upkept.edit {a b : Agenda} (upkept : a.Upkept) (edit : Edit a b) : b.Upkept := by
  cases edit with
  | arm known trigger schedule nextRun => exact upkept.arm known trigger schedule nextRun
  | disarm nodup kept =>
    -- Fewer tasks ask less of the queue, so entries may be left behind.
    exact { upkept with
      nodup_keys := nodup
      queued := fun armed => upkept.queued (kept armed)
      known := fun armed => upkept.known (kept armed) }
  | know known => exact { upkept with known := known }
  | drop sublist current =>
    -- Only entries without a task may go.
    refine { upkept with
      sorted := upkept.sorted.sublist sublist
      nodup_generations := upkept.nodup_generations.sublist (sublist.map _)
      generation_le := fun entry member => upkept.generation_le entry (sublist.mem member)
      queued := ?_ }
    intro key task armed
    exact current _ (upkept.queued armed) (isCurrent_eq_true_iff.2 ⟨task, armed, rfl⟩)

theorem Upkept.edits {a b : Agenda} (upkept : a.Upkept) (edits : Edits a b) : b.Upkept := by
  induction edits with
  | refl => exact upkept
  | tail _ edit ih => exact ih.edit edit

/-- What is armed in `b` is armed in `a`, or was armed after `a`. -/
structure Outlives (a b : Agenda) : Prop where
  generation_le : a.generation ≤ b.generation
  armed : ∀ {key task}, b.tasks.get? key = some task →
    a.tasks.get? key = some task ∨ a.generation < task.generation

theorem Outlives.refl (a : Agenda) : a.Outlives a := ⟨Nat.le_refl _, .inl⟩

theorem Outlives.trans {a b c : Agenda} (first : a.Outlives b) (second : b.Outlives c) :
    a.Outlives c := by
  refine ⟨Nat.le_trans first.generation_le second.generation_le, ?_⟩
  intro key task armed
  rcases second.armed armed with earlier | newer
  · exact first.armed earlier
  · exact .inr (Nat.lt_of_le_of_lt first.generation_le newer)

theorem Outlives.edit {a b : Agenda} (edit : Edit a b) : a.Outlives b := by
  cases edit with
  | arm known trigger schedule nextRun =>
    refine ⟨Nat.le_succ _, ?_⟩
    intro key task armed
    simp only [Agenda.arm, Table.get?_insert] at armed
    split at armed
    · cases armed
      exact .inr (Nat.lt_succ_self _)
    · exact .inl armed
  | disarm nodup kept => exact ⟨Nat.le_refl _, fun armed => .inl (kept armed)⟩
  | know known => exact ⟨Nat.le_refl _, .inl⟩
  | drop sublist current => exact ⟨Nat.le_refl _, .inl⟩

theorem Outlives.edits {a b : Agenda} (edits : Edits a b) : a.Outlives b := by
  induction edits with
  | refl => exact .refl a
  | tail _ edit ih => exact ih.trans (.edit edit)

/-! ### Entries and their tasks -/

/-- An entry of the queue that is current is the one of its task. -/
theorem Upkept.entry_eq {a : Agenda} (upkept : a.Upkept) {entry : QueueEntry} {task : Task}
    (member : entry ∈ a.queue) (armed : a.tasks.get? entry.key = some task)
    (same : task.generation = entry.generation) : entry = task.entry entry.key :=
  List.inj_on_of_nodup_map upkept.nodup_generations member (upkept.queued armed) same.symm

/-- An entry that has lost its task never gets one again. -/
theorem Upkept.stale_edits {a b : Agenda} (upkept : a.Upkept) (edits : Edits a b)
    {entry : QueueEntry} (member : entry ∈ a.queue) (stale : a.isCurrent entry = false) :
    b.isCurrent entry = false := by
  -- A task armed since then has a generation above that of the entry, and one armed before then had
  -- the entry already.
  rw [Bool.eq_false_iff] at stale ⊢
  intro current
  obtain ⟨task, armed, same⟩ := isCurrent_eq_true_iff.1 current
  rcases (Outlives.edits edits).armed armed with earlier | newer
  · exact stale (isCurrent_eq_true_iff.2 ⟨task, earlier, same⟩)
  · have bound := upkept.generation_le entry member
    omega

end Agenda

end Hearth

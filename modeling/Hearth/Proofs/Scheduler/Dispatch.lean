import Hearth.Proofs.Process.Conduct
import Hearth.Proofs.Scheduler.Operations

/-!
# Hearth.Proofs.Scheduler.Dispatch

The loop that runs what is due, among others who change what is armed while it sleeps.

## Main definitions

`SchedulerHost.Round`: one round of the loop, with any of its branches that is ready.
`SchedulerHost.Moves`: one thing that happens in a house: a round, a run that goes on, an operation, or
a millisecond that passes.
`SchedulerHost.Watchful`: the dispatcher looks again before the first task is due.

## Main results

`SchedulerHost.Round.due`: what a round starts is due.
`SchedulerHost.Kept.moves`: whatever happens, the dispatcher stays watchful.
`SchedulerHost.Kept.not_due`: when all is quiet and the dispatcher loops, nothing is due.
`SchedulerHost.Kept.loops_or_crashes`: it loops until a search crashes.
-/

namespace Hearth

namespace Scheduler

variable {r : Reading} {s t : Scheduler}

/-- The time until the next run is that until a first task, if there is a task. -/
theorem timeUntilNext_spec (upkept : s.agenda.Upkept) (r : Reading) :
    ((s.timeUntilNext r).1 = none ∧ ∀ key, s.agenda.tasks.get? key = none) ∨
    ∃ key task, s.agenda.First key task ∧
      (s.timeUntilNext r).1 = some ⟨(task.nextRun.since r.now).toNat⟩ := by
  cases front : s.agenda.prune.queue with
  | nil =>
    refine .inl ⟨by simp [timeUntilNext, Agenda.earliest?, front], ?_⟩
    exact (Table.entries_eq_nil_iff _).1 (upkept.prune_queue_eq_nil_iff.1 front)
  | cons entry rest =>
    obtain ⟨task, first, own⟩ := upkept.first_front front
    have time : entry.fireAt = task.nextRun := (congrArg QueueEntry.fireAt own).symm
    exact .inr ⟨_, task, first, by simp [timeUntilNext, Agenda.earliest?, front, time]⟩

/-- What is taken is due. -/
theorem due_of_mem_takeDue (upkept : s.agenda.Upkept) {taken : List Automation}
    (answered : (s.takeDue r).1 = some taken) {a : Automation} (member : a ∈ taken) :
    s.agenda.automations.get? a.id = some a ∧
    ∃ key task, s.agenda.Due r.now key task ∧ key.automation = a.id := by
  have gathered := gathered_takeDue upkept answered
  refine ⟨gathered.known a member, ?_⟩
  obtain ⟨entry, pending, owner⟩ := (gathered.mem_iff a.id).1 (List.mem_map_of_mem member)
  obtain ⟨task, due, -⟩ := upkept.mem_pending.1 pending
  exact ⟨entry.key, task, due, owner⟩

theorem takeDue_rest (s : Scheduler) (r : Reading) :
    (s.takeDue r).2.dispatcher = s.dispatcher ∧ (s.takeDue r).2.changed = s.changed := by
  unfold takeDue
  generalize s.agenda.takeDue r.outlook = taken
  exact ⟨rfl, rfl⟩

/-- Nothing is due once it has been taken. -/
theorem not_due_takeDue (upkept : s.agenda.Upkept) (answered : (s.takeDue r).1 ≠ none)
    {key : TaskKey} {task : Task} : ¬ (s.takeDue r).2.agenda.Due r.now key task := by
  obtain ⟨taken, answer⟩ := Option.ne_none_iff_exists'.1 answered
  exact upkept.not_due_drain answer key task

/-- While nothing is due, a wait takes some time. In a leap second it may take none. -/
theorem waitMillis_pos (upkept : s.agenda.Upkept) (onSeconds : s.agenda.OnSeconds)
    (clear : ∀ {key task}, ¬ s.agenda.Due r.now key task) (outside : r.now.isInLeapSecond = false)
    {wait : Duration} (found : (s.timeUntilNext r).1 = some wait) : 0 < wait.waitMillis := by
  rcases timeUntilNext_spec upkept r with ⟨none, -⟩ | ⟨key, first, foremost, answer⟩
  · simp [none] at found
  · obtain rfl := Option.some.inj (answer.symm.trans found)
    have whole := Agenda.OnSeconds.of_task onSeconds foremost.armed
    have ahead : r.now.before first.nextRun = true := by
      have notDue := fun due => clear ⟨foremost.armed, due⟩
      simpa [Instant.notAfter] using notDue
    -- The first task is ahead, and it is on a whole second, so the distance to it is not nothing.
    have some := Instant.since_pos whole outside ahead
    exact Duration.waitMillis_pos (Int.lt_toNat.2 some)

/-- How much a dispatcher can do at an instant: a look at the wall clock counts for four, as both other
branches may be ready after it, a change counts for two, and a sleep that has ended for one. -/
def ready (now : Nat) (s : Scheduler) : Nat :=
  match s.dispatcher with
  | none => 0
  | some d =>
    (if d.nextBeat ≤ now then 4 else 0) + (if s.changed then 2 else 0) +
      (if d.wakeAt.any (· ≤ now) then 1 else 0)

end Scheduler

namespace SchedulerHost

variable {σ : Type} (host : SchedulerHost σ)

/-! ### What happens in a house -/

/-- Others use the operations of the scheduler, at the reading that the wall clock has, and leave the
clock alone. What they do apart from that is their own affair. -/
structure Operates (now : Nat) (s s' : σ) : Prop where
  clock : host.clock s' = host.clock s
  scheduler : Scheduler.Operations (host.reading now s) (host.part.get s) (host.part.get s')

/-- Surroundings in which that holds of runs and of those who are told about them. -/
structure Steady : Prop where
  clock_set : ∀ scheduler s, host.clock (host.part.set scheduler s) = host.clock s
  publish : ∀ notice now s, host.Operates now s (host.publish notice now s)
  run : ∀ a, (host.run a).Minds host.Operates

/-- One round of the dispatcher: it takes any branch that is ready, whichever that is, and falls asleep
again, or comes to its end where a search crashes. -/
inductive Round (now : Nat) (s : σ) : σ → List (Process σ Unit) → Prop
  | woken {d : Dispatcher} (loops : (host.part.get s).dispatcher = some d)
      (changed : (host.part.get s).changed = true) :
      Round now s
        (host.fallAsleep now (host.part.modify (fun s => { s with changed := false }) s)) []
  | slept {d : Dispatcher} {instant : Nat} (loops : (host.part.get s).dispatcher = some d)
      (asleep : d.wakeAt = some instant) (past : instant ≤ now) {due : List Automation}
      (answered : (host.takeDue now s).1 = some due) :
      Round now s (host.fallAsleep now (host.takeDue now s).2)
        (due.map fun a => (host.execute "schedule" a).bind fun _ => .done ())
  | lost {d : Dispatcher} {instant : Nat} (loops : (host.part.get s).dispatcher = some d)
      (asleep : d.wakeAt = some instant) (past : instant ≤ now)
      (crashed : (host.takeDue now s).1 = none) :
      Round now s (host.stopDispatcher (host.takeDue now s).2) []
  | beat {d : Dispatcher} (loops : (host.part.get s).dispatcher = some d)
      (past : d.nextBeat ≤ now)
      (answered : (host.checkDrift (.ofMillis now) now s).1.isSome = true) :
      Round now s
        (host.fallAsleep now (host.part.modify (fun scheduler =>
          { scheduler with
            dispatcher := some { d with nextBeat := now + host.config.heartbeat.millisUp } })
          (host.checkDrift (.ofMillis now) now s).2)) []
  | missed {d : Dispatcher} (loops : (host.part.get s).dispatcher = some d)
      (past : d.nextBeat ≤ now) (crashed : (host.checkDrift (.ofMillis now) now s).1 = none) :
      Round now s (host.stopDispatcher (host.checkDrift (.ofMillis now) now s).2) []

/-- One thing that happens: the dispatcher makes a round, a job is carried on, others use the scheduler
or begin a job of their own, or a millisecond passes. It passes only when nothing can be carried on. -/
inductive Moves (t : Timeline σ) : Timeline σ → Prop
  | round {s : σ} {started : List (Process σ Unit)} (round : host.Round t.now t.state s started) :
      Moves t { t with state := s, jobs := t.jobs ++ started }
  | goOn {job : Process σ Unit} {others jobs : List (Process σ Unit)}
      (running : t.jobs.Perm (job :: others))
      (left : jobs.Perm ((if (job.poll t.now t.state).left.answer?.isSome then []
        else [(job.poll t.now t.state).left]) ++ others ++ (job.poll t.now t.state).started)) :
      Moves t { t with state := (job.poll t.now t.state).state, jobs }
  | operate {s : σ} (operates : host.Operates t.now t.state s) : Moves t { t with state := s }
  | begin {job : Process σ Unit} (minds : job.Minds host.Operates) :
      Moves t { t with jobs := t.jobs ++ [job] }
  | pass (quiet : t.isQuiet = true) : Moves t { t with now := t.now + 1 }

/-- A house whose dispatcher has just been started. -/
def begun (now : Nat) (s : σ) : Timeline σ :=
  { now, state := host.startDispatcher now s, jobs := [], services := [host.dispatcher] }

variable {host} {now : Nat} {s s' : σ}

theorem Operates.refl (now : Nat) (s : σ) : host.Operates now s s := ⟨rfl, .refl⟩

theorem Operates.trans {s'' : σ} (first : host.Operates now s s')
    (second : host.Operates now s' s'') : host.Operates now s s'' := by
  -- The clock has been left alone, so both read the same time.
  have same : host.reading now s' = host.reading now s := by
    rw [reading, reading, first.clock]
  refine ⟨second.clock.trans first.clock, first.scheduler.trans ?_⟩
  rw [← same]
  exact second.scheduler

theorem Operates.of_reflTransGen (operates : Relation.ReflTransGen (host.Operates now) s s') :
    host.Operates now s s' := by
  induction operates with
  | refl => exact .refl now s
  | tail _ last ih => exact ih.trans last

/-- The dispatcher has something to do when one of its branches is ready. -/
theorem isDue_dispatcher (now : Nat) (s : σ) :
    Timeline.Service.isDue host.dispatcher now s = true ↔
    ∃ d, (host.part.get s).dispatcher = some d ∧
      ((host.part.get s).changed = true ∨ (∃ instant, d.wakeAt = some instant ∧ instant ≤ now) ∨
        d.nextBeat ≤ now) := by
  unfold Timeline.Service.isDue
  simp only [dispatcher, dispatcherDeadline?]
  cases loops : (host.part.get s).dispatcher with
  | none => simp
  | some d =>
    cases changed : (host.part.get s).changed with
    | true => simp
    | false =>
      cases asleep : d.wakeAt with
      | none => simp [Process.earlier, asleep]
      | some instant =>
        simp only [Process.earlier, asleep, decide_eq_true_eq, Option.some.injEq, exists_eq_left',
          Bool.false_eq_true, ↓reduceIte, false_or]
        omega

/-- The dispatcher makes the first of its branches that are ready. -/
theorem round_dispatch (due : Timeline.Service.isDue host.dispatcher now s = true) :
    host.Round now s (host.dispatch now s).1 (host.dispatch now s).2 := by
  obtain ⟨d, loops, somehow⟩ := (isDue_dispatcher now s).1 due
  unfold dispatch
  simp only [loops]
  split
  · next changed => exact .woken loops changed
  · next still =>
    split
    · next past =>
      obtain ⟨instant, asleep, past⟩ := Option.map_eq_some_iff.1 past
      have slept {due : List Automation} (answered : (host.takeDue now s).1 = some due) :=
        Round.slept loops asleep (of_decide_eq_true past) answered
      have lost := Round.lost loops asleep (of_decide_eq_true past)
      -- What is taken need not be known here.
      generalize host.takeDue now s = taken at slept lost ⊢
      obtain ⟨answer, state⟩ := taken
      cases answer with
      | none => exact lost rfl
      | some due => exact slept rfl
    · next early =>
      -- Only the heartbeat is left.
      have past : d.nextBeat ≤ now := by
        rcases somehow with changed | ⟨instant, asleep, past⟩ | past
        · exact absurd changed still
        · exact absurd (by simp [asleep, past]) early
        · exact past
      rw [if_pos past]
      have beat := Round.beat loops past
      have missed := Round.missed loops past
      generalize host.checkDrift (.ofMillis now) now s = looked at beat missed ⊢
      obtain ⟨answer, state⟩ := looked
      cases answer with
      | none => exact missed rfl
      | some jump => exact beat rfl

/-! ### What a sleeping dispatcher has to know -/

variable (host) in
/-- The wall clock follows the time, and the agenda is in order. -/
structure Orderly (s : σ) : Prop where
  follows : (host.clock s).follows = true
  upkept : (host.part.get s).agenda.Upkept
  onSeconds : (host.part.get s).agenda.OnSeconds

variable (host) in
/-- As long as the dispatcher sleeps, nothing becomes due. -/
def Covered (now : Nat) (s : σ) : Prop :=
  ∀ {d key task}, (host.part.get s).dispatcher = some d →
    (host.part.get s).agenda.tasks.get? key = some task →
    ∃ instant, d.wakeAt = some instant ∧
      ∀ n, now ≤ n → n < instant → ((host.clock s).reading n).before task.nextRun = true

variable (host) in
structure Watchful (now : Nat) (s : σ) : Prop extends Orderly host s where
  awake : (host.part.get s).changed = true ∨ host.Covered now s

theorem Orderly.steps (orderly : host.Orderly s) (clock : host.clock s' = host.clock s)
    (steps : Scheduler.Steps (host.part.get s) (host.part.get s')) : host.Orderly s' := by
  refine ⟨?_, ?_, ?_⟩
  · rw [clock]
    exact orderly.follows
  · exact orderly.upkept.edits (Scheduler.Steps.edits steps orderly.upkept)
  · exact Scheduler.Steps.onSeconds steps orderly.upkept orderly.onSeconds

theorem Orderly.congr (orderly : host.Orderly s) (clock : host.clock s' = host.clock s)
    (agenda : (host.part.get s').agenda = (host.part.get s).agenda) : host.Orderly s' := by
  refine ⟨?_, ?_, ?_⟩
  · rw [clock]
    exact orderly.follows
  · rw [agenda]
    exact orderly.upkept
  · rw [agenda]
    exact orderly.onSeconds

theorem Orderly.operates (orderly : host.Orderly s) (operates : host.Operates now s s') :
    host.Orderly s' :=
  orderly.steps operates.clock operates.scheduler.steps

theorem Watchful.later (watchful : host.Watchful now s) : host.Watchful (now + 1) s := by
  refine { watchful with awake := watchful.awake.imp_right ?_ }
  intro covered d key task loops armed
  obtain ⟨instant, asleep, ahead⟩ := covered loops armed
  exact ⟨instant, asleep, fun n later early => ahead n (by omega) early⟩

theorem Watchful.operates (watchful : host.Watchful now s) (operates : host.Operates now s s') :
    host.Watchful now s' := by
  refine ⟨watchful.toOrderly.operates operates, ?_⟩
  -- Unless the dispatcher has to look again, whatever is armed was armed when it fell asleep.
  obtain ⟨dispatcher, again | ⟨same, kept⟩⟩ := operates.scheduler.spares watchful.upkept
  · exact .inl again
  · refine watchful.awake.imp same.trans ?_
    intro covered d key task loops armed
    rw [operates.clock]
    exact covered (dispatcher ▸ loops) (kept armed)

/-! ### Falling asleep -/

variable (host) in
theorem part_fallAsleep (now : Nat) (s : σ) :
    host.part.get (host.fallAsleep now s) =
      { host.part.get s with
        agenda := (host.part.get s).agenda.prune
        dispatcher := (host.part.get s).dispatcher.map fun d =>
          { d with
            wakeAt := ((host.part.get s).timeUntilNext (host.reading now s)).1.map fun wait =>
              now + wait.waitMillis } } := by
  rw [fallAsleep, Field.get_modify]
  rfl

theorem clock_fallAsleep (steady : host.Steady) (now : Nat) (s : σ) :
    host.clock (host.fallAsleep now s) = host.clock s :=
  steady.clock_set _ s

/-- A dispatcher that falls asleep wakes before anything becomes due. -/
theorem Orderly.fallAsleep (orderly : host.Orderly s) (steady : host.Steady) (now : Nat) :
    host.Watchful now (host.fallAsleep now s) := by
  have clock := clock_fallAsleep steady now s
  have part := part_fallAsleep host now s
  obtain ⟨follows, upkept, onSeconds⟩ := orderly
  refine ⟨⟨?_, ?_, ?_⟩, .inr ?_⟩
  · rw [clock]
    exact follows
  · rw [part]
    exact upkept.edit (Agenda.edit_prune _)
  · rw [part]
    exact onSeconds
  · intro d key task asleep armed
    rw [part] at asleep armed
    obtain ⟨d, -, rfl⟩ := Option.map_eq_some_iff.1 asleep
    rw [clock]
    rcases Scheduler.timeUntilNext_spec upkept (host.reading now s) with
      ⟨-, nothing⟩ | ⟨key', first, foremost, wait⟩
    · exact absurd ((nothing key).symm.trans armed) nofun
    · -- The wait is that for a first task, and no other task is due before that.
      refine ⟨_, by rw [wait, Option.map_some], ?_⟩
      intro n later early
      have ahead := WallClock.before_of_waiting follows (onSeconds.of_task foremost.armed) later early
      exact Instant.before_of_not_before ahead (foremost.first armed)

/-! ### Rounds -/

theorem takeDue_eq (now : Nat) (s : σ) : host.takeDue now s =
    (((host.part.get s).takeDue (host.reading now s)).1,
      host.part.set ((host.part.get s).takeDue (host.reading now s)).2 s) :=
  host.part.update_eq _ s

theorem Orderly.takeDue (orderly : host.Orderly s) (steady : host.Steady) (now : Nat) :
    host.Orderly (host.takeDue now s).2 := by
  rw [takeDue_eq]
  refine orderly.steps (steady.clock_set _ s) ?_
  rw [host.part.get_set]
  exact .single (.takeDue _ _)

/-- A look at the wall clock, as far as it is one at the scheduler. -/
theorem checkDrift_snd (elapsed : Duration) (now : Nat) (s : σ) :
    let drifted := (host.part.get s).checkDrift host.config.driftThreshold elapsed (host.reading now s)
    ((host.checkDrift elapsed now s).1.isSome = drifted.1.isSome) ∧
    ((host.checkDrift elapsed now s).2 = host.part.set drifted.2 s ∨
      drifted.1.isSome = true ∧ ∃ notice,
        (host.checkDrift elapsed now s).2 = host.publish notice now (host.part.set drifted.2 s)) := by
  simp only [checkDrift, Field.update]
  split
  · next lost => simp [lost]
  · next none => simp [none]
  · next jump count found => exact ⟨by simp [found], .inr ⟨by simp [found], _, rfl⟩⟩

theorem operates_checkDrift (steady : host.Steady) {elapsed : Duration}
    (answered : (host.checkDrift elapsed now s).1.isSome = true) :
    host.Operates now s (host.checkDrift elapsed now s).2 := by
  obtain ⟨same, after⟩ := host.checkDrift_snd elapsed now s
  let drifted := (host.part.get s).checkDrift host.config.driftThreshold elapsed (host.reading now s)
  have looked : host.Operates now s (host.part.set drifted.2 s) := by
    refine ⟨steady.clock_set _ s, ?_⟩
    rw [host.part.get_set]
    exact .single (.checkDrift _ _ (same.symm.trans answered))
  rcases after with quiet | ⟨-, notice, told⟩
  · rw [quiet]
    exact looked
  · rw [told]
    exact looked.trans (steady.publish _ now _)

theorem Orderly.checkDrift (orderly : host.Orderly s) (steady : host.Steady) (elapsed : Duration)
    (now : Nat) : host.Orderly (host.checkDrift elapsed now s).2 := by
  obtain ⟨same, after⟩ := host.checkDrift_snd elapsed now s
  rcases after with quiet | ⟨answered, -⟩
  · rw [quiet]
    refine orderly.steps (steady.clock_set _ s) ?_
    rw [host.part.get_set]
    exact .single (.checkDrift _ _ _ _)
  · exact orderly.operates (operates_checkDrift steady (same.trans answered))

theorem part_stopDispatcher (s : σ) :
    host.part.get (host.stopDispatcher s) = { host.part.get s with dispatcher := none } :=
  host.part.get_modify _ s

/-- Without a dispatcher there is nobody to be watchful. -/
theorem Orderly.stopDispatcher (orderly : host.Orderly s) (steady : host.Steady) (now : Nat) :
    host.Watchful now (host.stopDispatcher s) := by
  have part := host.part_stopDispatcher s
  refine ⟨orderly.congr (steady.clock_set _ s) (by rw [part]), .inr ?_⟩
  intro d key task loops
  rw [part] at loops
  cases loops

variable {started : List (Process σ Unit)}

/-- After every round the dispatcher wakes in time. -/
theorem Round.watchful (steady : host.Steady) (round : host.Round now s s' started)
    (orderly : host.Orderly s) : host.Watchful now s' := by
  cases round with
  | woken loops changed =>
    have part := host.part.get_modify (fun s => { s with changed := false }) s
    have bare : host.Orderly (host.part.modify (fun s => { s with changed := false }) s) :=
      orderly.congr (steady.clock_set _ s) (by rw [part])
    exact bare.fallAsleep steady now
  | slept => exact (orderly.takeDue steady now).fallAsleep steady now
  | lost => exact (orderly.takeDue steady now).stopDispatcher steady now
  | beat loops past answered =>
    -- Arming everything anew after a jump of the clock is one more operation.
    have looked := orderly.operates (operates_checkDrift steady answered)
    refine Orderly.fallAsleep (looked.congr (steady.clock_set _ _) ?_) steady now
    rw [host.part.get_set]
  | missed => exact (orderly.checkDrift steady _ now).stopDispatcher steady now

/-- What a round starts is due. -/
theorem Round.due (round : host.Round now s s' started) (orderly : host.Orderly s)
    {job : Process σ Unit} (member : job ∈ started) :
    ∃ a, job = ((host.execute "schedule" a).bind fun _ => .done ()) ∧
      (host.part.get s).agenda.automations.get? a.id = some a ∧
      ∃ key task, (host.part.get s).agenda.Due (host.reading now s).now key task ∧
        key.automation = a.id := by
  cases round with
  | slept loops asleep past answered =>
    rw [takeDue_eq] at answered
    obtain ⟨a, taken, rfl⟩ := List.mem_map.1 member
    exact ⟨a, rfl, Scheduler.due_of_mem_takeDue orderly.upkept answered taken⟩
  | _ => cases member

/-! ### The end of the dispatcher -/

variable (host) in
/-- A search of the dispatcher crashes: that for a due task, or one that a look at the wall clock makes. -/
def Crashes (now : Nat) (s : σ) : Prop :=
  (∃ key task, (host.part.get s).agenda.Due (host.reading now s).now key task ∧
    Agenda.crashes (host.reading now s).next task.schedule = true) ∨
  (host.checkDrift (.ofMillis now) now s).1 = none

/-- The dispatcher goes on from round to round, until a search crashes. -/
theorem Round.loops_or_crashes (round : host.Round now s s' started)
    (orderly : host.Orderly s) :
    (host.part.get s').dispatcher.isSome = true ∨ host.Crashes now s := by
  cases round with
  | woken loops changed =>
    left
    simp [part_fallAsleep, host.part.get_modify, loops]
  | slept loops asleep past answered =>
    left
    simp [part_fallAsleep, takeDue_eq, host.part.get_set, Scheduler.takeDue_rest, loops]
  | lost loops asleep past crashed =>
    right
    rw [takeDue_eq] at crashed
    exact .inl ((orderly.upkept.drain_eq_none_iff _ []).1 crashed)
  | beat loops past answered =>
    left
    simp [part_fallAsleep, host.part.get_modify]
  | missed loops past crashed => exact .inr (.inr crashed)

/-! ### No round without end -/

theorem not_past (now : Nat) {wait : Option Duration} {length : Duration → Nat}
    (takes : ∀ {d}, wait = some d → 0 < length d) :
    (wait.map fun d => now + length d).any (fun instant => decide (instant ≤ now)) = false := by
  cases wait with
  | none => rfl
  | some d => exact decide_eq_false (Nat.not_le.2 (Nat.lt_add_of_pos_right (takes rfl)))

/-- After every round there is less that the dispatcher can do at the same instant. -/
theorem Round.ready_lt (steady : host.Steady) (beats : host.config.heartbeat.isZero = false)
    (round : host.Round now s s' started) (orderly : host.Orderly s)
    (outside : (host.reading now s).now.isInLeapSecond = false) :
    (host.part.get s').ready now < (host.part.get s).ready now := by
  cases round with
  | woken loops changed =>
    -- The change is spent, but the new sleep is over at once if something is due already.
    rw [part_fallAsleep, host.part.get_modify]
    simp only [Scheduler.ready, loops, changed, Option.map_some, ↓reduceIte, Bool.false_eq_true]
    split <;> split <;> split <;> omega
  | @slept d instant loops asleep past due answered =>
    -- What was due is armed anew for later, so that the new sleep takes some time.
    have kept := Scheduler.takeDue_rest (host.part.get s) (host.reading now s)
    have step := Scheduler.Step.takeDue (host.part.get s) (host.reading now s)
    have some : ((host.part.get s).takeDue (host.reading now s)).1 = some due := by
      rwa [takeDue_eq] at answered
    have asleep' := not_past now fun found =>
      Scheduler.waitMillis_pos (orderly.upkept.edits (step.edits orderly.upkept))
        (step.onSeconds orderly.upkept orderly.onSeconds)
        (Scheduler.not_due_takeDue orderly.upkept (by simp [some])) outside found
    have same (scheduler : Scheduler) :
        host.reading now (host.part.set scheduler s) = host.reading now s := by
      rw [reading, reading, steady.clock_set]
    rw [part_fallAsleep, takeDue_eq, same, host.part.get_set]
    simp only [Scheduler.ready, kept, loops, asleep, asleep', past, Option.map_some, Option.any_some,
      decide_true, Bool.false_eq_true, ↓reduceIte]
    omega
  | lost loops asleep past crashed =>
    rw [part_stopDispatcher]
    simp [Scheduler.ready, loops, asleep, past]
  | missed loops past crashed =>
    rw [part_stopDispatcher]
    simp only [Scheduler.ready, loops, past, ↓reduceIte]
    split <;> split <;> omega
  | @beat d loops past answered =>
    -- Everything may have been armed anew, but the next look at the clock is not yet due.
    have later : ¬ now + host.config.heartbeat.millisUp ≤ now := by
      have some : host.config.heartbeat.nanos ≠ 0 := by simpa [Duration.isZero] using beats
      simp only [Duration.millisUp]
      omega
    rw [part_fallAsleep, Field.get_modify]
    simp only [Scheduler.ready, loops, past, later, Option.map_some, ↓reduceIte]
    split <;> split <;> split <;> split <;> omega

/-! ### The whole house -/

theorem minds_execute (steady : host.Steady) (origin : String) (a : Automation) :
    (host.execute origin a).Minds host.Operates := by
  have still (now : Nat) (s : σ) : host.Operates now s s := .refl now s
  have remembered (record : RunRecord) : (Process.change fun _ =>
      host.part.modify fun s => s.remember host.config.historyCapacity record).Minds
      host.Operates := by
    refine .change fun now s => ⟨steady.clock_set _ s, ?_⟩
    rw [host.part.get_modify]
    exact .single (.remember _ record)
  -- Only the announcements, the run and its record can touch the scheduler.
  refine (Process.Minds.now still).bind fun start => ?_
  refine (Process.Minds.change (steady.publish _)).bind fun _ => ?_
  refine (Process.Minds.limited still _ (steady.run a).rescue).bind fun outcome => ?_
  refine (Process.Minds.now still).bind fun finish => ?_
  dsimp only
  split
  · exact (Process.Minds.change (steady.publish _)).bind fun _ => (remembered _).bind fun _ => .pure _
  · exact (remembered _).bind fun _ => .pure _

variable (host) in
/-- The dispatcher is watchful, and all that runs minds the operations. -/
structure Kept (t : Timeline σ) : Prop where
  watchful : host.Watchful t.now t.state
  minds : ∀ job ∈ t.jobs, job.Minds host.Operates
  services : t.services = [host.dispatcher]

variable {t u : Timeline σ}

theorem Kept.begun (steady : host.Steady) (beats : host.config.heartbeat.isZero = false)
    (follows : (host.clock s).follows = true) (reachable : (host.part.get s).Reachable) (now : Nat) :
    host.Kept (host.begun now s) := by
  -- A new dispatcher has to look at once, so that no sleep need cover what is already armed.
  have began : host.startDispatcher now s = host.part.modify (fun scheduler =>
      { scheduler with dispatcher := some ⟨none, now⟩, changed := true }) s := by
    simp [startDispatcher, beats]
  have part : host.part.get (host.startDispatcher now s) =
      { host.part.get s with dispatcher := some ⟨none, now⟩, changed := true } := by
    rw [began, host.part.get_modify]
  refine ⟨⟨⟨?_, ?_, ?_⟩, .inl ?_⟩, nofun, rfl⟩
  · rw [SchedulerHost.begun, began]
    exact (congrArg WallClock.follows (steady.clock_set _ s)).trans follows
  · rw [SchedulerHost.begun, part]
    exact reachable.upkept
  · rw [SchedulerHost.begun, part]
    exact reachable.onSeconds
  · rw [SchedulerHost.begun, part]

theorem Kept.moves (steady : host.Steady) (kept : host.Kept t) (moves : host.Moves t u) :
    host.Kept u := by
  cases moves with
  | @round s started round =>
    refine ⟨round.watchful steady kept.watchful.toOrderly, ?_, kept.services⟩
    intro job member
    rcases List.mem_append.1 member with before | new
    · exact kept.minds job before
    · obtain ⟨a, rfl, -⟩ := round.due kept.watchful.toOrderly new
      exact (minds_execute steady "schedule" a).bind fun _ => .pure ()
  | @goOn job others jobs running left =>
    have own : job ∈ t.jobs := running.mem_iff.2 List.mem_cons_self
    have minded := (kept.minds job own).poll t.now t.state
    refine ⟨kept.watchful.operates (.of_reflTransGen minded.changed), ?_, kept.services⟩
    intro other member
    rcases List.mem_append.1 (left.mem_iff.1 member) with before | new
    · rcases List.mem_append.1 before with again | before
      · -- What is left of the job is still a job, unless it has come to its end.
        have rest : other = (job.poll t.now t.state).left := by
          split at again
          · cases again
          · exact List.mem_singleton.1 again
        exact rest ▸ minded.left
      · exact kept.minds other (running.mem_iff.2 (List.mem_cons_of_mem job before))
    · exact minded.started other new
  | operate operates => exact ⟨kept.watchful.operates operates, kept.minds, kept.services⟩
  | @begin job minds =>
    refine ⟨kept.watchful, ?_, kept.services⟩
    intro other member
    rcases List.mem_append.1 member with before | new
    · exact kept.minds other before
    · rw [List.mem_singleton.1 new]
      exact minds
  | pass quiet => exact ⟨kept.watchful.later, kept.minds, kept.services⟩

/-- When all is quiet and the dispatcher loops, nothing is due. -/
theorem Kept.not_due (kept : host.Kept t) (quiet : t.isQuiet = true)
    (loops : (host.part.get t.state).dispatcher.isSome = true) {key : TaskKey} {task : Task} :
    ¬ (host.part.get t.state).agenda.Due (host.reading t.now t.state).now key task := by
  have idle : ¬ Timeline.Service.isDue host.dispatcher t.now t.state = true := by
    have still := (Bool.and_eq_true_iff.1 quiet).2
    simpa [kept.services] using still
  obtain ⟨d, loops⟩ := Option.isSome_iff_exists.1 loops
  intro due
  rcases kept.watchful.awake with changed | covered
  · exact idle ((isDue_dispatcher t.now t.state).2 ⟨d, loops, .inl changed⟩)
  · -- The dispatcher sleeps on, so the task is one for which it does not yet have to wake.
    obtain ⟨instant, asleep, ahead⟩ := covered loops due.1
    have early : t.now < instant := by
      by_contra past
      exact idle ((isDue_dispatcher t.now t.state).2
        ⟨d, loops, .inr (.inl ⟨instant, asleep, Nat.not_lt.1 past⟩)⟩)
    have notYet : (host.reading t.now t.state).now.before task.nextRun = true :=
      ahead t.now (Nat.le_refl _) early
    simpa [Instant.notAfter, notYet] using due.2

/-- The dispatcher goes on from move to move, until a search of its own crashes. -/
theorem Kept.loops_or_crashes (kept : host.Kept t) (moves : host.Moves t u)
    (loops : (host.part.get t.state).dispatcher.isSome = true) :
    (host.part.get u.state).dispatcher.isSome = true ∨ host.Crashes t.now t.state := by
  have operated {s : σ} (operates : host.Operates t.now t.state s) :
      (host.part.get s).dispatcher.isSome = true := by
    rw [(operates.scheduler.spares kept.watchful.upkept).1]
    exact loops
  cases moves with
  | round round => exact round.loops_or_crashes kept.watchful.toOrderly
  | @goOn job others jobs running left =>
    have own : job ∈ t.jobs := running.mem_iff.2 List.mem_cons_self
    exact .inl (operated (.of_reflTransGen ((kept.minds job own).poll t.now t.state).changed))
  | operate operates => exact .inl (operated operates)
  | begin => exact .inl loops
  | pass => exact .inl loops

end SchedulerHost

end Hearth

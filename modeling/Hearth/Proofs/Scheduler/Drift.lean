import Hearth.Proofs.Scheduler.Punctual
import Hearth.Proofs.Scheduler.Requests
import Hearth.Proofs.Scheduler.Watched

/-!
# Hearth.Proofs.Scheduler.Drift

How jumps of the wall clock are noticed. Each look at the clock is compared with the look before it, so
whatever a scheduler has gone through, all that matters of it is the last look.

## Main definitions

- `Scheduler.lastLook`: when a course looked at the wall clock last, and what it showed.
- `Scheduler.gained`: what the wall clock has gained on the time between two looks.
- `Scheduler.Anew`: everything is armed for its next occurrence from now on.

## Main results

- `Scheduler.Course.heartbeat_eq`: a scheduler remembers the last look, whatever came of it.
- `SchedulerHost.checkDrift_exact`: what a look at the clock answers, changes and announces.
- `SchedulerHost.checkDrift_announces_nothing`: where a search crashes, a jump is not announced.
-/

namespace Hearth

namespace Scheduler

open Agenda

/-! ### The last look -/

/-- A request may be a look at the clock, which then is the last one. -/
def Turn.look (last : Option (Duration × Instant)) (turn : Turn) : Option (Duration × Instant) :=
  match turn.request with
  | .checkDrift _ elapsed r => some (elapsed, r.now)
  | _ => last

/-- The time since the beginning at the last look at the clock, and what the clock showed. -/
def lastLook (turns : List Turn) : Option (Duration × Instant) := turns.foldl Turn.look none

theorem Request.heartbeat_apply (request : Request) (s : Scheduler) :
    (request.apply s).heartbeat = Turn.look s.heartbeat ⟨s, request⟩ := by
  cases request with
  | schedule r automation => exact heartbeat_schedule s r automation
  | unschedule id => rfl
  | clear => rfl
  | runDue r => exact heartbeat_takeDue s r
  | rescheduleAll r => rfl
  | checkDrift threshold elapsed r => exact heartbeat_checkDrift s threshold elapsed r

theorem Course.heartbeat_eq {turns : List Turn} {s : Scheduler} (course : Course empty turns s) :
    s.heartbeat = lastLook turns := by
  refine course.keeps (fun last s => s.heartbeat = last) ?_ ?_ Upkept.empty rfl
  · intro last s t upkept silent same
    exact (silent.spares upkept).2.2.trans same
  · intro last s request upkept same
    rw [request.heartbeat_apply, same]

/-! ### What a look comes to -/

variable {s t : Scheduler} {r : Reading} {threshold elapsed : Duration} {last : Duration × Instant}

/-- By how much the wall clock went on more than the time did, from one look to another, in
nanoseconds. -/
def gained (last : Duration × Instant) (elapsed : Duration) (now : Instant) : Int :=
  now.since last.2 - ((elapsed.nanos : Int) - last.1.nanos)

theorem jump?_first (never : s.heartbeat = none) (threshold elapsed : Duration) (now : Instant) :
    s.jump? threshold elapsed now = some none := by
  unfold jump?
  rw [never]

section Compared

variable (looked : s.heartbeat = some last) (onward : last.1.nanos ≤ elapsed.nanos) (now : Instant)
include looked onward

/-- Both clocks went on since the last look, and by how much they did so is compared. -/
theorem jump?_eq : s.jump? threshold elapsed now =
    if Duration.longestSpan.nanos < elapsed.nanos - last.1.nanos then some none
    else if Duration.longestSpan.nanos < (gained last elapsed now).natAbs then none
    else if (gained last elapsed now).natAbs ≤ threshold.nanos then some none
    else some (some ⟨(gained last elapsed now).natAbs⟩) := by
  have compared : now.since last.2 - ((elapsed.minus last.1).nanos : Int) = gained last elapsed now := by
    rw [gained, Duration.minus, Int.ofNat_sub onward]
  unfold jump?
  simp only [looked, compared]
  rfl

theorem jump?_eq_some_iff {jump : Duration} : s.jump? threshold elapsed now = some (some jump) ↔
    jump.nanos = (gained last elapsed now).natAbs ∧ threshold.nanos < jump.nanos ∧
      jump.nanos ≤ Duration.longestSpan.nanos ∧
      elapsed.nanos - last.1.nanos ≤ Duration.longestSpan.nanos := by
  rw [jump?_eq looked onward]
  obtain ⟨nanos⟩ := jump
  split_ifs <;> simp <;> omega

theorem jump?_eq_none_iff : s.jump? threshold elapsed now = none ↔
    elapsed.nanos - last.1.nanos ≤ Duration.longestSpan.nanos ∧
      Duration.longestSpan.nanos < (gained last elapsed now).natAbs := by
  rw [jump?_eq looked onward]
  split_ifs <;> simp <;> omega

end Compared

/-- A jump that is noticed comes with the number of tasks that are armed then, unless a search crashes. -/
theorem checkDrift_fst_iff {jump : Duration} {count : Nat} :
    (s.checkDrift threshold elapsed r).1 = some (some (jump, count)) ↔
      s.jump? threshold elapsed r.now = some (some jump) ∧
        (s.agenda.rescheduleAll r.next).1 = some count := by
  unfold Scheduler.checkDrift
  dsimp only
  split
  · next lost => simp [lost]
  · next none => simp [none]
  · next jump' found =>
    have counted : (({ s with heartbeat := some (elapsed, r.now) } : Scheduler).rescheduleAll r).1 =
      (s.agenda.rescheduleAll r.next).1 := rfl
    simp only [counted, found, Option.map_eq_some_iff, Option.some.injEq, Prod.mk.injEq]
    constructor
    · rintro ⟨_, answered, rfl, rfl⟩
      exact ⟨rfl, answered⟩
    · rintro ⟨rfl, answered⟩
      exact ⟨count, answered, rfl, rfl⟩

/-- Where no jump is noticed, nothing but the look itself is remembered. -/
theorem checkDrift_quiet (quiet : (s.checkDrift threshold elapsed r).1 = some none) :
    (s.checkDrift threshold elapsed r).2 = { s with heartbeat := some (elapsed, r.now) } := by
  unfold Scheduler.checkDrift at quiet ⊢
  dsimp only at quiet ⊢
  split
  · rfl
  · rfl
  · next jump found =>
    rw [found] at quiet
    obtain ⟨count, -, never⟩ := Option.map_eq_some_iff.1 quiet
    cases never

theorem checkDrift_first (never : s.heartbeat = none) :
    (s.checkDrift threshold elapsed r).1 = some none := by
  unfold Scheduler.checkDrift
  rw [jump?_first never]

/-- The search crashes for something that is armed. -/
def Crashing (r : Reading) (s : Scheduler) : Prop :=
  ∃ key task, s.agenda.tasks.get? key = some task ∧ crashes r.next task.schedule = true

/-- A jump is answered if what the clock has gained is above the threshold and within bounds, and the search
crashes for nothing that is armed. -/
theorem exists_checkDrift_fst_iff (upkept : s.agenda.Upkept) (looked : s.heartbeat = some last)
    (onward : last.1.nanos ≤ elapsed.nanos) {jump : Duration} :
    (∃ count, (s.checkDrift threshold elapsed r).1 = some (some (jump, count))) ↔
      jump.nanos = (gained last elapsed r.now).natAbs ∧ threshold.nanos < jump.nanos ∧
        jump.nanos ≤ Duration.longestSpan.nanos ∧
        elapsed.nanos - last.1.nanos ≤ Duration.longestSpan.nanos ∧ ¬ Crashing r s := by
  have counted : (∃ count, (s.agenda.rescheduleAll r.next).1 = some count) ↔ ¬ Crashing r s := by
    rw [← Option.ne_none_iff_exists', Ne, rescheduleAll_fst_eq_none_iff upkept]
    rfl
  simp only [checkDrift_fst_iff, exists_and_left, jump?_eq_some_iff looked onward, counted, and_assoc]

/-- A look crashes if what the clock has gained is out of bounds, or if there is a jump and the search
crashes for something that is armed. -/
theorem checkDrift_lost_iff (upkept : s.agenda.Upkept) (looked : s.heartbeat = some last)
    (onward : last.1.nanos ≤ elapsed.nanos) : (s.checkDrift threshold elapsed r).1 = none ↔
      elapsed.nanos - last.1.nanos ≤ Duration.longestSpan.nanos ∧
        (Duration.longestSpan.nanos < (gained last elapsed r.now).natAbs ∨
          threshold.nanos < (gained last elapsed r.now).natAbs ∧ Crashing r s) := by
  have jumped : (s.jump? threshold elapsed r.now).join.isSome = true ↔
      ∃ jump, s.jump? threshold elapsed r.now = some (some jump) := by
    rw [Option.isSome_iff_exists]
    simp only [Option.join_eq_some_iff]
  rw [checkDrift_fst_eq_none_iff, rescheduleAll_fst_eq_none_iff upkept, jumped,
    jump?_eq_none_iff looked onward]
  simp only [jump?_eq_some_iff looked onward]
  constructor
  · rintro (⟨short, outside⟩ | ⟨⟨jump, same, large, -, short⟩, crashing⟩)
    · exact ⟨short, .inl outside⟩
    · exact ⟨short, .inr ⟨same ▸ large, crashing⟩⟩
  · rintro ⟨short, outside | ⟨large, crashing⟩⟩
    · exact .inl ⟨short, outside⟩
    · rcases Nat.lt_or_ge Duration.longestSpan.nanos (gained last elapsed r.now).natAbs with outside | inside
      · exact .inl ⟨short, outside⟩
      · exact .inr ⟨⟨⟨_⟩, rfl, large, inside, short⟩, crashing⟩

/-- What was armed in `s` is armed in `t` for its next occurrence after the reading, unless there is none. -/
structure Anew (r : Reading) (s t : Scheduler) : Prop where
  renewed : ∀ {k p nextRun}, s.agenda.plan? k = some p → r.next p.schedule = .ok nextRun →
    t.agenda.plan? k = some { p with nextRun } ∧ r.now.before nextRun = true
  dropped : ∀ {k p fault}, s.agenda.plan? k = some p → r.next p.schedule = .error fault →
    t.agenda.plan? k = none
  only : ∀ {k}, s.agenda.plan? k = none → t.agenda.plan? k = none

theorem anew_rescheduleAll (upkept : s.agenda.Upkept)
    (answered : (s.agenda.rescheduleAll r.next).1 ≠ none)
    (agenda : t.agenda = (s.agenda.rescheduleAll r.next).2) : Anew r s t := by
  have each (k : TaskKey) : t.agenda.plan? k = (s.agenda.plan? k).bind (Plan.renew? r.next) :=
    agenda ▸ upkept.plan?_rescheduleAll_of_answer answered k
  constructor
  · intro k p nextRun armed found
    rw [each, armed]
    exact ⟨by simp [Plan.renew?, found, Except.toOption], Schedule.nextAfter_after found⟩
  · intro k p fault armed none
    rw [each, armed]
    simp [Plan.renew?, none, Except.toOption]
  · intro k free
    rw [each, free]
    rfl

/-- Everything that is armed then lies ahead. -/
theorem Anew.ahead (anew : Anew r s t) {k : TaskKey} {p : Plan} (armed : t.agenda.plan? k = some p) :
    r.next p.schedule = .ok p.nextRun ∧ r.now.before p.nextRun = true := by
  cases formerly : s.agenda.plan? k with
  | none => cases armed.symm.trans (anew.only formerly)
  | some q =>
    cases found : r.next q.schedule with
    | error fault => cases armed.symm.trans (anew.dropped formerly found)
    | ok nextRun =>
      obtain ⟨same, later⟩ := anew.renewed formerly found
      obtain rfl := Option.some.inj (armed.symm.trans same)
      exact ⟨found, later⟩

/-- So nothing is due at the same reading. -/
theorem Anew.takeDue_eq_nil (anew : Anew r s t) (upkept : t.agenda.Upkept) :
    (t.takeDue r).1 = some [] := by
  have calm (k : TaskKey) (task : Task) : ¬ t.agenda.Due r.now k task := by
    intro due
    obtain ⟨p, armed, past⟩ := due_iff_plan?.1 ⟨task, due⟩
    simp [Instant.notAfter, (anew.ahead armed).2] at past
  exact upkept.drain_of_calm r.outlook [] calm

/-- A jump that is noticed comes with the number of tasks that are armed then. -/
theorem anew_checkDrift (upkept : s.agenda.Upkept) {jump : Duration} {count : Nat}
    (noticed : (s.checkDrift threshold elapsed r).1 = some (some (jump, count))) :
    Anew r s (s.checkDrift threshold elapsed r).2 ∧
      (s.checkDrift threshold elapsed r).2.agenda.tasks.size = count := by
  obtain ⟨jumped, counted⟩ := checkDrift_fst_iff.1 noticed
  have answered : (s.agenda.rescheduleAll r.next).1 ≠ none := by
    rw [counted]
    exact nofun
  have agenda : (s.checkDrift threshold elapsed r).2.agenda = (s.agenda.rescheduleAll r.next).2 := by
    rw [agenda_checkDrift, jumped]
    rfl
  refine ⟨anew_rescheduleAll upkept answered agenda, ?_⟩
  rw [agenda]
  exact Option.some.inj ((fst_rescheduleAll answered).symm.trans counted)

end Scheduler

namespace SchedulerHost

open Scheduler

variable {σ ι : Type} (host : SchedulerHost σ)

/-- What is announced of a jump. -/
def jumped (jump : Duration) (tasks : Nat) : Notice :=
  { kind := .clockDriftDetected, subject := none,
    data := .record [("drift_ms", .whole jump.millis), ("tasks", .whole tasks)] }

/-- What is taken down of a look at the clock: the jump, if there is one. -/
def announcements (run : ι) (now : Nat) : Option (Option (Duration × Nat)) → List (Note ι)
  | none => []
  | some none => []
  | some (some (jump, tasks)) => [⟨run, now, .announced (jumped jump tasks)⟩]

section

variable (elapsed : Duration) (now : Nat)

/-- Nothing else is done than without notes. -/
theorem checkDrift_watched (run : ι) (x : σ × List (Note ι)) :
    let found := (host.part.get x.1).checkDrift host.config.driftThreshold elapsed (host.reading now x.1)
    let looked := host.checkDrift elapsed now x.1
    (host.watched run).checkDrift elapsed now x =
      (looked.1, looked.2, x.2 ++ announcements run now found.1) := by
  intro found looked
  have same : ((host.watched run).part.get x).checkDrift (host.watched run).config.driftThreshold elapsed
      ((host.watched run).reading now x) = found := rfl
  simp only [looked, checkDrift, Field.update_eq, same]
  rcases found.1 with _ | _ | _
  · rw [announcements, List.append_nil]
    rfl
  · rw [announcements, List.append_nil]
    rfl
  · rfl

theorem checkDrift_fst (s : σ) : (host.checkDrift elapsed now s).1 =
    ((host.part.get s).checkDrift host.config.driftThreshold elapsed (host.reading now s)).1.map
      (Option.map Prod.fst) := by
  simp only [checkDrift, Field.update_eq]
  generalize ((host.part.get s).checkDrift host.config.driftThreshold elapsed (host.reading now s)).1 = found
  rcases found with _ | _ | _ <;> rfl

/-- Those who are told of a jump leave the scheduler to itself. -/
theorem get_checkDrift
    (still : ∀ notice now s, host.part.get (host.publish notice now s) = host.part.get s) (s : σ) :
    host.part.get (host.checkDrift elapsed now s).2 =
      ((host.part.get s).checkDrift host.config.driftThreshold elapsed (host.reading now s)).2 := by
  simp only [checkDrift, Field.update_eq]
  generalize ((host.part.get s).checkDrift host.config.driftThreshold elapsed (host.reading now s)).1 = found
  rcases found with _ | _ | _
  · exact host.part.get_set _ _
  · exact host.part.get_set _ _
  · exact (still _ _ _).trans (host.part.get_set _ _)

end

/-- Whatever a scheduler has gone through: the first look at the clock notices no jump, and every later
one is compared with the look before it, whatever that one came to. Without a jump nothing is changed but
the look remembered, and nothing is announced. After a jump, which is announced once, everything that has
an occurrence is armed for it, and nothing is due any more. A look crashes if what the clock has gained is
out of bounds, or if there is a jump and the search crashes for something that is armed; nothing is announced
then. -/
theorem checkDrift_exact (still : ∀ notice now s, host.part.get (host.publish notice now s) = host.part.get s)
    {turns : List Turn} {elapsed : Duration} {now : Nat} {s : σ}
    (course : Course .empty turns (host.part.get s))
    (onward : ∀ last ∈ lastLook turns, last.1.nanos ≤ elapsed.nanos) (run : ι) (notes : List (Note ι)) :
    let r := host.reading now s
    let formerly := host.part.get s
    let looked := (host.watched run).checkDrift elapsed now (s, notes)
    let after := host.part.get looked.2.1
    host.checkDrift elapsed now s = (looked.1, looked.2.1) ∧
    (lastLook turns = none → looked.1 = some none) ∧
    (∀ last, lastLook turns = some last →
      (∀ jump : Duration, looked.1 = some (some jump) ↔
        jump.nanos = (gained last elapsed r.now).natAbs ∧ host.config.driftThreshold.nanos < jump.nanos ∧
          jump.nanos ≤ Duration.longestSpan.nanos ∧
          elapsed.nanos - last.1.nanos ≤ Duration.longestSpan.nanos ∧ ¬ Crashing r formerly) ∧
      (looked.1 = none ↔ elapsed.nanos - last.1.nanos ≤ Duration.longestSpan.nanos ∧
        (Duration.longestSpan.nanos < (gained last elapsed r.now).natAbs ∨
          host.config.driftThreshold.nanos < (gained last elapsed r.now).natAbs ∧ Crashing r formerly))) ∧
    (looked.1 = some none → after = { formerly with heartbeat := some (elapsed, r.now) }) ∧
    (looked.1.join = none → looked.2.2 = notes) ∧
    (∀ jump, looked.1 = some (some jump) →
      looked.2.2 = notes ++ [⟨run, now, .announced (jumped jump after.agenda.tasks.size)⟩] ∧
      Anew r formerly after ∧ (after.takeDue r).1 = some []) ∧
    ∃ turns', Course .empty turns' after ∧ lastLook turns' = some (elapsed, r.now) := by
  intro r formerly looked after
  let found := formerly.checkDrift host.config.driftThreshold elapsed r
  -- What is remembered is the last look, so whatever the looks before it came to does not add up.
  have heartbeat : formerly.heartbeat = lastLook turns := course.heartbeat_eq
  have upkept : formerly.agenda.Upkept := course.reachable.upkept
  have seen := host.checkDrift_watched elapsed now run (s, notes)
  have answer : looked.1 = found.1.map (Option.map Prod.fst) :=
    (congrArg Prod.fst seen).trans (host.checkDrift_fst elapsed now s)
  have part : after = found.2 :=
    (congrArg (fun looked => host.part.get looked.2.1) seen).trans (host.get_checkDrift elapsed now still s)
  have told : looked.2.2 = notes ++ announcements run now found.1 := congrArg (·.2.2) seen
  have turned : Course .empty (turns ++ [⟨formerly, .checkDrift host.config.driftThreshold elapsed r⟩])
      after := by
    rw [part]
    exact course.trans (.turn _ (.done _))
  have jumps (jump : Duration) : looked.1 = some (some jump) ↔
      ∃ count, found.1 = some (some (jump, count)) := by
    rw [answer]
    simp only [Option.map_eq_some_iff, Prod.exists, exists_and_right, exists_eq_right]
    constructor
    · rintro ⟨_, answered, count, rfl⟩
      exact ⟨count, answered⟩
    · rintro ⟨count, answered⟩
      exact ⟨_, answered, count, rfl⟩
  refine ⟨congrArg (fun looked => (looked.1, looked.2.1)) seen.symm, ?_, ?_, ?_, ?_, ?_, ?_⟩
  · intro never
    rw [answer, checkDrift_first (heartbeat.trans never)]
    rfl
  · intro last earlier
    have before := heartbeat.trans earlier
    refine ⟨fun jump => ?_, ?_⟩
    · exact (jumps jump).trans (exists_checkDrift_fst_iff upkept before (onward last earlier))
    · rw [answer, Option.map_eq_none_iff]
      exact checkDrift_lost_iff upkept before (onward last earlier)
  · intro quiet
    rw [answer, Option.map_eq_some_iff] at quiet
    obtain ⟨_, answered, none⟩ := quiet
    rw [Option.map_eq_none_iff] at none
    exact part.trans (checkDrift_quiet (none ▸ answered))
  · intro quiet
    rw [told]
    match jumped : found.1 with
    | none => exact List.append_nil notes
    | some none => exact List.append_nil notes
    | some (some (jump, count)) =>
      rw [answer, jumped] at quiet
      cases quiet
  · intro jump noticed
    obtain ⟨count, noticed⟩ := (jumps jump).1 noticed
    obtain ⟨anew, tasks⟩ := anew_checkDrift upkept noticed
    rw [← part] at anew tasks
    refine ⟨?_, anew, anew.takeDue_eq_nil turned.reachable.upkept⟩
    rw [told, noticed, tasks]
    rfl
  · refine ⟨_, turned, ?_⟩
    rw [lastLook, List.foldl_append]
    rfl

/-- The alarm has been set at midnight, and the clock has been looked at. -/
def sleeping : List Turn :=
  [⟨.empty, .schedule firstMidnight alarm⟩,
    ⟨(Scheduler.empty.schedule firstMidnight alarm).2, .checkDrift (.ofSecs 5) .zero firstMidnight⟩]

def asleep : Scheduler :=
  ((Scheduler.empty.schedule firstMidnight alarm).2.checkDrift (.ofSecs 5) .zero firstMidnight).2

/-- Eight in the morning. -/
def eight : WallClock := ⟨⟨28800, 0, Instant.zero_nanos_lt⟩, .universal, true⟩

/-- A second after midnight the clock has been put forward to eight, past both times of the alarm. -/
theorem checkDrift_exact_alarm :
    let r := (bareHouse eight).reading 1000 asleep
    let looked := ((bareHouse eight).watched ()).checkDrift (.ofMillis 1000) 1000 (asleep, [])
    (asleep.agenda.dueEntries r.now).length = 2 ∧ looked.1 = some (some (.ofSecs 28800)) ∧
    looked.2.2 = [⟨(), 1000, .announced (jumped (.ofSecs 28800) 2)⟩] ∧
    (looked.2.1.takeDue r).1 = some [] := by
  have course : Course .empty sleeping asleep := .turn _ (.turn _ (.done _))
  have last : lastLook sleeping = some (.zero, firstMidnight.now) := rfl
  have onward : ∀ last ∈ lastLook sleeping, last.1.nanos ≤ (Duration.ofMillis 1000).nanos := by
    rintro _ ⟨⟩
    exact Nat.zero_le _
  obtain ⟨-, -, compared, -, -, noticed, -⟩ := @checkDrift_exact _ _ (bareHouse eight)
    (fun _ _ _ => rfl) _ _ 1000 asleep course onward () []
  have sound : ¬ Crashing ((bareHouse eight).reading 1000 asleep) asleep := by
    intro crashing
    have lost := (Agenda.rescheduleAll_fst_eq_none_iff course.reachable.upkept).2 crashing
    have answers : (asleep.agenda.rescheduleAll
        ((bareHouse eight).reading 1000 asleep).next).1.isSome = true := by decide +kernel
    rw [lost] at answers
    cases answers
  have jump := ((compared _ last).1 (.ofSecs 28800)).2
    ⟨by decide +kernel, by decide +kernel, by decide +kernel, by decide +kernel, sound⟩
  obtain ⟨told, -, calm⟩ := noticed _ jump
  refine ⟨by decide +kernel, jump, ?_, calm⟩
  have tasks : (((bareHouse eight).watched ()).checkDrift (.ofMillis 1000) 1000
      (asleep, [])).2.1.agenda.tasks.size = 2 := by decide +kernel
  exact told.trans (congrArg (fun tasks => [(⟨(), 1000, .announced (jumped _ tasks)⟩ : Note Unit)]) tasks)

/-- The vigil has been set at noon on the day before the last one, and the clock has been looked at. -/
def vigilSleeping : List Turn :=
  [⟨.empty, .schedule lastNoonButOne vigil⟩,
    ⟨(Scheduler.empty.schedule lastNoonButOne vigil).2, .checkDrift (.ofSecs 5) .zero lastNoonButOne⟩]

def vigilAsleep : Scheduler :=
  ((Scheduler.empty.schedule lastNoonButOne vigil).2.checkDrift (.ofSecs 5) .zero lastNoonButOne).2

/-- A second later the clock has been put forward by a day. The search for the next vigil crashes, and the
jump is neither answered nor announced. -/
theorem checkDrift_announces_nothing :
    let house := bareHouse ⟨lastNoon.now, lastLeap, false⟩
    let looked := (house.watched ()).checkDrift (.ofMillis 1000) 1000 (vigilAsleep, [])
    Course .empty vigilSleeping vigilAsleep ∧
    lastLook vigilSleeping = some (.zero, lastNoonButOne.now) ∧
    house.config.driftThreshold.nanos <
      (gained (.zero, lastNoonButOne.now) (.ofMillis 1000) (house.reading 1000 vigilAsleep).now).natAbs ∧
    looked.1 = none ∧ looked.2.2.length = 0 := by
  intro house looked
  refine ⟨.turn _ (.turn _ (.done _)), rfl, by decide +kernel, ?_, by decide +kernel⟩
  exact Option.isNone_iff_eq_none.1 (by decide +kernel)

end SchedulerHost

end Hearth

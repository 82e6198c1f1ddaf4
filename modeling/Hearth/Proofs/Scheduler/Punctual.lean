import Hearth.Proofs.Execution.Conduct
import Hearth.Proofs.Process.Course
import Hearth.Proofs.Scheduler.Dispatch

/-!
# Hearth.Proofs.Scheduler.Punctual

The dispatcher is punctual: it runs nothing early, and leaves nothing for a later millisecond.

## Main results

`SchedulerHost.moves_complete`: what a timeline does while it carries a process on is a course of such
moves as the dispatcher has to reckon with.
`SchedulerHost.steady_household`: runs in a household touch nothing that the dispatcher relies on.
`SchedulerHost.dispatcher_punctual`: after any such course the dispatcher is punctual.
-/

namespace Hearth

/-! ### Instants at which nothing happens -/

namespace Process

variable {n : Nat}

theorem ahead_earlier {a b : Option Nat} :
    (∀ instant ∈ earlier a b, n < instant) ↔
      (∀ instant ∈ a, n < instant) ∧ ∀ instant ∈ b, n < instant := by
  cases a with
  | none => simp [earlier]
  | some a =>
    cases b with
    | none => simp [earlier]
    | some b =>
      simp only [earlier, Option.mem_some_iff, forall_eq']
      exact Nat.lt_min

theorem ahead_foldl_earlier {ι : Type*} (deadline : ι → Option Nat) (best : Option Nat) (xs : List ι) :
    (∀ instant ∈ xs.foldl (fun best x => earlier best (deadline x)) best, n < instant) ↔
      (∀ instant ∈ best, n < instant) ∧ ∀ x ∈ xs, ∀ instant ∈ deadline x, n < instant := by
  induction xs generalizing best with
  | nil => simp
  | cons x rest ih => rw [List.foldl_cons, ih, ahead_earlier, List.forall_mem_cons, and_assoc]

end Process

namespace Timeline

/-- All is quiet before the next instant at which something can be carried on, and only then. -/
theorem isQuiet_iff {σ : Type} (t : Timeline σ) :
    t.isQuiet = true ↔ ∀ instant ∈ t.nextInstant?, t.now < instant := by
  -- For each job and each service, not to be due is to have its next instant still ahead.
  have job (p : Process σ Unit) :
      p.isDue t.now = false ↔ ∀ instant ∈ p.deadline?, t.now < instant := by
    unfold Process.isDue
    cases p.deadline? <;> simp
  have service (service : Service σ) :
      Service.isDue service t.now t.state = false ↔
        ∀ instant ∈ service.deadline? t.state, t.now < instant := by
    unfold Service.isDue
    cases service.deadline? t.state <;> simp
  rw [nextInstant?,
    Process.ahead_foldl_earlier (fun service : Service σ => service.deadline? t.state),
    Process.ahead_foldl_earlier Process.deadline?]
  simp only [isQuiet, Bool.and_eq_true, Bool.not_eq_true', List.any_eq_false, Bool.not_eq_true, job,
    service]
  simp

end Timeline

namespace SchedulerHost

variable {σ α : Type} {host : SchedulerHost σ} {t : Timeline σ}

/-! ### One instant -/

/-- One of the due jobs carried on. -/
def pollNext (now : Nat) (round : σ × List (Process σ Unit) × List (Process σ Unit))
    (job : Process σ Unit) : σ × List (Process σ Unit) × List (Process σ Unit) :=
  let (state, again, started) := round
  let r := job.poll now state
  (r.state, if r.left.answer?.isSome then again else again ++ [r.left], started ++ r.started)

/-- The due jobs are carried on one after another, in front of those that wait. -/
theorem moves_pollNext {due waiting again started : List (Process σ Unit)} (t : Timeline σ)
    (running : t.jobs.Perm (due ++ (waiting ++ again ++ started)))
    (nobody : due = [] → t.jobs = waiting ++ again ++ started) :
    Relation.ReflTransGen host.Moves t
      { t with
        state := (due.foldl (pollNext t.now) (t.state, again, started)).1
        jobs := waiting ++ (due.foldl (pollNext t.now) (t.state, again, started)).2.1 ++
          (due.foldl (pollNext t.now) (t.state, again, started)).2.2 } := by
  induction due generalizing t again started with
  | nil =>
    simp only [List.foldl_nil, ← nobody rfl]
    exact .refl
  | cons job rest ih =>
    -- In between, the jobs still to come stand in front of all that are done with for now.
    let r := job.poll t.now t.state
    let left := if r.left.answer?.isSome then [] else [r.left]
    have carried : pollNext t.now (t.state, again, started) job =
        (r.state, again ++ left, started ++ r.started) := by
      simp only [pollNext, left, r]
      split
      · rw [List.append_nil]
      · rfl
    let jobs := rest ++ (waiting ++ (again ++ left) ++ (started ++ r.started))
    have step : jobs.Perm (left ++ (rest ++ (waiting ++ again ++ started)) ++ r.started) := by
      classical
      rw [List.perm_iff_count]
      intro other
      simp only [jobs, List.count_append]
      omega
    rw [List.foldl_cons, carried]
    have next := ih { t with state := r.state, jobs } (.refl _) (by rintro rfl; rfl)
    exact .head (.goOn running step) next

theorem moves_pollJobs (t : Timeline σ) : Relation.ReflTransGen host.Moves t t.pollJobs := by
  let waits : Process σ Unit → Bool := fun job => !job.isDue t.now
  have parts : t.jobs.partition waits = (t.jobs.filter waits, t.jobs.filter (!waits ·)) :=
    List.partition_eq_filter_filter
  have same : t.pollJobs = { t with
      state := ((t.jobs.partition waits).2.foldl (pollNext t.now) (t.state, [], [])).1
      jobs := (t.jobs.partition waits).1 ++
        ((t.jobs.partition waits).2.foldl (pollNext t.now) (t.state, [], [])).2.1 ++
        ((t.jobs.partition waits).2.foldl (pollNext t.now) (t.state, [], [])).2.2 } := rfl
  rw [same, parts]
  refine moves_pollNext t ?_ ?_
  · rw [List.append_nil, List.append_nil]
    exact ((List.filter_append_perm waits t.jobs).symm.trans List.perm_append_comm)
  · intro none
    rw [List.append_nil, List.append_nil, eq_comm, List.filter_eq_self]
    intro job member
    have idle := List.filter_eq_nil_iff.1 none job member
    simpa using idle

theorem moves_runServices (t : Timeline σ) (services : t.services = [host.dispatcher]) :
    Relation.ReflTransGen host.Moves t t.runServices := by
  rw [Timeline.runServices, services, List.foldl_cons, List.foldl_nil]
  split
  · next due => exact .single (.round (round_dispatch due))
  · exact .refl

theorem services_of_moves {u : Timeline σ} (moves : Relation.ReflTransGen host.Moves t u) :
    u.services = t.services := by
  induction moves with
  | refl => rfl
  | tail _ last ih => cases last <;> exact ih

theorem moves_settle (t : Timeline σ) (services : t.services = [host.dispatcher]) (rounds : Nat) :
    Relation.ReflTransGen host.Moves t (t.settle rounds) := by
  induction rounds generalizing t with
  | zero => exact .refl
  | succ rounds ih =>
    unfold Timeline.settle
    split
    · exact .refl
    · have once : Relation.ReflTransGen host.Moves t t.pollJobs.runServices :=
        (moves_pollJobs t).trans (moves_runServices _ services)
      exact once.trans (ih _ ((services_of_moves once).trans services))

/-! ### From one instant to the next -/

theorem moves_begin (t : Timeline σ) {started : List (Process σ Unit)}
    (minds : ∀ job ∈ started, job.Minds host.Operates) :
    Relation.ReflTransGen host.Moves t { t with jobs := t.jobs ++ started } := by
  induction started generalizing t with
  | nil => simpa using .refl
  | cons job rest ih =>
    obtain ⟨first, others⟩ := List.forall_mem_cons.1 minds
    have next := ih { t with jobs := t.jobs ++ [job] } others
    rw [List.append_assoc, List.singleton_append] at next
    exact .head (.begin first) next

theorem moves_pass (t : Timeline σ) {instant : Nat} (later : t.now ≤ instant)
    (quiet : ∀ n, n < instant → ({ t with now := n } : Timeline σ).isQuiet = true) :
    Relation.ReflTransGen host.Moves t { t with now := instant } := by
  induction later with
  | refl => exact .refl
  | @step n later ih =>
    have earlier := ih fun m before => quiet m (Nat.lt_succ_of_lt before)
    exact .tail earlier (.pass (quiet n (Nat.lt_succ_self n)))

/-- Whatever a timeline does while it carries a process on is something that may happen in a house. -/
theorem moves_complete {p : Process σ α} (minds : p.Minds host.Operates) (t : Timeline σ)
    (services : t.services = [host.dispatcher]) (instants : Nat) :
    Relation.ReflTransGen host.Moves t (t.complete p instants).2 := by
  induction instants generalizing p t with
  | zero => exact .refl
  | succ instants ih =>
    unfold Timeline.complete
    let r := p.poll t.now t.state
    have minded := minds.poll t.now t.state
    let polled : Timeline σ := { t with state := r.state, jobs := t.jobs ++ r.started }
    let settled := polled.settle Timeline.roundLimit
    have carried : Relation.ReflTransGen host.Moves t settled := by
      have operated := Moves.operate (t := t) (.of_reflTransGen minded.changed)
      have begun := moves_begin { t with state := r.state } minded.started
      exact (Relation.ReflTransGen.head operated begun).trans (moves_settle polled services _)
    dsimp only
    split
    · exact carried
    · split
      · exact carried
      · next instant found =>
        -- Time is put forward at once, but nothing can be carried on at the instants left out.
        have passed : Relation.ReflTransGen host.Moves settled
            { settled with now := max settled.now instant } := by
          rcases Nat.le_total instant settled.now with past | ahead
          · rw [Nat.max_eq_left past]
          · rw [Nat.max_eq_right ahead]
            refine moves_pass settled ahead fun n before => ?_
            have next : ∀ next ∈ Process.earlier r.left.deadline? settled.nextInstant?, n < next := by
              intro next same
              rw [found, Option.mem_some_iff] at same
              exact same ▸ before
            exact (Timeline.isQuiet_iff _).2 (Process.ahead_earlier.1 next).2
        have same : settled.services = [host.dispatcher] := (services_of_moves carried).trans services
        exact (carried.trans passed).trans (ih minded.left _ same)

/-! ### Households -/

/-- In a household runs touch the fleet only, so that it is steady if those who are told about runs
leave its clock alone. -/
theorem steady_household {house : HouseholdHost σ} {config : SchedulerConfig}
    {options : ExecutionOptions} (publish : ∀ notice now s,
      (house.scheduler config (house.run options)).Operates now s (house.publish notice now s)) :
    (house.scheduler config (house.run options)).Steady := by
  -- The clock, the scheduler and the fleet are different parts of one household.
  refine ⟨fun scheduler s => ?_, publish, fun a => (house.minds_run options a).mono ?_⟩
  · have after : house.part.get (house.part.set { house.part.get s with scheduler } s) =
        { house.part.get s with scheduler } := house.part.get_set _ s
    exact (congrArg Household.clock after :)
  · rintro now s _ ⟨fleet, rfl⟩
    have after : house.part.get (house.part.set { house.part.get s with fleet } s) =
        { house.part.get s with fleet } := house.part.get_set _ s
    have untouched : (house.scheduler config (house.run options)).part.get (house.fleet.set fleet s) =
        (house.scheduler config (house.run options)).part.get s :=
      (congrArg Household.scheduler after :)
    refine ⟨(congrArg Household.clock after :), ?_⟩
    rw [untouched]

/-! ### Punctuality -/

/-- The induction is on the moves; each of them keeps the dispatcher watchful. -/
theorem Kept.of_moves {now : Nat} {s : σ} (steady : host.Steady)
    (beats : host.config.heartbeat.isZero = false) (follows : (host.clock s).follows = true)
    (reachable : (host.part.get s).Reachable)
    (moves : Relation.ReflTransGen host.Moves (host.begun now s) t) : host.Kept t := by
  induction moves with
  | refl => exact .begun steady beats follows reachable now
  | tail _ last ih => exact ih.moves steady last

/-- If the dispatcher does not loop any more, a search has crashed on the way. -/
theorem loops_or_crashed {now : Nat} {s : σ} (steady : host.Steady)
    (beats : host.config.heartbeat.isZero = false) (follows : (host.clock s).follows = true)
    (reachable : (host.part.get s).Reachable)
    (moves : Relation.ReflTransGen host.Moves (host.begun now s) t) :
    (host.part.get t.state).dispatcher.isSome = true ∨
      ∃ u, Relation.ReflTransGen host.Moves (host.begun now s) u ∧
        Relation.ReflTransGen host.Moves u t ∧ host.Crashes u.now u.state := by
  induction moves with
  | refl =>
    left
    show (host.part.get (host.startDispatcher now s)).dispatcher.isSome = true
    rw [startDispatcher, beats, if_neg Bool.false_ne_true, host.part.get_modify]
    rfl
  | @tail t u before last ih =>
    rcases ih with loops | ⟨v, there, onward, crashed⟩
    · refine ((Kept.of_moves steady beats follows reachable before).loops_or_crashes last loops).imp_right ?_
      exact fun crashed => ⟨t, before, .single last, crashed⟩
    · exact .inr ⟨v, there, onward.tail last, crashed⟩

/-- Whatever has happened since the dispatcher was started, in whatever order its branches were taken: a
round starts a run, at once, only of an automation with a due task, and when all is quiet and the
dispatcher still loops, no task is due. It loops until a search of its own crashes. Rounds at one instant
come to an end, except in a leap second, when a wait may take no time. -/
theorem dispatcher_punctual {now : Nat} {s : σ} (steady : host.Steady)
    (beats : host.config.heartbeat.isZero = false) (follows : (host.clock s).follows = true)
    (reachable : (host.part.get s).Reachable)
    (moves : Relation.ReflTransGen host.Moves (host.begun now s) t) :
    (∀ {s' started}, host.Round t.now t.state s' started → ∀ job ∈ started,
      job.isDue t.now = true ∧
      ∃ a, job = ((host.execute "schedule" a).bind fun _ => .done ()) ∧
        (host.part.get t.state).agenda.automations.get? a.id = some a ∧
        ∃ key task, (host.part.get t.state).agenda.Due (host.reading t.now t.state).now key task ∧
          key.automation = a.id) ∧
    (t.isQuiet = true → (host.part.get t.state).dispatcher.isSome = true → ∀ key task,
      ¬ (host.part.get t.state).agenda.Due (host.reading t.now t.state).now key task) ∧
    ((host.part.get t.state).dispatcher = none →
      ∃ u, Relation.ReflTransGen host.Moves (host.begun now s) u ∧
        Relation.ReflTransGen host.Moves u t ∧ host.Crashes u.now u.state) ∧
    ((host.reading t.now t.state).now.isInLeapSecond = false →
      ∀ {s' started}, host.Round t.now t.state s' started →
        (host.part.get s').ready t.now < (host.part.get t.state).ready t.now) ∧
    (∀ {α : Type} {p : Process σ α}, p.Minds host.Operates → ∀ instants,
      Relation.ReflTransGen host.Moves t (t.complete p instants).2) := by
  have kept : host.Kept t := .of_moves steady beats follows reachable moves
  have orderly := kept.watchful.toOrderly
  refine ⟨?_, ?_, ?_, ?_, ?_⟩
  · intro s' started round job member
    obtain ⟨a, rfl, due⟩ := round.due orderly member
    exact ⟨rfl, a, rfl, due⟩
  · intro quiet loops key task
    exact kept.not_due quiet loops
  · intro stopped
    rcases loops_or_crashed steady beats follows reachable moves with loops | crashed
    · rw [stopped] at loops
      cases loops
    · exact crashed
  · intro outside s' started round
    exact round.ready_lt steady beats orderly outside
  · intro α p minds instants
    exact moves_complete minds t kept.services instants

/-- A house with nothing but a scheduler, in which every run takes a minute and a half. -/
def bareHouse (clock : WallClock) : SchedulerHost Scheduler where
  config := .standard
  part := .whole
  clock _ := clock
  run _ := (Process.sleep (.ofSecs 90)).bind fun _ => .done (.ok ())
  publish _ _ s := s

theorem steady_bareHouse (clock : WallClock) : (bareHouse clock).Steady := by
  refine ⟨fun _ _ => rfl, fun _ now s => .refl now s, fun a => ?_⟩
  exact (Process.Minds.now Operates.refl).bind fun _ _ => trivial

/-- One millisecond before half past six. -/
def dawn : WallClock := ⟨⟨23399, 999000000, by decide⟩, .universal, true⟩

/-- The alarm is set while the dispatcher runs. -/
def alarmSet : Timeline Scheduler :=
  let t := (bareHouse dawn).begun 0 .empty
  { t with state := (t.state.schedule ((bareHouse dawn).reading 0 t.state) Scheduler.alarm).2 }

def quietDawn : Timeline Scheduler := alarmSet.settle 3

/-- At half past six. -/
def halfPastSix : Timeline Scheduler := { quietDawn with now := quietDawn.now + 1 }

theorem dispatcher_punctual_alarm :
    (∃ s' started, (bareHouse dawn).Round halfPastSix.now halfPastSix.state s' started ∧
      started.length = 1 ∧ ∀ job ∈ started, ∃ a,
        job = (((bareHouse dawn).execute "schedule" a).bind fun _ => .done ()) ∧
        ∃ key task, halfPastSix.state.agenda.Due ⟨23400, 0, by decide⟩ key task ∧
          key.automation = a.id) ∧
    (halfPastSix.settle 3).isQuiet = true ∧ (halfPastSix.settle 3).jobs.length = 1 ∧
    ∀ key task, ¬ (halfPastSix.settle 3).state.agenda.Due ⟨23400, 0, by decide⟩ key task := by
  -- The alarm is set, the dispatcher falls asleep over it, and the last millisecond passes.
  have set : (bareHouse dawn).Moves ((bareHouse dawn).begun 0 .empty) alarmSet :=
    .operate ⟨rfl, .single (.schedule Scheduler.alarm)⟩
  have quietSet : quietDawn.isQuiet = true := by decide +kernel
  have passed : Relation.ReflTransGen (bareHouse dawn).Moves ((bareHouse dawn).begun 0 .empty)
      halfPastSix :=
    .tail (.head set (moves_settle alarmSet rfl 3)) (.pass quietSet)
  have settled := passed.trans (moves_settle halfPastSix rfl 3)
  obtain ⟨starts, -⟩ := dispatcher_punctual (steady_bareHouse dawn) rfl rfl .refl passed
  obtain ⟨-, clear, -⟩ := dispatcher_punctual (steady_bareHouse dawn) rfl rfl .refl settled
  have due : Timeline.Service.isDue (bareHouse dawn).dispatcher halfPastSix.now halfPastSix.state = true := by
    decide +kernel
  have now : halfPastSix.now = 1 := congrArg (· + 1) (Timeline.now_settle alarmSet 3)
  have still : (halfPastSix.settle 3).now = 1 := (Timeline.now_settle halfPastSix 3).trans now
  have shown (s : Scheduler) : ((bareHouse dawn).reading 1 s).now = ⟨23400, 0, by decide⟩ := by
    have time : dawn.reading 1 = ⟨23400, 0, by decide⟩ := by decide +kernel
    exact time
  have quiet : (halfPastSix.settle 3).isQuiet = true := by decide +kernel
  refine ⟨⟨_, _, round_dispatch due, by decide +kernel, ?_⟩, quiet, by decide +kernel, ?_⟩
  · intro job member
    obtain ⟨-, a, same, -, ringing⟩ := starts (round_dispatch due) job member
    rw [now, shown] at ringing
    exact ⟨a, same, ringing⟩
  · rw [still, shown] at clear
    exact clear quiet (by decide +kernel)

/-- One millisecond before half past eleven, on the last evening but one of the calendar. -/
def lastDusk : WallClock := ⟨⟨8210266788599, 999000000, by decide⟩, Scheduler.lastLeap, true⟩

/-- The vigil and the alarm are set while the dispatcher runs. -/
def vigilSet : Timeline Scheduler :=
  let t := (bareHouse lastDusk).begun 0 .empty
  let r := (bareHouse lastDusk).reading 0 t.state
  { t with state := ((t.state.schedule r Scheduler.vigil).2.schedule r Scheduler.alarm).2 }

/-- At half past eleven, when the dispatcher has made its rounds. -/
def lastNight : Timeline Scheduler :=
  let t := vigilSet.settle 3
  { t with now := t.now + 1 }.settle 3

/-- At half past six on the last morning. -/
def lastMorning : Timeline Scheduler := { lastNight with now := 25200001 }

/-- The search for another vigil crashes, which is the end of the dispatcher. In the morning the alarm is
due, all is quiet, and nobody will run it. -/
theorem dispatcher_misses_lastMorning :
    Relation.ReflTransGen (bareHouse lastDusk).Moves ((bareHouse lastDusk).begun 0 .empty) lastMorning ∧
    lastMorning.isQuiet = true ∧
    (lastMorning.state.agenda.tasks.get? ⟨Scheduler.alarm.id, 1⟩).any (fun task =>
      task.nextRun.notAfter ((bareHouse lastDusk).reading lastMorning.now lastMorning.state).now) =
        true := by
  have first : (bareHouse lastDusk).Operates 0 ((bareHouse lastDusk).begun 0 .empty).state
      vigilSet.state := by
    refine ⟨rfl, .tail (.single (.schedule Scheduler.vigil)) (.schedule Scheduler.alarm)⟩
  have quietSet : (vigilSet.settle 3).isQuiet = true := by decide +kernel
  have set : Relation.ReflTransGen (bareHouse lastDusk).Moves ((bareHouse lastDusk).begun 0 .empty)
      (vigilSet.settle 3) := .head (.operate first) (moves_settle vigilSet rfl 3)
  have passed := set.tail (.pass quietSet)
  have kept : ({ vigilSet.settle 3 with now := (vigilSet.settle 3).now + 1 } :
      Timeline Scheduler).services = [(bareHouse lastDusk).dispatcher] := services_of_moves passed
  have settled := moves_settle _ kept 3
  have night : Relation.ReflTransGen (bareHouse lastDusk).Moves
      ((bareHouse lastDusk).begun 0 .empty) lastNight := passed.trans settled
  have services : lastNight.services = [(bareHouse lastDusk).dispatcher] := services_of_moves night
  -- Nothing is left that could be carried on, whatever the time.
  have stopped : lastNight.state.dispatcher = none := by decide +kernel
  have idle : lastNight.jobs = [] := List.length_eq_zero_iff.1 (by decide +kernel)
  have quiet (n : Nat) : ({ lastNight with now := n } : Timeline Scheduler).isQuiet = true := by
    have still : Timeline.Service.isDue (bareHouse lastDusk).dispatcher n lastNight.state = false := by
      rw [← Bool.not_eq_true, isDue_dispatcher]
      rintro ⟨d, loops, -⟩
      cases stopped.symm.trans loops
    simp [Timeline.isQuiet, idle, services, still]
  refine ⟨night.trans (moves_pass lastNight ?_ fun n _ => quiet n), quiet _, by decide +kernel⟩
  have now : lastNight.now = 1 :=
    (Timeline.now_settle _ 3).trans (congrArg (· + 1) (Timeline.now_settle vigilSet 3))
  rw [now]
  decide

end SchedulerHost

end Hearth

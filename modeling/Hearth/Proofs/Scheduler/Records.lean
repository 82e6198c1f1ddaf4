import Hearth.Proofs.Execution.Conduct
import Hearth.Proofs.Scheduler.House

/-!
# Hearth.Proofs.Scheduler.Records

Every run is announced and recorded exactly once, however runs overlap.

## Main definitions

- `SchedulerHost.Tells`: what notes tell of a run.
- `SchedulerHost.Accounted`: what they have to say about its record.

## Main results

- `SchedulerHost.runs_recorded`: what is announced and recorded of runs, what calls answer, and the
  history.
- `SchedulerHost.discreet_household`: in a household it depends only on those who are told about runs.
- `SchedulerHost.runDue_records_nothing`: a call that crashes is answered with no record, whatever is due.
-/

namespace Hearth.SchedulerHost

variable {σ : Type}

/-! ### What is told of runs -/

/-- Whether something of a kind is announced. -/
def Note.announces {ι : Type} (kind : EventKind) (note : Note ι) : Bool :=
  match note.sign with
  | .announced notice => notice.kind = kind
  | _ => false

variable (host : SchedulerHost σ)

/-- What notes tell of a run at an instant. It is announced and its runner is called, and that is all as
long as there is time left. In the end there follows what the runner has returned, the failure if it is
one, and the record. -/
inductive Tells (run : Run) (now : Nat) : List (Note RunId) → Prop
  | underway (inTime : now ≤ run.deadline host) : Tells run now run.opening
  | finished {finish : Nat} {outcome : Option (Except Crash (Except Failure Unit))}
      (begun : run.since ≤ finish) (inTime : finish ≤ run.deadline host)
      (givenUp : outcome = none → finish = run.deadline host) :
      Tells run now (run.opening ++ run.closing host finish outcome)

/-- What the notes of a run have to say about its record. -/
structure Accounted (run : Run) (notes : List (Note RunId)) (record : RunRecord) : Prop where
  once : records notes = [record]
  automation : record.automation = run.automation.id
  /-- The run is a success if the runner has returned in time and has not failed. -/
  success : record.success = true ↔
    ∃ time ≤ run.deadline host, (⟨run.id, time, .returned (.ok ())⟩ : Note RunId) ∈ notes
  error : record.error.isSome = !record.success
  /-- The failure is announced once, if it is one. -/
  failed : notes.countP (Note.announces .automationFailed) = if record.success then 0 else 1

variable {host} {run : Run} {now : Nat} {notes : List (Note RunId)}

theorem Tells.triggered (tells : host.Tells run now notes) :
    notes.countP (Note.announces .automationTriggered) = 1 := by
  have opening : run.opening.countP (Note.announces .automationTriggered) = 1 := by
    simp [Run.opening, Note.announces, SchedulerHost.triggered, Notice.about]
  cases tells with
  | underway _ => exact opening
  | @finished finish outcome _ _ _ =>
    have closing : (run.closing host finish outcome).countP (Note.announces .automationTriggered) = 0 := by
      rcases outcome with _ | cause | _ | _ <;>
        simp [Run.closing, Run.answers, Run.failure, Run.record, SchedulerHost.record, runError?,
          Note.announces, SchedulerHost.failed, Notice.about]
    rw [List.countP_append, opening, closing]

theorem records_closing (finish : Nat) (outcome : Option (Except Crash (Except Failure Unit))) :
    records (run.opening ++ run.closing host finish outcome) = [run.record host finish outcome] := by
  simp only [Run.closing, records_append, Run.records_answers, Run.records_failure]
  rfl

theorem accounted_closing {finish : Nat} (inTime : finish ≤ run.deadline host)
    (outcome : Option (Except Crash (Except Failure Unit))) :
    host.Accounted run (run.opening ++ run.closing host finish outcome)
      (run.record host finish outcome) := by
  constructor
  case once => exact records_closing finish outcome
  case automation => rfl
  case success =>
    rcases outcome with _ | cause | _ | _ <;>
      simp [Run.opening, Run.closing, Run.answers, Run.failure, Run.record, SchedulerHost.record,
        runError?, inTime]
  case error =>
    rcases outcome with _ | cause | _ | _ <;> rfl
  case failed =>
    rcases outcome with _ | cause | _ | _ <;>
      simp [Run.opening, Run.closing, Run.answers, Run.failure, Run.record, SchedulerHost.record,
        runError?, Note.announces, SchedulerHost.triggered, SchedulerHost.failed, Notice.about]

theorem Tells.accounted (tells : host.Tells run now notes) {finish : Nat} {record : RunRecord}
    (told : (⟨run.id, finish, .recorded record⟩ : Note RunId) ∈ notes) : host.Accounted run notes record := by
  have entered : record ∈ records notes := List.mem_filterMap.2 ⟨_, told, rfl⟩
  cases tells with
  | underway _ => cases entered
  | finished _ inTime _ =>
    rw [records_closing, List.mem_singleton] at entered
    subst entered
    exact accounted_closing inTime _

theorem House.Kept.tells {h : House σ} {stage : RunId → Stage σ} (kept : House.Kept host h stage)
    (known : h.Knows run) : host.Tells run h.now (h.notesOf run) := by
  have sound := kept.told.sound run known
  rw [House.notesOf, kept.told.story run known]
  cases got : stage run.id with
  | asked => exact absurd got (kept.begun run known)
  | underway body =>
    rw [got] at sound
    exact .underway sound.2.1
  | finished finish outcome =>
    rw [got] at sound
    exact .finished sound.1 sound.2.1 sound.2.2

/-- A run has an answer once its record has been noted, and that is the answer. -/
theorem Stage.process_eq_done_iff {stage : Stage σ} (begun : stage ≠ .asked) {record : RunRecord} :
    stage.process host run = .done record ↔
      ∃ finish, (⟨run.id, finish, .recorded record⟩ : Note RunId) ∈ stage.story host run := by
  cases stage with
  | asked => exact absurd rfl begun
  | underway body => exact ⟨nofun, by simp [story, Run.opening]⟩
  | finished finish outcome =>
    constructor
    · intro same
      obtain rfl := Process.done.inj same
      exact ⟨finish, List.mem_append_right _ (List.mem_append_right _ (List.mem_singleton_self _))⟩
    · rintro ⟨time, noted⟩
      have entered : record ∈ records (run.opening ++ run.closing host finish outcome) :=
        List.mem_filterMap.2 ⟨_, noted, rfl⟩
      rw [records_closing, List.mem_singleton] at entered
      exact congrArg Process.done entered.symm

/-- A call is answered when its runs are over, with their records in the order in which they were asked
for. -/
theorem House.Kept.eq_done_iff {h : House σ} {stage : RunId → Stage σ} (kept : House.Kept host h stage)
    {i : Nat} {e : Errand σ} (found : h.errands[i]? = some e) {answer : List RunRecord} :
    e.left = .done answer ↔ (∀ cause, e.left ≠ .crash cause) ∧ List.Forall₂ (fun run record =>
      ∃ finish, (⟨run.id, finish, .recorded record⟩ : Note RunId) ∈ h.state.2) e.runs answer := by
  have each {run : Run} (member : run ∈ e.runs) (record : RunRecord) :
      (stage run.id).process host run = .done record ↔
        ∃ finish, (⟨run.id, finish, .recorded record⟩ : Note RunId) ∈ h.state.2 := by
    have known : h.Knows run := ⟨i, e, found, member⟩
    rw [Stage.process_eq_done_iff (kept.begun run known), ← kept.told.story run known]
    simp only [List.mem_filter, decide_true, and_true]
  rw [(kept.gathers found).eq_done_iff, ← List.forall₂_eq_eq_eq, List.forall₂_map_left_iff,
    List.forall₂_map_right_iff, List.forall₂_iff_zip, List.forall₂_iff_zip]
  refine and_congr_right fun _ => and_congr_right fun _ => forall₂_congr fun run record => ?_
  exact forall_congr' fun beside => each (List.of_mem_zip beside).1 record

/-- A call that has crashed has no runs. -/
theorem House.Kept.runs_eq_nil {h : House σ} {stage : RunId → Stage σ} (kept : House.Kept host h stage)
    {i : Nat} {e : Errand σ} (found : h.errands[i]? = some e) {cause : Crash}
    (crashed : e.left = .crash cause) : e.runs = [] := by
  have calm : ∀ p ∈ e.runs.map fun run => (stage run.id).process host run, ∀ cause, p ≠ .crash cause := by
    simp only [List.forall_mem_map]
    exact fun run _ => (stage run.id).process_ne_crash
  exact List.map_eq_nil_iff.1 ((kept.gathers found).eq_nil_of_crash calm crashed)

/-- In a household runs touch the fleet only. -/
theorem discreet_household {house : HouseholdHost σ} {config : SchedulerConfig}
    {options : ExecutionOptions} (publish : ∀ notice now s,
      (house.scheduler config (house.run options)).SparesHistory now s (house.publish notice now s)) :
    (house.scheduler config (house.run options)).Discreet := by
  refine ⟨publish, fun a => (house.minds_run options a).mono ?_⟩
  rintro now s _ ⟨fleet, rfl⟩
  have after : house.part.get (house.part.set { house.part.get s with fleet } s) =
      { house.part.get s with fleet } := house.part.get_set _ s
  exact (congrArg (fun household => household.scheduler.history) after :)

/-- However calls overlap, and whatever runners and those who are told of them do as long as they leave the
history alone: of every run the notes tell that it has been announced and its runner called, once; and
when it is over, what has become of it, which is announced if it is a failure, and recorded once. It is a
success if the runner has returned in time and has not failed, and it carries an error otherwise. A call is
answered with the records of its runs, in order; what is due is run in the order in which it is due, unless
a search crashes: then the call crashes, and nothing is run. The history is the newest of the records, in
the order in which the runs ended. -/
theorem runs_recorded (discreet : host.Discreet) {start : Nat} {s : σ}
    (fresh : (host.part.get s).history = []) {h : House σ}
    (lived : Relation.ReflTransGen (House.Moves host) (.begun start s) h) :
    (∀ run, h.Knows run → host.Tells run h.now (h.notesOf run) ∧
      (h.notesOf run).countP (Note.announces .automationTriggered) = 1 ∧
      ∀ finish record, (⟨run.id, finish, .recorded record⟩ : Note RunId) ∈ h.notesOf run →
        host.Accounted run (h.notesOf run) record) ∧
    (∀ note ∈ h.state.2, ∃ run, h.Knows run ∧ note.run = run.id) ∧
    (∀ run run', h.Knows run → h.Knows run' → run.id = run'.id → run = run') ∧
    (∀ (i : Nat) (e : Errand σ), h.errands[i]? = some e →
      (∀ cause, e.left = .crash cause → e.runs = []) ∧
      ∀ answer, e.left = .done answer ↔ (∀ cause, e.left ≠ .crash cause) ∧
        List.Forall₂ (fun run record =>
          ∃ finish, (⟨run.id, finish, .recorded record⟩ : Note RunId) ∈ h.state.2) e.runs answer) ∧
    (host.part.get h.state.1).history = newest host.config.historyCapacity (records h.state.2) ∧
    (∃ h', Relation.ReflTransGen (House.Moves host) h h' ∧ h'.now = h.now + 1) ∧
    (∀ call now (x : σ × List (Note RunId)),
      (Order.runDue.runs host call now x.1).map Run.automation = (host.takeDue now x.1).1.getD [] ∧
      ((host.takeDue now x.1).1 = none ↔
        ((Order.runDue.tracked host call).poll now x).left = .crash ⟨none⟩)) ∧
    ∀ (order : Order) call, (order.tracked host call).Follows (order.process host) := by
  -- How far each run has got is known in the beginning, when there is none, and after whatever happens.
  have kept : ∃ stage, House.Kept host h stage := by
    induction lived with
    | refl => exact ⟨_, House.kept_begun start fresh⟩
    | tail _ moves ih =>
      obtain ⟨stage, kept⟩ := ih
      exact kept.moves discreet moves
  obtain ⟨stage, kept⟩ := kept
  refine ⟨fun run known => ?_, kept.told.only, kept.named.distinct, fun i e found =>
    ⟨fun cause => kept.runs_eq_nil found, fun answer => kept.eq_done_iff found⟩,
    kept.told.chronicled, h.goes_on host, Order.runs_runDue host, Order.follows_tracked host⟩
  have tells := kept.tells known
  exact ⟨tells, tells.triggered, fun finish record told => tells.accounted told⟩

/-- A house with a short history and little patience. A runner panics, or takes a millisecond, or more
time than it has. -/
def hastyHouse : SchedulerHost Scheduler where
  config := { SchedulerConfig.standard with executionTimeout := .ofMillis 2, historyCapacity := 2 }
  part := .whole
  clock _ := ⟨⟨0, 0, Instant.zero_nanos_lt⟩, .universal, true⟩
  run a :=
    if a.name = "broken" then .crash ⟨none⟩
    else
      (Process.sleep (.ofMillis (if a.name = "slow" then 5 else 1))).bind fun _ => .done (.ok ())
  publish _ _ s := s

theorem discreet_hastyHouse : hastyHouse.Discreet := by
  refine ⟨fun _ _ _ => rfl, fun a => ?_⟩
  show (if a.name = "broken" then _ else _ : Process Scheduler _).Minds _
  split
  · exact trivial
  · have still (now : Nat) (s : Scheduler) : hastyHouse.SparesHistory now s s := rfl
    have waits := Process.Minds.sleep still (.ofMillis (if a.name = "slow" then 5 else 1))
    exact waits.bind fun _ => trivial

namespace House

def alarmNamed (name : String) : Automation := { Scheduler.alarm with name }

/-- Three runs overlap. -/
def busy : House Scheduler :=
  (((House.begun 0 .empty).ask hastyHouse (.execute "manual" (alarmNamed "slow"))).ask hastyHouse
    (.execute "manual" (alarmNamed "quick"))).ask hastyHouse (.execute "manual" (alarmNamed "broken"))

/-- A call is carried on, if there is one. -/
def goOn (h : House Scheduler) (i : Nat) : House Scheduler :=
  match h.errands[i]? with
  | some e => h.carry i e
  | none => h

def later (h : House Scheduler) : House Scheduler := { h with now := h.now + 1 }

/-- Two milliseconds later, all three are over. -/
def idle : House Scheduler := ((busy.later.goOn 1).later.goOn 0)

theorem moves_goOn (h : House Scheduler) (i : Nat) :
    Relation.ReflTransGen (Moves hastyHouse) h (h.goOn i) := by
  unfold goOn
  split
  · next e found => exact .single (.carry found)
  · exact .refl

theorem lived_idle : Relation.ReflTransGen (Moves hastyHouse) (.begun 0 .empty) idle := by
  have asked : Relation.ReflTransGen (Moves hastyHouse) (.begun 0 .empty) busy :=
    .tail (.tail (.tail .refl (.ask _)) (.ask _)) (.ask _)
  have first := (asked.tail (.pass (by decide +kernel))).trans (moves_goOn _ 1)
  exact (first.tail (.pass (by decide +kernel))).trans (moves_goOn _ 0)

end House

theorem runs_recorded_hastyHouse :
    (records House.idle.state.2).map (fun record => (record.name, record.success)) =
      [("broken", false), ("quick", true), ("slow", false)] ∧
    House.idle.state.1.history = newest 2 (records House.idle.state.2) ∧
    House.idle.errands.length = 3 ∧
    ∀ run, House.idle.Knows run →
      (House.idle.notesOf run).countP (Note.announces .automationTriggered) = 1 := by
  obtain ⟨told, -, -, -, history, -⟩ := runs_recorded discreet_hastyHouse rfl House.lived_idle
  exact ⟨by decide +kernel, history, by decide +kernel, fun run known => (told run known).2.1⟩

/-- The hasty house at noon on the last day of the calendar. -/
def lastNoonHouse : SchedulerHost Scheduler :=
  { hastyHouse with clock := fun _ => ⟨Scheduler.lastNoon.now, Scheduler.lastLeap, false⟩ }

/-- The vigil and the alarm have been set a day before. -/
def vigilAndAlarm : Scheduler :=
  ((Scheduler.empty.schedule Scheduler.lastNoonButOne Scheduler.vigil).2.schedule
    Scheduler.lastNoonButOne Scheduler.alarm).2

/-- The vigil is due, and so is the alarm with both of its triggers. The search for the next vigil crashes,
and with it the call: nothing is announced, run or recorded. -/
theorem runDue_records_nothing :
    (vigilAndAlarm.agenda.dueEntries Scheduler.lastNoon.now).length = 3 ∧
    ((Order.runDue.tracked lastNoonHouse 0).poll 0 (vigilAndAlarm, [])).left = .crash ⟨none⟩ ∧
    ((Order.runDue.tracked lastNoonHouse 0).poll 0 (vigilAndAlarm, [])).state.2.length = 0 ∧
    ((Order.runDue.tracked lastNoonHouse 0).poll 0 (vigilAndAlarm, [])).state.1.history = [] := by
  have lost : (lastNoonHouse.takeDue 0 vigilAndAlarm).1 = none :=
    Option.isNone_iff_eq_none.1 (by decide +kernel)
  exact ⟨by decide +kernel, (Order.runs_runDue lastNoonHouse 0 0 (vigilAndAlarm, [])).2.1 lost,
    by decide +kernel, by decide +kernel⟩

end Hearth.SchedulerHost

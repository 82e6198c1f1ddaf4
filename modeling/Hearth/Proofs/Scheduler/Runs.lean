import Hearth.Proofs.Process.Beside
import Hearth.Proofs.Scheduler.Watched

/-!
# Hearth.Proofs.Scheduler.Runs

How a run gets on, and what is told of it. A run is asked for, is under way as long as its runner has time
left, and is over. Each time it is carried on, the notes that are taken are what there is to tell of it in
addition.

## Main definitions

- `SchedulerHost.Run.opening` and `SchedulerHost.Run.closing`: what is told of a run when it begins, and
  when it is over.
- `SchedulerHost.Stage`: how far a run has got.
- `SchedulerHost.Told`: what has been noted is what there is to tell of each run, and the history is the
  end of it.

## Main results

- `SchedulerHost.poll_process`: what carrying a run on comes to.
- `SchedulerHost.Told.pollEach`: notes and history stay right when runs are carried on, one after the
  other.
-/

namespace Hearth

namespace Process

variable {σ α β : Type}

/-- How a race of a guarded process is decided at an instant, given what is left of the process; none if
it goes on. -/
def verdict? (instant now : Nat) : Process σ α → Option (Option (Except Crash α))
  | .done a => some (some (.ok a))
  | .crash cause => some (some (.error cause))
  | _ => if instant ≤ now then some none else none

/-- A process that still goes on is given up only when the instant has come. -/
theorem le_of_verdict? {instant now : Nat} {p : Process σ α} (lost : verdict? instant now p = some none) :
    instant ≤ now := by
  cases p
  case done a => cases lost
  case crash cause => cases lost
  all_goals
    simp only [verdict?] at lost
    split at lost
    · assumption
    · cases lost

/-- A guarded process that races an instant, and what is made of the decision. -/
theorem poll_timed (instant : Nat) (body : Process σ β) (k : Option (Except Crash β) → Process σ α)
    (now : Nat) (s : σ) :
    (Process.within instant (.guarded body .done) k).poll now s =
      match verdict? instant now (body.poll now s).left with
      | some outcome => ((k outcome).poll now (body.poll now s).state).after (body.poll now s).started
      | none =>
        ⟨.within instant (.guarded (body.poll now s).left .done) k, (body.poll now s).state,
          (body.poll now s).started⟩ := by
  rw [Process.poll, poll_guarded]
  cases (body.poll now s).left
  case done b => rfl
  case crash cause => rfl
  all_goals
    simp only [caught, verdict?]
    split
    · rfl
    · rfl

end Process

namespace SchedulerHost

variable {σ ι : Type}

/-! ### What is told of a run -/

variable (host : SchedulerHost σ)

/-- The history is left alone. -/
def SparesHistory (_now : Nat) (s s' : σ) : Prop :=
  (host.part.get s').history = (host.part.get s).history

/-- Surroundings in which neither runs nor those who are told about them touch the history. -/
structure Discreet : Prop where
  publish : ∀ notice now s, host.SparesHistory now s (host.publish notice now s)
  run : ∀ a, (host.run a).Minds host.SparesHistory

/-- The last ones of a list, so many if there are so many. -/
def newest {α : Type} (count : Nat) (xs : List α) : List α := xs.drop (xs.length - count)

def Note.record? (note : Note ι) : Option RunRecord :=
  match note.sign with
  | .recorded record => some record
  | _ => none

/-- The records of the runs that are over, in the order in which they ended. -/
def records (notes : List (Note ι)) : List RunRecord := notes.filterMap Note.record?

@[simp] theorem records_append (notes news : List (Note ι)) :
    records (notes ++ news) = records notes ++ records news := List.filterMap_append

/-- The history is the end of what has been noted. -/
def Chronicled (x : σ × List (Note ι)) : Prop :=
  (host.part.get x.1).history = newest host.config.historyCapacity (records x.2)

/-- Announces the failure of a run that has failed. -/
def announce (a : Automation) (error : Option String) (now : Nat) (s : σ) : σ :=
  match error with
  | some error => host.publish (failed a error) now s
  | none => s

theorem poll_conclude (a : Automation) (start : Nat)
    (outcome : Option (Except Crash (Except Failure Unit))) (now : Nat) (s : σ) :
    (host.conclude a start outcome).poll now s =
      ⟨.done (host.record a start now outcome),
        host.part.modify (fun s =>
          s.remember host.config.historyCapacity (host.record a start now outcome))
          (host.announce a (runError? host.config.executionTimeout outcome) now s), []⟩ := by
  unfold conclude
  cases runError? host.config.executionTimeout outcome with
  | none => rfl
  | some error => rfl

section

variable {host}

/-- A runner that is carried on leaves the history alone, and so does what is left of it. -/
theorem history_poll {body : Process σ (Except Failure Unit)} (minds : body.Minds host.SparesHistory)
    (now : Nat) (s : σ) : host.SparesHistory now s (body.poll now s).state := by
  have changed := (minds.poll now s).changed
  generalize (body.poll now s).state = s' at changed
  induction changed with
  | refl => rfl
  | tail _ same ih => exact same.trans ih

/-- To announce a failure leaves the history alone. -/
theorem Discreet.history_announce (discreet : host.Discreet) (a : Automation) (error : Option String)
    (now : Nat) (s : σ) : host.SparesHistory now s (host.announce a error now s) := by
  cases error with
  | none => rfl
  | some error => exact discreet.publish _ now s

/-- What is no record has nothing to do with the history. -/
theorem Chronicled.note {x : σ × List (Note ι)} (chronicled : host.Chronicled x) {s : σ}
    {news : List (Note ι)} {now : Nat} (same : host.SparesHistory now x.1 s) (none : records news = []) :
    host.Chronicled (s, x.2 ++ news) := by
  unfold Chronicled
  rw [records_append, none, List.append_nil]
  exact Eq.trans same chronicled

theorem newest_append {α : Type} (count : Nat) (xs : List α) (a : α) :
    newest count (newest count xs ++ [a]) = newest count (xs ++ [a]) := by
  unfold newest
  rw [← List.drop_append_of_le_length (Nat.sub_le _ _), List.drop_drop]
  congr 1
  simp only [List.length_drop, List.length_append, List.length_singleton]
  omega

/-- A record that is remembered becomes the last one of the history. -/
theorem Chronicled.remember {s : σ} {notes : List (Note ι)} (chronicled : host.Chronicled (s, notes))
    (run : ι) (time : Nat) (record : RunRecord) :
    host.Chronicled
      (host.part.modify (fun s => s.remember host.config.historyCapacity record) s,
        notes ++ [⟨run, time, .recorded record⟩]) := by
  unfold Chronicled at chronicled ⊢
  dsimp only at chronicled
  have entered : records [(⟨run, time, .recorded record⟩ : Note ι)] = [record] := rfl
  rw [host.part.get_modify, records_append, entered, Scheduler.remember]
  split
  · next none =>
    rw [chronicled, none, newest, newest, Nat.sub_zero, Nat.sub_zero, List.drop_length,
      List.drop_length]
  · rw [← newest_append, ← chronicled]
    rfl

end

namespace Run

variable (run : Run)

/-- The instant at which the time of the runner is up. -/
def deadline : Nat := run.since + host.config.executionTimeout.millisUp

def opening : List (Note RunId) :=
  [⟨run.id, run.since, .announced (triggered run.origin run.automation)⟩, ⟨run.id, run.since, .called⟩]

/-- How the run is entered into the history. -/
def record (finish : Nat) (outcome : Option (Except Crash (Except Failure Unit))) : RunRecord :=
  host.record run.automation run.since finish outcome

/-- What the runner has returned. -/
def answers (finish : Nat) : Option (Except Crash (Except Failure Unit)) → List (Note RunId)
  | some (.ok answer) => [⟨run.id, finish, .returned answer⟩]
  | _ => []

/-- What is announced of the failure. -/
def failure (finish : Nat) : Option String → List (Note RunId)
  | some error => [⟨run.id, finish, .announced (failed run.automation error)⟩]
  | none => []

def closing (finish : Nat) (outcome : Option (Except Crash (Except Failure Unit))) : List (Note RunId) :=
  run.answers finish outcome ++ run.failure finish (run.record host finish outcome).error ++
    [⟨run.id, finish, .recorded (run.record host finish outcome)⟩]

theorem own_opening : ∀ note ∈ run.opening, note.run = run.id := by
  simp [opening]

@[simp] theorem records_answers (finish : Nat)
    (outcome : Option (Except Crash (Except Failure Unit))) :
    records (run.answers finish outcome) = [] := by
  rcases outcome with _ | _ | _ <;> rfl

@[simp] theorem records_failure (finish : Nat) (error : Option String) :
    records (run.failure finish error) = [] := by
  cases error <;> rfl

end Run

/-! ### What a runner returns -/

section

variable {run : Run} {body : Process σ (Except Failure Unit)} {now : Nat} {x : σ × List (Note RunId)}

variable (run) in
theorem poll_overseen_done {answer : Except Failure Unit}
    (ended : (body.poll now x.1).left = .done answer) :
    ((overseen run.id body).poll now x).left = .done answer ∧
    ((overseen run.id body).poll now x).state =
      ((body.poll now x.1).state, x.2 ++ run.answers now (some (.ok answer))) := by
  unfold overseen
  cases Process.poll_bind body.offRecord (fun answer => do
    jot run.id (.returned answer)
    return answer) now x with
  | @on answer' ended' same =>
    rw [Process.poll_offRecord, ended] at ended'
    obtain rfl := Process.done.inj ended'
    rw [Process.bind_eq, same, Process.poll_offRecord]
    exact ⟨rfl, rfl⟩
  | short more _ =>
    rw [Process.poll_offRecord, ended] at more
    exact absurd rfl (more answer)

variable (run) in
theorem poll_overseen_more (more : ∀ answer, (body.poll now x.1).left ≠ .done answer) :
    ((overseen run.id body).poll now x).left = overseen run.id (body.poll now x.1).left ∧
    ((overseen run.id body).poll now x).state = ((body.poll now x.1).state, x.2) := by
  unfold overseen
  cases Process.poll_bind body.offRecord (fun answer => do
    jot run.id (.returned answer)
    return answer) now x with
  | @on answer ended _ =>
    rw [Process.poll_offRecord] at ended
    cases left : (body.poll now x.1).left with
    | done answer' => exact absurd left (more answer')
    | _ =>
      rw [left] at ended
      cases ended
  | short _ same =>
    rw [Process.bind_eq, same, Process.poll_offRecord]
    exact ⟨rfl, rfl⟩

/-- A runner that goes on, or panics, has returned nothing. -/
theorem answers_verdict? {left : Process σ (Except Failure Unit)}
    (more : ∀ answer, left ≠ .done answer) (instant : Nat) :
    run.answers now (Process.verdict? instant now left).join = [] := by
  cases left with
  | done answer => exact absurd rfl (more answer)
  | crash cause => rfl
  | _ =>
    simp only [Process.verdict?]
    split <;> rfl

variable (run body now x) in
/-- To oversee a runner has no influence on how its race is decided. -/
theorem poll_overseen (instant : Nat) :
    let verdict := Process.verdict? instant now (body.poll now x.1).left
    Process.verdict? instant now ((overseen run.id body).poll now x).left = verdict ∧
    (verdict = none →
      ((overseen run.id body).poll now x).left = overseen run.id (body.poll now x.1).left) ∧
    ((overseen run.id body).poll now x).state =
      ((body.poll now x.1).state, x.2 ++ run.answers now verdict.join) := by
  intro verdict
  cases left : (body.poll now x.1).left with
  | done answer =>
    obtain ⟨ended, state⟩ := poll_overseen_done run left
    have decided : verdict = some (some (.ok answer)) := by
      simp only [verdict, left, Process.verdict?]
    rw [ended, state, decided]
    exact ⟨rfl, nofun, rfl⟩
  | _ =>
    have more : ∀ answer, (body.poll now x.1).left ≠ .done answer := by
      rw [left]
      exact nofun
    obtain ⟨same, state⟩ := poll_overseen_more run more
    rw [same, state, answers_verdict? more, List.append_nil]
    refine ⟨?_, fun _ => left ▸ rfl, rfl⟩
    simp only [verdict, left]
    rfl

end

/-- How far a run has got: it has been asked for, its runner goes on, or it is over. -/
inductive Stage (σ : Type) : Type 1
  | asked
  | underway (body : Process σ (Except Failure Unit))
  | finished (finish : Nat) (outcome : Option (Except Crash (Except Failure Unit)))

namespace Stage

/-- What is told so far. -/
def story (run : Run) : Stage σ → List (Note RunId)
  | asked => []
  | underway _ => run.opening
  | finished finish outcome => run.opening ++ run.closing host finish outcome

/-- What is told when the run is over. -/
def news (run : Run) : Stage σ → List (Note RunId)
  | finished finish outcome => run.closing host finish outcome
  | _ => []

/-- What is left to do once it is known how the run went. -/
def closed (run : Run) (outcome : Option (Except Crash (Except Failure Unit))) :
    Process (σ × List (Note RunId)) RunRecord := do
  let record ← (host.watched run.id).conclude run.automation run.since outcome
  jot run.id (.recorded record)
  return record

/-- What is left of the run. -/
def process (run : Run) : Stage σ → Process (σ × List (Note RunId)) RunRecord
  | asked => host.tracked run.id run.origin run.automation
  | underway body => .within (run.deadline host) (.guarded (overseen run.id body) .done) (closed host run)
  | finished finish outcome => .done (run.record host finish outcome)

/-- How far the run gets when its runner is carried on. -/
def settle (run : Run) (now : Nat) (body : Process σ (Except Failure Unit)) (s : σ) : Stage σ :=
  match Process.verdict? (run.deadline host) now (body.poll now s).left with
  | some outcome => finished now outcome
  | none => underway (body.poll now s).left

/-- How far the run gets when it is carried on. -/
def carry (run : Run) (now : Nat) (s : σ) : Stage σ → Stage σ
  | asked =>
    settle host run now (host.run run.automation)
      (host.publish (triggered run.origin run.automation) now s)
  | underway body => settle host run now body s
  | finished finish outcome => finished finish outcome

/-- Where a run can be at an instant. A runner that has not returned by then is given up exactly when its
time is up. -/
def Sound (run : Run) (now : Nat) : Stage σ → Prop
  | asked => run.since = now
  | underway body => run.since ≤ now ∧ now ≤ run.deadline host ∧ body.Minds host.SparesHistory
  | finished finish outcome =>
    run.since ≤ finish ∧ finish ≤ run.deadline host ∧ (outcome = none → finish = run.deadline host)

variable {host} {run : Run} {now : Nat} {x : σ × List (Note RunId)}

theorem poll_closed (outcome : Option (Except Crash (Except Failure Unit))) :
    let record := run.record host now outcome
    let told := host.announce run.automation record.error now x.1
    (closed host run outcome).poll now x =
      ⟨.done record,
        (host.part.modify (fun s => s.remember host.config.historyCapacity record) told,
          x.2 ++ run.failure now record.error ++ [⟨run.id, now, .recorded record⟩]), []⟩ := by
  intro record told
  have concluded := (host.watched run.id).poll_conclude run.automation run.since outcome now x
  have error : record.error = runError? host.config.executionTimeout outcome := rfl
  cases Process.poll_bind ((host.watched run.id).conclude run.automation run.since outcome)
    (fun record => do
      jot run.id (.recorded record)
      return record) now x with
  | @on record' ended same =>
    rw [concluded] at ended
    obtain rfl := Process.done.inj ended
    rw [closed, Process.bind_eq, same, concluded]
    simp only [told, error]
    unfold announce Run.failure
    simp only [config_watched]
    cases runError? host.config.executionTimeout outcome with
    | none =>
      simp only [List.append_nil]
      rfl
    | some error => rfl
  | short more _ =>
    rw [concluded] at more
    exact absurd rfl (more _)

theorem story_settle (body : Process σ (Except Failure Unit)) (s : σ) :
    (settle host run now body s).story host run =
      run.opening ++ (settle host run now body s).news host run := by
  unfold settle
  cases Process.verdict? (run.deadline host) now (body.poll now s).left with
  | none => exact (List.append_nil _).symm
  | some outcome => rfl

/-- Whatever is told of a run bears its name. -/
theorem own_news (stage : Stage σ) : ∀ note ∈ stage.news host run, note.run = run.id := by
  cases stage with
  | finished finish outcome =>
    have answers : ∀ note ∈ run.answers finish outcome, note.run = run.id := by
      rcases outcome with _ | _ | _ <;> simp [Run.answers]
    have failure (error : Option String) : ∀ note ∈ run.failure finish error, note.run = run.id := by
      cases error <;> simp [Run.failure]
    simp only [news, Run.closing, List.forall_mem_append, List.forall_mem_singleton, and_true]
    exact ⟨answers, failure _⟩
  | _ => exact nofun

variable (run now x) in
/-- A run whose runner is carried on gets as far as that, and what is told of it in addition is noted. -/
theorem poll_underway (body : Process σ (Except Failure Unit)) :
    let stage := settle host run now body x.1
    let p := (process host run (.underway body)).poll now x
    p.left = stage.process host run ∧ p.state.2 = x.2 ++ stage.news host run ∧
      (host.Discreet → body.Minds host.SparesHistory → host.Chronicled x → host.Chronicled p.state) := by
  intro stage p
  -- The race is decided as it would be without notes, and only what is left to do tells of it.
  obtain ⟨same, left, state⟩ := poll_overseen run body now x (run.deadline host)
  have timed : p = _ := Process.poll_timed (run.deadline host) (overseen run.id body)
    (closed host run) now x
  rw [same] at timed
  cases decided : Process.verdict? (run.deadline host) now (body.poll now x.1).left with
  | none =>
    have goesOn : stage = .underway (body.poll now x.1).left := by
      simp only [stage, settle, decided]
    rw [decided] at timed left state
    rw [timed, goesOn, state]
    dsimp only
    rw [left rfl]
    refine ⟨rfl, rfl, fun _ minds chronicled => ?_⟩
    exact chronicled.note (history_poll minds now _) rfl
  | some outcome =>
    have finished : stage = .finished now outcome := by
      simp only [stage, settle, decided]
    rw [decided] at timed state
    rw [timed, finished, state]
    dsimp only
    rw [poll_closed]
    refine ⟨rfl, ?_, fun discreet minds chronicled => ?_⟩
    · simp only [Process.Progress.after, news, Run.closing, List.append_assoc, Option.join_some]
    · have told := (chronicled.note (history_poll minds now _) (run.records_answers now outcome)).note
        (discreet.history_announce run.automation (run.record host now outcome).error now _)
        (run.records_failure now (run.record host now outcome).error)
      exact told.remember run.id now (run.record host now outcome)

/-- A run that has been asked for begins: it is announced, and its runner is called. -/
theorem poll_asked :
    let begun : Run := { run with since := now }
    (process host run .asked).poll now x =
      (process host begun (.underway (host.run run.automation))).poll now
        (host.publish (triggered run.origin run.automation) now x.1, x.2 ++ begun.opening) := by
  intro begun
  let announced : σ × List (Note RunId) :=
    (host.watched run.id).publish (triggered run.origin run.automation) now x
  have called : ((host.watched run.id).run run.automation).poll now announced =
      (overseen run.id (host.run run.automation)).poll now (announced.1, x.2 ++ begun.opening) := by
    have noted : announced.2 ++ [(⟨run.id, now, .called⟩ : Note RunId)] = x.2 ++ begun.opening := by
      simp only [announced, watched, List.append_assoc]
      rfl
    rw [← noted]
    rfl
  have raced : (process host run .asked).poll now x =
      (Process.within (begun.deadline host) (.guarded ((host.watched run.id).run run.automation) .done)
        (closed host begun)).poll now announced := by
    rfl
  rw [raced, process, Process.poll_timed, Process.poll_timed, called]
  rfl

variable (run now x) in
theorem poll_process (stage : Stage σ) (begun : stage = .asked → run.since = now) :
    let stage' := stage.carry host run now x.1
    let p := (stage.process host run).poll now x
    p.left = stage'.process host run ∧
    (∃ news, p.state.2 = x.2 ++ news ∧ stage'.story host run = stage.story host run ++ news ∧
      ∀ note ∈ news, note.run = run.id) ∧
    (host.Discreet → stage.Sound host run now → host.Chronicled x → host.Chronicled p.state) := by
  intro stage' p
  cases stage with
  | asked =>
    obtain rfl := begun rfl
    let announced := host.publish (triggered run.origin run.automation) run.since x.1
    obtain ⟨left, noted, kept⟩ := poll_underway run run.since
      (announced, x.2 ++ run.opening) (host.run run.automation)
    have same : p = _ := poll_asked
    rw [same]
    refine ⟨left, ⟨run.opening ++ stage'.news host run, ?_, ?_, ?_⟩, fun discreet _ chronicled => ?_⟩
    · rw [noted, List.append_assoc]
      rfl
    · exact story_settle _ _
    · exact List.forall_mem_append.2 ⟨run.own_opening, own_news _⟩
    · exact kept discreet (discreet.run _)
        (chronicled.note (discreet.publish _ run.since x.1) rfl)
  | underway body =>
    obtain ⟨left, noted, kept⟩ := poll_underway run now x body
    refine ⟨left, ⟨stage'.news host run, noted, story_settle _ _, own_news _⟩, ?_⟩
    intro discreet sound chronicled
    exact kept discreet sound.2.2 chronicled
  | finished finish outcome =>
    exact ⟨rfl, ⟨[], (List.append_nil _).symm, (List.append_nil _).symm, nofun⟩, fun _ _ => id⟩

theorem carry_ne_asked (stage : Stage σ) (s : σ) : stage.carry host run now s ≠ .asked := by
  have settled (body : Process σ (Except Failure Unit)) (s : σ) :
      settle host run now body s ≠ .asked := by
    unfold settle
    split <;> exact nofun
  cases stage with
  | asked => exact settled _ _
  | underway body => exact settled _ _
  | finished finish outcome => exact nofun

theorem Sound.carry (discreet : host.Discreet) {stage : Stage σ} (sound : stage.Sound host run now)
    (s : σ) : (stage.carry host run now s).Sound host run now := by
  have settled {body : Process σ (Except Failure Unit)} (s : σ) (begun : run.since ≤ now)
      (inTime : now ≤ run.deadline host) (minds : body.Minds host.SparesHistory) :
      (settle host run now body s).Sound host run now := by
    unfold settle
    cases decided : Process.verdict? (run.deadline host) now (body.poll now s).left with
    | none => exact ⟨begun, inTime, (minds.poll now s).left⟩
    | some outcome =>
      refine ⟨begun, inTime, ?_⟩
      -- A runner is asked before the time is looked at, so it is not given up before its time is up.
      rintro rfl
      exact Nat.le_antisymm inTime (Process.le_of_verdict? decided)
  cases stage with
  | asked =>
    obtain rfl : run.since = now := sound
    exact settled _ (Nat.le_refl _) (Nat.le_add_right _ _) (discreet.run _)
  | underway body => exact settled s sound.1 sound.2.1 sound.2.2
  | finished finish outcome => exact sound

/-- What cannot be carried on yet stays where it can be. -/
theorem Sound.pass {stage : Stage σ} (sound : stage.Sound host run now) (begun : stage ≠ .asked)
    (early : (stage.process host run).isDue now = false) : stage.Sound host run (now + 1) := by
  cases stage with
  | asked => exact absurd rfl begun
  | underway body =>
    have waits : (decide (run.deadline host ≤ now) || _) = false :=
      (Process.isDue_within _ _ _ now).symm.trans early
    have ahead := of_decide_eq_false (Bool.or_eq_false_iff.1 waits).1
    exact ⟨Nat.le_succ_of_le sound.1, Nat.lt_of_not_le ahead, sound.2.2⟩
  | finished finish outcome => exact sound

theorem process_ne_crash (stage : Stage σ) (cause : Crash) : stage.process host run ≠ .crash cause := by
  cases stage <;> exact nofun

/-- Runs that get no further are left as they are. -/
theorem map_process_congr {stage stage' : RunId → Stage σ} {runs : List Run}
    (same : ∀ run ∈ runs, stage' run.id = stage run.id) :
    (runs.map fun run => (stage' run.id).process host run) =
      runs.map fun run => (stage run.id).process host run :=
  List.map_congr_left fun run member => by rw [same run member]

/-- Whenever it is carried on, a run does not crash. -/
theorem calm_process (stage : Stage σ) : (stage.process host run).Calm := by
  intro now x cause
  cases stage with
  | asked =>
    rw [poll_asked, (poll_underway _ _ _ _).1]
    exact process_ne_crash _ cause
  | underway body =>
    rw [(poll_underway run _ _ body).1]
    exact process_ne_crash _ cause
  | finished finish outcome => exact nofun

end Stage

/-! ### Notes and history -/

/-- At an instant, what has been noted is what there is to tell of each run that is known, each of which has
got as far as `stage` says; and the history is the end of it. -/
structure Told (now : Nat) (x : σ × List (Note RunId)) (stage : RunId → Stage σ) (known : Run → Prop) :
    Prop where
  story : ∀ run, known run →
    x.2.filter (fun note => note.run = run.id) = (stage run.id).story host run
  sound : ∀ run, known run → (stage run.id).Sound host run now
  only : ∀ note ∈ x.2, ∃ run, known run ∧ note.run = run.id
  chronicled : host.Chronicled x

section

variable {host} {now : Nat} {x : σ × List (Note RunId)} {stage : RunId → Stage σ} {known : Run → Prop}

/-- A run that is carried on keeps to its own notes. -/
theorem Told.carry (told : host.Told now x stage known) (discreet : host.Discreet)
    (distinct : ∀ run run', known run → known run' → run.id = run'.id → run = run') {run : Run}
    (member : known run) :
    let stage' := (stage run.id).carry host run now x.1
    let p := ((stage run.id).process host run).poll now x
    p.left = stage'.process host run ∧
      host.Told now p.state (Function.update stage run.id stage') known := by
  intro stage' p
  have sound := told.sound run member
  obtain ⟨left, ⟨news, noted, story, own⟩, kept⟩ := (stage run.id).poll_process run now x fun asked => by
    rw [asked] at sound
    exact sound
  refine ⟨left, ?_, ?_, ?_, kept discreet sound told.chronicled⟩
  · intro other among
    rw [noted, List.filter_append, told.story other among]
    by_cases same : other.id = run.id
    · obtain rfl := distinct _ _ among member same
      rw [Function.update_self, story]
      congr 1
      exact List.filter_eq_self.2 fun note new => decide_eq_true (own note new)
    · rw [Function.update_of_ne same]
      have none : news.filter (fun note => note.run = other.id) = [] :=
        List.filter_eq_nil_iff.2 fun note new => by
          rw [own note new]
          simp [Ne.symm same]
      rw [none, List.append_nil]
  · intro other among
    by_cases same : other.id = run.id
    · obtain rfl := distinct _ _ among member same
      rw [Function.update_self]
      exact sound.carry discreet x.1
    · rw [Function.update_of_ne same]
      exact told.sound other among
  · intro note among
    rw [noted] at among
    rcases List.mem_append.1 among with earlier | new
    · exact told.only note earlier
    · exact ⟨run, member, own note new⟩

/-- Any number of runs can be carried on, one after the other. -/
theorem Told.pollEach (told : host.Told now x stage known) (discreet : host.Discreet)
    (distinct : ∀ run run', known run → known run' → run.id = run'.id → run = run') {runs : List Run}
    (among : ∀ run ∈ runs, known run) (once : (runs.map Run.id).Nodup) :
    let polled := Process.pollEach now (runs.map fun run => (stage run.id).process host run) x
    ∃ stage' : RunId → Stage σ,
      polled.1 = runs.map (fun run => (stage' run.id).process host run) ∧
      host.Told now polled.2 stage' known ∧
      (∀ id ∉ runs.map Run.id, stage' id = stage id) ∧
      ∀ run ∈ runs, stage' run.id ≠ .asked := by
  induction runs generalizing x stage with
  | nil => exact ⟨stage, rfl, told, fun _ _ => rfl, nofun⟩
  | cons run rest ih =>
    obtain ⟨here, others⟩ := List.forall_mem_cons.1 among
    obtain ⟨absent, once⟩ := List.nodup_cons.1 once
    obtain ⟨left, told'⟩ := told.carry discreet distinct here
    -- The others have got no further yet.
    let stage₁ := Function.update stage run.id ((stage run.id).carry host run now x.1)
    have same : (rest.map fun run => (stage₁ run.id).process host run) =
        rest.map fun run => (stage run.id).process host run :=
      Stage.map_process_congr fun other member => Function.update_of_ne
        (fun named => absent (List.mem_map.2 ⟨other, member, named⟩)) _ _
    obtain ⟨stage', each, told'', untouched, begun⟩ := ih told' others once
    rw [same] at each told''
    have first : stage' run.id = (stage run.id).carry host run now x.1 := by
      rw [untouched run.id absent, Function.update_self]
    refine ⟨stage', ?_, ?_, ?_, ?_⟩
    · rw [List.map_cons, List.map_cons, Process.pollEach, left, each, first]
    · exact told''
    · intro id free
      rw [List.map_cons, List.mem_cons, not_or] at free
      rw [untouched id free.2, Function.update_of_ne free.1]
    · refine List.forall_mem_cons.2 ⟨?_, begun⟩
      rw [first]
      exact Stage.carry_ne_asked _ x.1

end

end SchedulerHost

end Hearth

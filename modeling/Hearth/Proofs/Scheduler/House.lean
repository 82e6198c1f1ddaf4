import Hearth.Proofs.Scheduler.Dispatch
import Hearth.Proofs.Scheduler.Runs
import Mathlib.Data.List.Nodup

/-!
# Hearth.Proofs.Scheduler.House

Calls that overlap. A call is the runs that were asked for, side by side, so to carry a call on is to carry
its runs on, one after the other. Runs have different names, and none takes notes under the name of another.

## Main definitions

- `SchedulerHost.House`: the calls that a scheduler has got, with what is left of each of them, and
  everything that has been noted.
- `SchedulerHost.House.Moves`: one thing that happens in a house.
- `SchedulerHost.House.Kept`: the notes tell of each run how far it has got.

## Main results

- `SchedulerHost.House.Kept.moves`: that is so whatever happens.
- `SchedulerHost.House.goes_on`: time goes on.
-/

namespace Hearth.SchedulerHost

variable {σ : Type}

/-! ### Orders -/

namespace Order

variable (host : SchedulerHost σ)

/-- What is left when the runs of an order are known: those that are due have been taken. -/
def taken (now : Nat) (s : σ) : Order → σ
  | execute _ _ => s
  | runDue => (host.takeDue now s).2

theorem spares_taken (order : Order) (now : Nat) (s : σ) :
    host.SparesHistory now s (order.taken host now s) := by
  cases order with
  | execute origin a => exact rfl
  | runDue =>
    have history : ((host.part.get s).takeDue (host.reading now s)).2.history =
        (host.part.get s).history := by
      unfold Scheduler.takeDue
      generalize (host.part.get s).agenda.takeDue _ = taken
      rfl
    rw [SparesHistory, taken, takeDue_eq, host.part.get_set, history]

theorem calm_runs (order : Order) (call now : Nat) (s : σ) :
    ∀ p ∈ (order.runs host call now s).map fun run => Stage.asked.process host run, p.Calm := by
  simp only [List.forall_mem_map]
  exact fun run _ => Stage.calm_process _

/-- What is due begins side by side. -/
theorem poll_tracked_runDue {now : Nat} {x : σ × List (Note RunId)} {due : List Automation}
    (answered : (host.takeDue now x.1).1 = some due) (call : Nat) :
    let polled := Process.pollEach now
      ((runDue.runs host call now x.1).map fun run => Stage.asked.process host run)
      (runDue.taken host now x.1, x.2)
    ((runDue.tracked host call).poll now x).left = Process.gathered polled.1 ∧
      ((runDue.tracked host call).poll now x).state = polled.2 := by
  have each : ((runDue.runs host call now x.1).map fun run => Stage.asked.process host run) =
      due.zipIdx.map fun entry => host.tracked ⟨call, entry.2⟩ "schedule" entry.1 := by
    rw [runs, List.map_map, answered]
    rfl
  have begun : (runDue.tracked host call).poll now x =
      (Process.together ((runDue.runs host call now x.1).map fun run =>
        Stage.asked.process host run)).poll now (runDue.taken host now x.1, x.2) := by
    rw [each, tracked, Process.poll_attempt]
    simp only [answered]
    rfl
  rw [begun]
  exact Process.poll_together (runDue.calm_runs host call now x.1) now _

/-- An order begins by carrying its runs on, one after the other. -/
theorem poll_tracked (order : Order) (call now : Nat) (x : σ × List (Note RunId)) :
    let polled := Process.pollEach now
      ((order.runs host call now x.1).map fun run => Stage.asked.process host run)
      (order.taken host now x.1, x.2)
    ((order.tracked host call).poll now x).left.Gathers polled.1 ∧
      ((order.tracked host call).poll now x).state = polled.2 := by
  cases order with
  | execute origin a =>
    rw [tracked, Process.poll_map]
    exact ⟨.alone _, rfl⟩
  | runDue =>
    cases answered : (host.takeDue now x.1).1 with
    | none =>
      -- If a search crashes, no run has been asked for.
      have none : runDue.runs host call now x.1 = [] := by simp [runs, answered]
      rw [tracked, Process.poll_attempt, none]
      simp only [answered]
      exact ⟨.crash _, rfl⟩
    | some due =>
      obtain ⟨left, state⟩ := poll_tracked_runDue host answered call
      rw [left, state]
      exact ⟨.all _, rfl⟩

theorem call_of_mem_runs {order : Order} {call now : Nat} {s : σ} {run : Run}
    (member : run ∈ order.runs host call now s) : run.id.call = call ∧ run.since = now := by
  cases order with
  | execute origin a =>
    obtain rfl := List.mem_singleton.1 member
    exact ⟨rfl, rfl⟩
  | runDue =>
    obtain ⟨_, -, rfl⟩ := List.mem_map.1 member
    exact ⟨rfl, rfl⟩

/-- What is due is run in the order in which it is due, unless a search crashes. Then the call crashes, and
nothing is run. -/
theorem runs_runDue (call now : Nat) (x : σ × List (Note RunId)) :
    (runDue.runs host call now x.1).map Run.automation = (host.takeDue now x.1).1.getD [] ∧
    ((host.takeDue now x.1).1 = none ↔
      ((runDue.tracked host call).poll now x).left = .crash ⟨none⟩) := by
  refine ⟨?_, ?_, ?_⟩
  · rw [runs, List.map_map]
    exact List.zipIdx_map_fst 0 _
  · intro lost
    rw [tracked, Process.poll_attempt]
    simp only [lost]
  · intro crashed
    cases answered : (host.takeDue now x.1).1 with
    | none => rfl
    | some due =>
      have calm := Process.pollEach_ne_crash (runDue.calm_runs host call now x.1) now
        (runDue.taken host now x.1, x.2)
      rw [(poll_tracked_runDue host answered call).1] at crashed
      exact absurd crashed (Process.gathered_ne_crash calm _)

theorem nodup_runs (order : Order) (call now : Nat) (s : σ) :
    ((order.runs host call now s).map Run.id).Nodup := by
  cases order with
  | execute origin a => exact List.nodup_singleton _
  | runDue =>
    have places : (runDue.runs host call now s).map Run.id =
        (((host.takeDue now s).1.getD []).zipIdx.map Prod.snd).map fun place => ⟨call, place⟩ := by
      rw [runs, List.map_map, List.map_map]
      rfl
    rw [places, List.zipIdx_map_snd]
    exact List.Nodup.map (fun _ _ same => congrArg RunId.place same) List.nodup_range'

end Order

/-! ### A house -/

/-- A call: what it asks for, the runs of that, and what is left to do. -/
structure Errand (σ : Type) where
  order : Order
  runs : List Run
  left : Process (σ × List (Note RunId)) (List RunRecord)

/-- What goes on in a house: the time, the state and the notes, and the calls in the order in which they
came. -/
structure House (σ : Type) where
  now : Nat
  state : σ × List (Note RunId)
  errands : List (Errand σ)

namespace House

def begun (now : Nat) (s : σ) : House σ := ⟨now, (s, []), []⟩

/-- A run that has been asked for. -/
def Knows (h : House σ) (run : Run) : Prop := ∃ (i : Nat) (e : Errand σ), h.errands[i]? = some e ∧ run ∈ e.runs

/-- The notes of a run. -/
def notesOf (h : House σ) (run : Run) : List (Note RunId) :=
  h.state.2.filter fun note => note.run = run.id

variable (host : SchedulerHost σ)

/-- A call that comes is at once carried on as far as it gets. -/
def begin (h : House σ) (order : Order) : Process.Progress (σ × List (Note RunId)) (List RunRecord) :=
  (order.tracked host h.errands.length).poll h.now h.state

def errand (h : House σ) (order : Order) : Errand σ :=
  ⟨order, order.runs host h.errands.length h.now h.state.1, (h.begin host order).left⟩

def ask (h : House σ) (order : Order) : House σ :=
  { h with state := (h.begin host order).state, errands := h.errands ++ [h.errand host order] }

/-- A call is carried on. -/
def carry (h : House σ) (i : Nat) (e : Errand σ) : House σ :=
  let carried := e.left.poll h.now h.state
  { h with state := carried.state, errands := h.errands.set i { e with left := carried.left } }

/-- One thing that happens: a call comes, a call is carried on, others do what they like apart from the
history (and so do processes that a runner has started), or a millisecond passes. It passes only when no
call can be carried on. -/
inductive Moves (h : House σ) : House σ → Prop
  | ask (order : Order) : Moves h (h.ask host order)
  | carry {i : Nat} {e : Errand σ} (found : h.errands[i]? = some e) : Moves h (h.carry i e)
  | operate {s : σ} (spares : host.SparesHistory h.now h.state.1 s) :
      Moves h { h with state := (s, h.state.2) }
  | pass (quiet : ∀ e ∈ h.errands, e.left.isDue h.now = false) : Moves h { h with now := h.now + 1 }

variable {host} {h h' : House σ} {stage : RunId → Stage σ}

/-- A call is one that was there before, or it is the new one. -/
theorem exists_of_ask {order : Order} {i : Nat} {e : Errand σ}
    (found : (h.ask host order).errands[i]? = some e) :
    h.errands[i]? = some e ∨ i = h.errands.length ∧ e = h.errand host order := by
  rw [ask, List.getElem?_append] at found
  split at found
  · exact .inl found
  · next late =>
    have last := (List.getElem?_eq_some_iff.1 found).1
    rw [List.length_singleton] at last
    exact .inr ⟨by omega, List.mem_singleton.1 (List.mem_of_getElem? found)⟩

theorem knows_ask (order : Order) (run : Run) :
    (h.ask host order).Knows run ↔
      h.Knows run ∨ run ∈ order.runs host h.errands.length h.now h.state.1 := by
  constructor
  · rintro ⟨i, e, found, member⟩
    rcases exists_of_ask found with found | ⟨-, rfl⟩
    · exact .inl ⟨i, e, found, member⟩
    · exact .inr member
  · rintro (⟨i, e, found, member⟩ | member)
    · refine ⟨i, e, ?_, member⟩
      rw [ask, List.getElem?_append_left (List.getElem?_eq_some_iff.1 found).1]
      exact found
    · refine ⟨h.errands.length, h.errand host order, ?_, member⟩
      rw [ask, List.getElem?_append_right (Nat.le_refl _), Nat.sub_self]
      rfl

/-- The runs of a call stay the same. -/
theorem exists_of_carry {i j : Nat} {e e' : Errand σ} (found : h.errands[i]? = some e)
    (found' : (h.carry i e).errands[j]? = some e') :
    ∃ formerly, h.errands[j]? = some formerly ∧ e'.runs = formerly.runs ∧
      if j = i then formerly = e ∧ e'.left = (e.left.poll h.now h.state).left else e' = formerly := by
  have bound := (List.getElem?_eq_some_iff.1 found).1
  rw [carry, List.getElem?_set] at found'
  by_cases same : i = j
  · subst same
    simp only [↓reduceIte, bound, Option.some.injEq] at found'
    subst found'
    exact ⟨e, found, rfl, by simp⟩
  · rw [if_neg same] at found'
    exact ⟨e', found', rfl, by simp [Ne.symm same]⟩

theorem knows_of_carry {i : Nat} {e : Errand σ} (found : h.errands[i]? = some e) {run : Run}
    (known : (h.carry i e).Knows run) : h.Knows run := by
  obtain ⟨j, e', found', member⟩ := known
  obtain ⟨formerly, before, runs, -⟩ := exists_of_carry found found'
  exact ⟨j, formerly, before, runs ▸ member⟩

theorem knows_carry {i : Nat} {e : Errand σ} (found : h.errands[i]? = some e) :
    (h.carry i e).Knows = h.Knows := by
  refine funext fun run => propext ⟨knows_of_carry found, ?_⟩
  rintro ⟨j, e', found', member⟩
  have bound : j < (h.carry i e).errands.length := by
    simpa [carry] using (List.getElem?_eq_some_iff.1 found').1
  obtain ⟨formerly, before, runs, -⟩ := exists_of_carry found (List.getElem?_eq_getElem bound)
  obtain rfl := Option.some.inj (found'.symm.trans before)
  exact ⟨j, _, List.getElem?_eq_getElem bound, runs ▸ member⟩

/-- The name of a run says which call it comes from, and there is no other run of that name. -/
structure Named (h : House σ) : Prop where
  call : ∀ {i : Nat} {e : Errand σ}, h.errands[i]? = some e → ∀ run ∈ e.runs, run.id.call = i
  once : ∀ {i : Nat} {e : Errand σ}, h.errands[i]? = some e → (e.runs.map Run.id).Nodup

theorem Named.distinct (named : h.Named) (run run' : Run) (known : h.Knows run)
    (known' : h.Knows run') (same : run.id = run'.id) : run = run' := by
  obtain ⟨i, e, found, member⟩ := known
  obtain ⟨j, e', found', member'⟩ := known'
  have one : i = j := by
    rw [← named.call found run member, ← named.call found' run' member', same]
  subst one
  obtain rfl := Option.some.inj (found.symm.trans found')
  exact List.inj_on_of_nodup_map (named.once found) member member' same

theorem Named.call_lt (named : h.Named) {run : Run} (known : h.Knows run) :
    run.id.call < h.errands.length := by
  obtain ⟨i, e, found, member⟩ := known
  rw [named.call found run member]
  exact (List.getElem?_eq_some_iff.1 found).1

theorem Named.ask (named : h.Named) (order : Order) : (h.ask host order).Named := by
  constructor
  · intro i e found
    rcases exists_of_ask found with found | ⟨rfl, rfl⟩
    · exact named.call found
    · exact fun run member => (Order.call_of_mem_runs host member).1
  · intro i e found
    rcases exists_of_ask found with found | ⟨rfl, rfl⟩
    · exact named.once found
    · exact order.nodup_runs host _ _ _

theorem Named.carry (named : h.Named) {i : Nat} {e : Errand σ} (found : h.errands[i]? = some e) :
    (h.carry i e).Named := by
  constructor
  · intro j e' found'
    obtain ⟨formerly, before, runs, -⟩ := exists_of_carry found found'
    rw [runs]
    exact named.call before
  · intro j e' found'
    obtain ⟨formerly, before, runs, -⟩ := exists_of_carry found found'
    rw [runs]
    exact named.once before

variable (host) in
/-- Each call is what is left of its runs, which have got as far as `stage` says, and the notes tell how far
that is. -/
structure Kept (h : House σ) (stage : RunId → Stage σ) : Prop where
  named : h.Named
  told : host.Told h.now h.state stage h.Knows
  gathers : ∀ {i : Nat} {e : Errand σ}, h.errands[i]? = some e →
    e.left.Gathers (e.runs.map fun run => (stage run.id).process host run)
  begun : ∀ run, h.Knows run → stage run.id ≠ .asked

/-! ### Whatever happens -/

theorem kept_begun (now : Nat) {s : σ} (fresh : (host.part.get s).history = []) :
    Kept host (House.begun now s) fun _ => .asked := by
  have none {i : Nat} {e : Errand σ} : (House.begun now s).errands[i]? ≠ some e := by
    simp [House.begun]
  have nobody (run : Run) : ¬ (House.begun now s).Knows run := fun ⟨_, _, found, _⟩ => none found
  constructor
  case named => exact ⟨fun found => absurd found none, fun found => absurd found none⟩
  case gathers => exact fun found => absurd found none
  case begun => exact fun run known => absurd known (nobody run)
  case told =>
    constructor
    case chronicled => exact fresh.trans List.drop_nil.symm
    case only => exact fun note among => absurd among List.not_mem_nil
    all_goals exact fun run known => absurd known (nobody run)

/-- A new call changes nothing about the others. -/
theorem Kept.ask (kept : Kept host h stage) (discreet : host.Discreet) (order : Order) :
    ∃ stage', Kept host (h.ask host order) stage' := by
  let runs := order.runs host h.errands.length h.now h.state.1
  have new {run : Run} (member : run ∈ runs) : run.id.call = h.errands.length ∧ run.since = h.now :=
    Order.call_of_mem_runs host member
  have old {run : Run} (known : h.Knows run) : run.id.call < h.errands.length :=
    kept.named.call_lt known
  -- The new runs have been asked for, and nothing is told of them yet. So the notes tell the same as
  -- before, and then the new runs are carried on.
  let stage₀ : RunId → Stage σ := fun id => if id.call = h.errands.length then .asked else stage id
  have asked {run : Run} (member : run ∈ runs) : stage₀ run.id = .asked := if_pos (new member).1
  have same {run : Run} (known : h.Knows run) : stage₀ run.id = stage run.id :=
    if_neg (Nat.ne_of_lt (old known))
  have told : host.Told h.now (order.taken host h.now h.state.1, h.state.2) stage₀
      (h.ask host order).Knows := by
    constructor
    case story =>
      intro run known
      rcases (knows_ask order run).1 known with known | member
      · rw [same known]
        exact kept.told.story run known
      · rw [asked member]
        refine List.filter_eq_nil_iff.2 fun note among own => ?_
        obtain ⟨other, known, owner⟩ := kept.told.only note among
        have apart := old known
        rw [← owner, of_decide_eq_true own, (new member).1] at apart
        exact Nat.lt_irrefl _ apart
    case sound =>
      intro run known
      rcases (knows_ask order run).1 known with known | member
      · rw [same known]
        exact kept.told.sound run known
      · rw [asked member]
        exact (new member).2
    case only =>
      intro note among
      obtain ⟨run, known, owner⟩ := kept.told.only note among
      exact ⟨run, (knows_ask order run).2 (.inl known), owner⟩
    case chronicled => exact Eq.trans (order.spares_taken host h.now h.state.1) kept.told.chronicled
  obtain ⟨gathers, state⟩ := order.poll_tracked host h.errands.length h.now h.state
  have named : (h.ask host order).Named := kept.named.ask order
  obtain ⟨stage', each, told', untouched, begun⟩ := told.pollEach discreet named.distinct
    (fun run member => (knows_ask order run).2 (.inr member)) (order.nodup_runs host _ _ _)
  have begins : (runs.map fun run => (stage₀ run.id).process host run) =
      runs.map fun run => Stage.asked.process host run :=
    List.map_congr_left fun run member => by rw [asked member]
  rw [begins] at each told'
  have before {run : Run} (known : h.Knows run) : stage' run.id = stage run.id := by
    rw [untouched, same known]
    intro among
    obtain ⟨other, member, one⟩ := List.mem_map.1 among
    exact absurd (one ▸ (new member).1) (Nat.ne_of_lt (old known))
  refine ⟨stage', named, ?_, ?_, ?_⟩
  · rw [← state] at told'
    exact told'
  · intro i e found
    rcases exists_of_ask found with found | ⟨rfl, rfl⟩
    · rw [Stage.map_process_congr fun run member => before ⟨i, e, found, member⟩]
      exact kept.gathers found
    · rw [each] at gathers
      exact gathers
  · intro run known
    rcases (knows_ask order run).1 known with known | member
    · rw [before known]
      exact kept.begun run known
    · exact begun run member

theorem Kept.operate (kept : Kept host h stage) {s : σ}
    (spares : host.SparesHistory h.now h.state.1 s) :
    Kept host { h with state := (s, h.state.2) } stage := by
  refine ⟨⟨kept.named.call, kept.named.once⟩, { kept.told with chronicled := ?_ }, kept.gathers,
    kept.begun⟩
  exact Eq.trans spares kept.told.chronicled

theorem Kept.pass (kept : Kept host h stage)
    (quiet : ∀ e ∈ h.errands, e.left.isDue h.now = false) :
    Kept host { h with now := h.now + 1 } stage := by
  refine ⟨⟨kept.named.call, kept.named.once⟩, { kept.told with sound := ?_ }, kept.gathers,
    kept.begun⟩
  rintro run ⟨i, e, found, member⟩
  have early := quiet e (List.mem_of_getElem? found)
  rw [(kept.gathers found).isDue (by
    simp only [List.forall_mem_map]
    exact fun run _ => (stage run.id).process_ne_crash), List.any_map, List.any_eq_false] at early
  exact (kept.told.sound run ⟨i, e, found, member⟩).pass (kept.begun run ⟨i, e, found, member⟩)
    (Bool.eq_false_iff.2 (early run member))

theorem Kept.carry (kept : Kept host h stage) (discreet : host.Discreet) {i : Nat} {e : Errand σ}
    (found : h.errands[i]? = some e) : ∃ stage', Kept host (h.carry i e) stage' := by
  have calm : ∀ p ∈ e.runs.map fun run => (stage run.id).process host run, p.Calm := by
    simp only [List.forall_mem_map]
    exact fun run _ => (stage run.id).calm_process
  obtain ⟨gathers, state⟩ := (kept.gathers found).poll calm h.now h.state
  obtain ⟨stage', each, told, untouched, begun⟩ := kept.told.pollEach discreet kept.named.distinct
    (fun run member => ⟨i, e, found, member⟩) (kept.named.once found)
  -- The runs of other calls have other names.
  have elsewhere {j : Nat} {e' : Errand σ} (found' : h.errands[j]? = some e') (apart : j ≠ i)
      (run : Run) (member : run ∈ e'.runs) : stage' run.id = stage run.id := by
    refine untouched run.id fun among => apart ?_
    obtain ⟨other, member', same⟩ := List.mem_map.1 among
    rw [← kept.named.call found' run member, ← kept.named.call found other member', same]
  refine ⟨stage', kept.named.carry found, ?_, ?_, ?_⟩
  · rw [knows_carry found]
    rw [← state] at told
    exact told
  · intro j e' found'
    obtain ⟨formerly, before, runs, got⟩ := exists_of_carry found found'
    split at got
    · obtain ⟨rfl, left⟩ := got
      rw [left, runs, ← each]
      exact gathers
    · next apart =>
      subst got
      rw [Stage.map_process_congr (elsewhere before apart)]
      exact kept.gathers before
  · intro run known
    obtain ⟨j, e', found', member⟩ := knows_of_carry found known
    by_cases same : j = i
    · subst same
      obtain rfl := Option.some.inj (found.symm.trans found')
      exact begun run member
    · rw [elsewhere found' same run member]
      exact kept.begun run ⟨j, e', found', member⟩

theorem Kept.moves (discreet : host.Discreet) (kept : Kept host h stage) (moves : Moves host h h') :
    ∃ stage', Kept host h' stage' := by
  cases moves with
  | ask order => exact kept.ask discreet order
  | carry found => exact kept.carry discreet found
  | operate spares => exact ⟨stage, kept.operate spares⟩
  | pass quiet => exact ⟨stage, kept.pass quiet⟩

/-- Time goes on: once every call has been carried on, none can be at the same instant. -/
theorem goes_on (host : SchedulerHost σ) (h : House σ) :
    ∃ h', Relation.ReflTransGen (Moves host) h h' ∧ h'.now = h.now + 1 := by
  -- The calls are carried on one after the other, and no call is touched by carrying another one on.
  have carried (count : Nat) : ∃ h', Relation.ReflTransGen (Moves host) h h' ∧ h'.now = h.now ∧
      h'.errands.length = h.errands.length ∧
      ∀ i < count, ∀ e : Errand σ, h'.errands[i]? = some e → e.left.isDue h.now = false := by
    induction count with
    | zero => exact ⟨h, .refl, rfl, rfl, nofun⟩
    | succ count ih =>
      obtain ⟨h', moves, now, length, quiet⟩ := ih
      cases found : h'.errands[count]? with
      | none =>
        refine ⟨h', moves, now, length, fun i below e here => ?_⟩
        rcases Nat.lt_succ_iff_lt_or_eq.1 below with below | rfl
        · exact quiet i below e here
        · cases found.symm.trans here
      | some call =>
        have length' : (h'.carry count call).errands.length = h.errands.length :=
          (List.length_set ..).trans length
        refine ⟨h'.carry count call, moves.tail (.carry found), now, length', fun i below e here => ?_⟩
        obtain ⟨formerly, before, -, got⟩ := exists_of_carry found here
        split at got
        · rw [got.2, ← now]
          exact Process.isDue_left_poll _ _ _
        · next apart =>
          subst got
          exact quiet i (by omega) _ before
  obtain ⟨h', moves, now, length, quiet⟩ := carried h.errands.length
  refine ⟨_, moves.tail (.pass fun e member => ?_), congrArg (· + 1) now⟩
  obtain ⟨i, bound, rfl⟩ := List.getElem_of_mem member
  rw [now]
  exact quiet i (length ▸ bound) _ (List.getElem?_eq_getElem bound)

end House

end Hearth.SchedulerHost

import Hearth.Proofs.Scheduler.Requests

/-!
# Hearth.Proofs.Scheduler.Independence

Automations share a queue, a count of generations and the loop that takes what is due, but none of them
can tell by its own tasks what is asked about the others, unless a search crashes: with the loop that it
stops, it takes away the turn of every other automation.

## Main definitions

- `Scheduler.Turn.seen`: what an automation has armed after a request, and what is run of it.
- `Scheduler.Alike`: two schedulers in which an automation finds the same.
- `Scheduler.Alone`: a scheduler in which nothing but one automation has a task.
- `Scheduler.sole`: requests made one after another, with nothing in between.

## Main results

- `Scheduler.Alike.foreign`, `Scheduler.Alike.common`: a request about another automation changes nothing
  that the automation finds, and any other request that gets an answer changes it in the same way in both
  schedulers.
- `Scheduler.Alike.returns`: what gets an answer in a scheduler gets one where the automation is alone.
- `Scheduler.Course.seen_sole`: an automation sees what it would see if nothing had been asked about the
  others.
- `Scheduler.automations_independent`: courses that differ in requests about other automations look the
  same to it.
- `Scheduler.automations_disturbed`: they do not once a search crashes.
-/

namespace Hearth.Scheduler

open Agenda

def Turn.concerns (id : AutomationId) (turn : Turn) : Bool := turn.request.concerns id

/-- What an automation has armed after a request, by the positions of its triggers, and what is run of
it. -/
def Turn.seen (id : AutomationId) (turn : Turn) : (Nat → Option Plan) × List Automation :=
  (fun index => turn.after.agenda.plan? ⟨id, index⟩, turn.fired.filter fun a => a.id = id)

/-- Two schedulers that agree on an automation: on what it has armed, apart from the generations, on
whether and how it is known, and on when the clock was looked at. -/
structure Alike (id : AutomationId) (s t : Scheduler) : Prop where
  plan? : ∀ index, s.agenda.plan? ⟨id, index⟩ = t.agenda.plan? ⟨id, index⟩
  known : s.agenda.automations.get? id = t.agenda.automations.get? id
  heartbeat : s.heartbeat = t.heartbeat

variable {id : AutomationId} {s t u v : Scheduler}

theorem Alike.symm (alike : Alike id s t) : Alike id t s :=
  ⟨fun index => (alike.plan? index).symm, alike.known.symm, alike.heartbeat.symm⟩

theorem Alike.trans (first : Alike id s t) (second : Alike id t u) : Alike id s u :=
  ⟨fun index => (first.plan? index).trans (second.plan? index), first.known.trans second.known,
    first.heartbeat.trans second.heartbeat⟩

/-! ### Requests about others -/

theorem Alike.silent (upkept : s.agenda.Upkept) (silent : Silent s t) : Alike id s t := by
  obtain ⟨plans, automations, heartbeat⟩ := silent.spares upkept
  exact ⟨fun index => (plans ⟨id, index⟩).symm, by rw [automations], heartbeat.symm⟩

theorem Alike.foreign {request : Request} (foreign : request.concerns id = false) :
    Alike id s (request.apply s) := by
  obtain ⟨plans, known, heartbeat⟩ := Request.spares foreign s
  exact ⟨fun index => (plans ⟨id, index⟩ rfl).symm, known.symm, heartbeat.symm⟩

/-! ### Requests that both get -/

theorem Alike.schedule (alike : Alike id s t) (r : Reading) {automation : Automation}
    (own : automation.id = id) :
    Alike id (s.schedule r automation).2 (t.schedule r automation).2 := by
  subst own
  have answer := schedule_fst_congr r.next s.agenda t.agenda automation
  have agenda := agenda_schedule s r automation
  have agenda' := agenda_schedule t r automation
  have heartbeat : (s.schedule r automation).2.heartbeat = (t.schedule r automation).2.heartbeat := by
    rw [heartbeat_schedule, heartbeat_schedule, alike.heartbeat]
  -- If the search crashes, it does so in both, and leaves both as they were.
  by_cases crashed : (t.agenda.schedule r.next automation).1 = .error .crash
  · rw [schedule_of_crash (answer.trans crashed)] at agenda
    rw [schedule_of_crash crashed] at agenda'
    exact ⟨fun index => by rw [agenda, agenda', alike.plan?],
      by rw [agenda, agenda', alike.known], heartbeat⟩
  · have returned : (s.agenda.schedule r.next automation).1 ≠ .error .crash := answer ▸ crashed
    refine ⟨fun index => Option.ext fun p => ?_, ?_, heartbeat⟩
    · rw [agenda, agenda', plan?_schedule returned, plan?_schedule crashed, if_pos rfl, if_pos rfl]
    · rw [agenda, agenda', get?_automations_schedule returned, get?_automations_schedule crashed,
        answer]

/-- A sweep through everything that is armed makes the same of the same task, whatever else is armed. -/
theorem Alike.sweep {s' t' : Scheduler} (alike : Alike id s t) {renew : Plan → Option Plan}
    (plans : ∀ k, s'.agenda.plan? k = (s.agenda.plan? k).bind renew)
    (plans' : ∀ k, t'.agenda.plan? k = (t.agenda.plan? k).bind renew)
    (known : s'.agenda.automations = s.agenda.automations)
    (known' : t'.agenda.automations = t.agenda.automations)
    (heartbeat : s'.heartbeat = t'.heartbeat) : Alike id s' t' :=
  ⟨fun index => by rw [plans, plans', alike.plan?], by rw [known, known', alike.known], heartbeat⟩

theorem Alike.rescheduleAll (alike : Alike id s t) (upkept : s.agenda.Upkept)
    (upkept' : t.agenda.Upkept) {r : Reading} (answered : (s.agenda.rescheduleAll r.next).1 ≠ none)
    (answered' : (t.agenda.rescheduleAll r.next).1 ≠ none) :
    Alike id (s.rescheduleAll r).2 (t.rescheduleAll r).2 := by
  exact alike.sweep (upkept.plan?_rescheduleAll_of_answer answered)
    (upkept'.plan?_rescheduleAll_of_answer answered') (automations_rescheduleAll s.agenda r.next)
    (automations_rescheduleAll t.agenda r.next) alike.heartbeat

theorem Alike.takeDue (alike : Alike id s t) (upkept : s.agenda.Upkept)
    (upkept' : t.agenda.Upkept) {r : Reading} (answered : (s.takeDue r).1 ≠ none)
    (answered' : (t.takeDue r).1 ≠ none) : Alike id (s.takeDue r).2 (t.takeDue r).2 := by
  refine alike.sweep (upkept.plan?_drain_eq answered) (upkept'.plan?_drain_eq answered')
    (automations_drain s.agenda r.outlook []) (automations_drain t.agenda r.outlook []) ?_
  rw [heartbeat_takeDue, heartbeat_takeDue, alike.heartbeat]

/-- Both compare with the same look at the clock, so both find the same jump or none. -/
theorem Alike.jump? (alike : Alike id s t) (threshold elapsed : Duration) (now : Instant) :
    s.jump? threshold elapsed now = t.jump? threshold elapsed now := by
  unfold Scheduler.jump?
  rw [alike.heartbeat]

theorem Alike.checkDrift (alike : Alike id s t) (upkept : s.agenda.Upkept)
    (upkept' : t.agenda.Upkept) {threshold elapsed : Duration} {r : Reading}
    (answered : (s.checkDrift threshold elapsed r).1 ≠ none)
    (answered' : (t.checkDrift threshold elapsed r).1 ≠ none) :
    Alike id (s.checkDrift threshold elapsed r).2 (t.checkDrift threshold elapsed r).2 := by
  rw [Ne, checkDrift_fst_eq_none_iff, not_or] at answered answered'
  have same := alike.jump? threshold elapsed r.now
  have agenda := s.agenda_checkDrift threshold elapsed r
  have agenda' := t.agenda_checkDrift threshold elapsed r
  rw [same] at agenda answered
  have heartbeat : (s.checkDrift threshold elapsed r).2.heartbeat =
      (t.checkDrift threshold elapsed r).2.heartbeat := by
    rw [heartbeat_checkDrift, heartbeat_checkDrift]
  cases jumped : (t.jump? threshold elapsed r.now).join.isSome with
  | false =>
    rw [jumped, if_neg Bool.false_ne_true] at agenda agenda'
    exact ⟨fun index => by rw [agenda, agenda', alike.plan?],
      by rw [agenda, agenda', alike.known], heartbeat⟩
  | true =>
    rw [jumped, if_pos rfl] at agenda agenda'
    have anew := alike.rescheduleAll upkept upkept' (fun lost => answered.2 ⟨jumped, lost⟩)
      fun lost => answered'.2 ⟨jumped, lost⟩
    exact ⟨fun index => by rw [agenda, agenda']; exact anew.plan? index,
      by rw [agenda, agenda']; exact anew.known, heartbeat⟩

/-- What is taken of one automation: the automation as it is known, if one of its tasks is due. -/
theorem mem_takeDue_iff (upkept : s.agenda.Upkept) {r : Reading} {taken : List Automation}
    (answered : (s.takeDue r).1 = some taken) {a : Automation} (own : a.id = id) :
    a ∈ taken ↔ s.agenda.automations.get? id = some a ∧
      ∃ index p, s.agenda.plan? ⟨id, index⟩ = some p ∧ p.nextRun.notAfter r.now = true := by
  subst own
  constructor
  · intro member
    obtain ⟨known, key, task, due, owner⟩ := due_of_mem_takeDue upkept answered member
    obtain ⟨p, armed⟩ := due_iff_plan?.1 ⟨task, due⟩
    exact ⟨known, key.index, p, owner ▸ armed⟩
  · rintro ⟨known, index, p, armed⟩
    obtain ⟨task, due⟩ := due_iff_plan?.2 ⟨p, armed⟩
    have gathered := gathered_takeDue upkept answered
    obtain ⟨b, member, same⟩ := List.mem_map.1
      ((gathered.mem_iff a.id).2 ⟨_, upkept.entry_mem_pending due, rfl⟩)
    have found := gathered.known b member
    rw [same, known] at found
    exact Option.some.inj found ▸ member

/-- Where no two automations have the same identifier, there is one to find or none. -/
theorem filter_id_eq {automations : List Automation} (once : (automations.map Automation.id).Nodup)
    (id : AutomationId) : automations.filter (fun a => a.id = id) =
      (automations.find? fun a => a.id = id).toList := by
  induction automations with
  | nil => rfl
  | cons a rest ih =>
    rw [List.map_cons, List.nodup_cons] at once
    by_cases own : a.id = id
    · have others : rest.filter (fun b => b.id = id) = [] := by
        rw [List.filter_eq_nil_iff]
        intro b member same
        exact once.1 (own.trans (of_decide_eq_true same).symm ▸ List.mem_map_of_mem member)
      simp [own, others]
    · simp [own, ih once.2]

theorem Alike.fired (alike : Alike id s t) (upkept : s.agenda.Upkept) (upkept' : t.agenda.Upkept)
    {request : Request} (returns : request.sweeps = true → request.returns s = true)
    (returns' : request.sweeps = true → request.returns t = true) :
    (request.fired s).filter (fun a => a.id = id) = (request.fired t).filter fun a => a.id = id := by
  cases request with
  | runDue r =>
    -- The order in which what is due is taken depends on the others. But as it is taken once, what is
    -- taken of one automation is there or not, and that is settled by the tasks of the automation.
    obtain ⟨taken, answered⟩ := Option.isSome_iff_exists.1 (returns rfl)
    obtain ⟨taken', answered'⟩ := Option.isSome_iff_exists.1 (returns' rfl)
    have single := filter_id_eq (gathered_takeDue upkept answered).nodup id
    have single' := filter_id_eq (gathered_takeDue upkept' answered').nodup id
    simp only [Request.fired, answered, answered', Option.getD_some]
    rw [single, single']
    refine congrArg Option.toList (Option.ext fun a => ?_)
    rw [← Option.mem_toList, ← Option.mem_toList, ← single, ← single']
    simp only [List.mem_filter, decide_eq_true_eq]
    refine and_congr_left fun own => ?_
    simp only [mem_takeDue_iff upkept answered own, mem_takeDue_iff upkept' answered' own,
      alike.known, alike.plan?]
  | _ => rfl

theorem Alike.common (alike : Alike id s t) (upkept : s.agenda.Upkept) (upkept' : t.agenda.Upkept)
    {request : Request} (common : request.concerns id = true)
    (returns : request.sweeps = true → request.returns s = true)
    (returns' : request.sweeps = true → request.returns t = true) :
    Alike id (request.apply s) (request.apply t) := by
  cases request with
  | schedule r automation => exact alike.schedule r (of_decide_eq_true common)
  | unschedule other =>
    obtain rfl : other = id := of_decide_eq_true common
    refine ⟨fun index => ?_, ?_, alike.heartbeat⟩
    · refine (plan?_remove s.agenda other ⟨other, index⟩).trans ?_
      rw [if_pos rfl]
      exact ((plan?_remove t.agenda other ⟨other, index⟩).trans (if_pos rfl)).symm
    · refine (Table.get?_erase s.agenda.automations other other).trans ?_
      rw [if_pos rfl]
      exact ((Table.get?_erase t.agenda.automations other other).trans (if_pos rfl)).symm
  | clear => exact ⟨fun _ => rfl, rfl, alike.heartbeat⟩
  | runDue r =>
    exact alike.takeDue upkept upkept' (Option.isSome_iff_ne_none.1 (returns rfl))
      (Option.isSome_iff_ne_none.1 (returns' rfl))
  | rescheduleAll r =>
    exact alike.rescheduleAll upkept upkept' (Option.isSome_iff_ne_none.1 (returns rfl))
      (Option.isSome_iff_ne_none.1 (returns' rfl))
  | checkDrift threshold elapsed r =>
    exact alike.checkDrift upkept upkept' (Option.isSome_iff_ne_none.1 (returns rfl))
      (Option.isSome_iff_ne_none.1 (returns' rfl))

/-! ### An automation on its own -/

/-- No automation but this one has a task. -/
def Alone (id : AutomationId) (t : Scheduler) : Prop :=
  ∀ other, other ≠ id → t.agenda.tasksOf other = []

theorem Request.stepBeside {request : Request} (common : request.concerns id = true)
    {other : AutomationId} (apart : other ≠ id) (t : Scheduler) :
    StepBeside other t (request.apply t) := by
  cases request with
  | schedule r automation =>
    exact .schedule t r fun same => apart (same.symm.trans (of_decide_eq_true common))
  | unschedule other => exact .unschedule t other
  | clear => exact .clear t
  | runDue r => exact .tend (.takeDue t r)
  | rescheduleAll r => exact .tend (.rescheduleAll t r)
  | checkDrift threshold elapsed r => exact .tend (.checkDrift t threshold elapsed r)

theorem Alone.apply (alone : Alone id t) (upkept : t.agenda.Upkept) {request : Request}
    (common : request.concerns id = true) : Alone id (request.apply t) := fun other apart =>
  (Request.stepBeside common apart t).idle upkept (alone other apart)

/-- What is armed there is armed in any scheduler in which the automation finds the same. -/
theorem Alike.armed (alike : Alike id s t) (alone : Alone id t) {k : TaskKey} {task : Task}
    (armed : t.agenda.tasks.get? k = some task) : ∃ other, s.agenda.tasks.get? k = some other ∧
      other.schedule = task.schedule ∧ other.nextRun = task.nextRun := by
  have planned : t.agenda.plan? k = some ⟨k.index, task.trigger, task.schedule, task.nextRun⟩ := by
    rw [Agenda.plan?, armed]
    rfl
  have same : s.agenda.plan? k = t.agenda.plan? k := by
    by_cases own : k.automation = id
    · subst own
      exact alike.plan? k.index
    · have vacant := tasksOf_eq_nil_iff.1 (alone k.automation own) k rfl
      cases vacant.symm.trans planned
  obtain ⟨other, found, equal⟩ := Option.map_eq_some_iff.1 (same.trans planned)
  exact ⟨other, found, congrArg Plan.schedule equal, congrArg Plan.nextRun equal⟩

theorem Alike.rescheduleAll_returns (alike : Alike id s t) (alone : Alone id t)
    (upkept : s.agenda.Upkept) (upkept' : t.agenda.Upkept) {r : Reading}
    (answered : (s.agenda.rescheduleAll r.next).1 ≠ none) :
    (t.agenda.rescheduleAll r.next).1 ≠ none := by
  contrapose! answered
  obtain ⟨key, task, armed, crashed⟩ := (rescheduleAll_fst_eq_none_iff upkept').1 answered
  obtain ⟨other, found, schedule, -⟩ := alike.armed alone armed
  exact (rescheduleAll_fst_eq_none_iff upkept).2 ⟨key, other, found, schedule ▸ crashed⟩

theorem Alike.takeDue_returns (alike : Alike id s t) (alone : Alone id t) (upkept : s.agenda.Upkept)
    (upkept' : t.agenda.Upkept) {r : Reading} (answered : (s.takeDue r).1 ≠ none) :
    (t.takeDue r).1 ≠ none := by
  contrapose! answered
  obtain ⟨key, task, due, crashed⟩ := (upkept'.drain_eq_none_iff r.outlook []).1 answered
  obtain ⟨other, found, schedule, nextRun⟩ := alike.armed alone due.1
  exact (upkept.drain_eq_none_iff r.outlook []).2
    ⟨key, other, ⟨found, nextRun ▸ due.2⟩, schedule ▸ crashed⟩

/-- On its own an automation is in the way of no search that would not crash with others around. -/
theorem Alike.returns (alike : Alike id s t) (alone : Alone id t) (upkept : s.agenda.Upkept)
    (upkept' : t.agenda.Upkept) {request : Request} (sweeps : request.sweeps = true)
    (returns : request.returns s = true) : request.returns t = true := by
  cases request with
  | runDue r =>
    exact Option.isSome_iff_ne_none.2
      (alike.takeDue_returns alone upkept upkept' (Option.isSome_iff_ne_none.1 returns))
  | rescheduleAll r =>
    exact Option.isSome_iff_ne_none.2
      (alike.rescheduleAll_returns alone upkept upkept' (Option.isSome_iff_ne_none.1 returns))
  | checkDrift threshold elapsed r =>
    have answered := Option.isSome_iff_ne_none.1 returns
    rw [Ne, checkDrift_fst_eq_none_iff, not_or, alike.jump?] at answered
    refine Option.isSome_iff_ne_none.2 fun lost => ?_
    rcases checkDrift_fst_eq_none_iff.1 lost with outside | ⟨jumped, crashed⟩
    · exact answered.1 outside
    · exact alike.rescheduleAll_returns alone upkept upkept'
        (fun lost => answered.2 ⟨jumped, lost⟩) crashed
  | _ => cases sweeps

/-! ### Whole courses -/

/-- Every request of a course that sweeps through what is armed gets an answer. -/
def Undisturbed (turns : List Turn) : Prop :=
  ∀ turn ∈ turns, turn.request.sweeps = true → turn.returns = true

instance (turns : List Turn) : Decidable (Undisturbed turns) := List.decidableBAll _ turns

/-- Requests made one after another, with nothing in between. -/
def sole (s : Scheduler) : List Request → List Turn
  | [] => []
  | request :: rest => ⟨s, request⟩ :: sole (request.apply s) rest

/-- An automation sees in any course what it would see if nothing had been asked about the others. -/
theorem Course.seen_sole {turns : List Turn} (course : Course s turns u) (calm : Undisturbed turns)
    (alike : Alike id s t) (alone : Alone id t) (upkept : s.agenda.Upkept) (upkept' : t.agenda.Upkept) :
    (turns.filter (Turn.concerns id)).map (Turn.seen id) =
      (sole t ((turns.filter (Turn.concerns id)).map Turn.request)).map (Turn.seen id) ∧
    Alike id u (((turns.filter (Turn.concerns id)).map Turn.request).foldl Request.apply t) := by
  -- The other scheduler gets the requests that concern the automation, and nothing else.
  induction course generalizing t with
  | done s => exact ⟨rfl, alike⟩
  | silent unseen _ ih =>
    have kept := upkept.edits (unseen.step.edits upkept)
    exact ih calm ((Alike.silent upkept unseen).symm.trans alike) alone kept upkept'
  | @turn s u turns request rest ih =>
    have kept := upkept.edits ((request.step s).edits upkept)
    have kept' := upkept'.edits ((request.step t).edits upkept')
    obtain ⟨returns, calm⟩ := List.forall_mem_cons.1 calm
    rw [List.filter_cons]
    cases concerned : Turn.concerns id ⟨s, request⟩ with
    | false => exact ih calm ((Alike.foreign concerned).symm.trans alike) alone kept upkept'
    | true =>
      have returns' (sweeps : request.sweeps = true) : request.returns t = true :=
        alike.returns alone upkept upkept' sweeps (returns sweeps)
      have after := alike.common upkept upkept' concerned returns returns'
      obtain ⟨later, final⟩ := ih calm after (alone.apply upkept' concerned) kept kept'
      have first : Turn.seen id ⟨s, request⟩ = Turn.seen id ⟨t, request⟩ :=
        Prod.ext (funext after.plan?) (alike.fired upkept upkept' returns returns')
      exact ⟨List.cons_eq_cons.2 ⟨first, later⟩, final⟩

/-- Automations do not disturb each other, as long as no search crashes where everything that is armed is
gone through. Two courses that differ in what is asked about other automations, and in what goes on
between requests, look the same to an automation: after each of the requests that both have, the same
triggers of it are armed for the same times, and the same requests run it. -/
theorem automations_independent {id : AutomationId} {turns turns' : List Turn} {s t : Scheduler}
    (course : Course empty turns s) (course' : Course empty turns' t) (calm : Undisturbed turns)
    (calm' : Undisturbed turns')
    (same : (turns.filter (Turn.concerns id)).map Turn.request =
      (turns'.filter (Turn.concerns id)).map Turn.request) :
    (turns.filter (Turn.concerns id)).map (Turn.seen id) =
      (turns'.filter (Turn.concerns id)).map (Turn.seen id) ∧
    ∀ index, s.agenda.plan? ⟨id, index⟩ = t.agenda.plan? ⟨id, index⟩ := by
  have alike : Alike id empty empty := ⟨fun _ => rfl, rfl, rfl⟩
  have alone : Alone id empty := fun _ _ => rfl
  obtain ⟨seen, final⟩ := course.seen_sole calm alike alone Upkept.empty Upkept.empty
  obtain ⟨seen', final'⟩ := course'.seen_sole calm' alike alone Upkept.empty Upkept.empty
  rw [← same] at seen' final'
  exact ⟨seen.trans seen'.symm, (final.trans final'.symm).plan?⟩

/-- In the quiet house the alarm has other generations than in an empty one, since the coffee was set
before it; at eight it rings as if there were no coffee. -/
theorem automations_independent_alarm :
    (quietHouse.agenda.tasks.get? ⟨alarm.id, 0⟩).map Task.generation ≠
      ((empty.schedule firstMidnight alarm).2.agenda.tasks.get? ⟨alarm.id, 0⟩).map Task.generation ∧
    ((quietHouse.takeDue firstEight).1.getD []).length = 2 ∧
    ((quietHouse.takeDue firstEight).1.getD []).filter (fun a => a.id = alarm.id) =
      (((empty.schedule firstMidnight alarm).2.takeDue firstEight).1.getD []).filter
        fun a => a.id = alarm.id := by
  -- The first request that both houses get is to schedule the alarm, the second one to run what is due.
  have both : Course empty [⟨empty, .schedule firstMidnight coffee⟩,
      ⟨(empty.schedule firstMidnight coffee).2, .schedule firstMidnight alarm⟩,
      ⟨quietHouse, .runDue firstEight⟩] _ := .turn _ (.turn _ (.turn _ (.done _)))
  have single : Course empty [⟨empty, .schedule firstMidnight alarm⟩,
      ⟨(empty.schedule firstMidnight alarm).2, .runDue firstEight⟩] _ := .turn _ (.turn _ (.done _))
  have seen := (@automations_independent alarm.id _ _ _ _ both single
    (by decide +kernel) (by decide +kernel) rfl).1
  refine ⟨by decide +kernel, by decide +kernel, ?_⟩
  exact congrArg Prod.snd (List.cons_eq_cons.1 (List.cons_eq_cons.1 seen).2).1

/-- An alarm set at noon on the day before the last one rings at noon on the last day. If the vigil is set
besides, the search for its next occurrence crashes, and the alarm does not ring. -/
theorem automations_disturbed :
    ∃ turns turns' s t, Course empty turns s ∧ Course empty turns' t ∧
      (turns.filter (Turn.concerns alarm.id)).map Turn.request =
        (turns'.filter (Turn.concerns alarm.id)).map Turn.request ∧
      (turns.filter (Turn.concerns alarm.id)).map (fun turn => turn.fired.map Automation.name) =
        [[], ["alarm"]] ∧
      (turns'.filter (Turn.concerns alarm.id)).map (fun turn => turn.fired.map Automation.name) =
        [[], []] := by
  let alone := (empty.schedule lastNoonButOne alarm).2
  let both := (alone.schedule lastNoonButOne vigil).2
  refine ⟨[⟨empty, .schedule lastNoonButOne alarm⟩, ⟨alone, .runDue lastNoon⟩],
    [⟨empty, .schedule lastNoonButOne alarm⟩, ⟨alone, .schedule lastNoonButOne vigil⟩,
      ⟨both, .runDue lastNoon⟩], _, _, .turn _ (.turn _ (.done _)),
    .turn _ (.turn _ (.turn _ (.done _))), rfl, ?_, ?_⟩
  · decide +kernel
  · decide +kernel

end Hearth.Scheduler

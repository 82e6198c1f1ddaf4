import Hearth.Proofs.Scheduler.Due

/-!
# Hearth.Proofs.Scheduler.Planning

What is armed, apart from the generations under which it is armed, and what the operations make of it.

## Main definitions

- `Agenda.plan?`: what is armed under a key, as a plan.
- `Automation.Plans`: the triggers of an automation that have an occurrence, with this occurrence.

## Main results

- `Agenda.plan?_schedule`: to schedule an automation arms what it plans, and nothing else for it.
- `Agenda.Upkept.plan?_rescheduleAll`: to arm everything anew keeps the tasks that are reached and have
  an occurrence.
-/

namespace Hearth

/-- A trigger of the automation with its schedule, whose next occurrence is that of the plan. -/
structure Automation.Plans (a : Automation) (next : Schedule → Except SearchFault Instant)
    (p : Agenda.Plan) : Prop where
  trigger : a.triggers[p.index]? = some p.trigger
  schedule : Schedule.ofTrigger p.trigger = .ok (some p.schedule)
  nextRun : next p.schedule = .ok p.nextRun

theorem Automation.Plans.unique {a : Automation} {next : Schedule → Except SearchFault Instant}
    {p q : Agenda.Plan} (first : a.Plans next p) (second : a.Plans next q)
    (same : p.index = q.index) : p = q := by
  obtain ⟨index, trigger, schedule, nextRun⟩ := p
  obtain ⟨index', trigger', schedule', nextRun'⟩ := q
  obtain rfl : index = index' := same
  obtain rfl : trigger = trigger' := Option.some.inj (first.trigger.symm.trans second.trigger)
  obtain rfl : schedule = schedule' :=
    Option.some.inj (Except.ok.inj (first.schedule.symm.trans second.schedule))
  obtain rfl : nextRun = nextRun' := Except.ok.inj (first.nextRun.symm.trans second.nextRun)
  rfl

theorem Automation.mem_scheduleTriggers {a : Automation} {index : Nat} {t : Trigger} :
    (index, t) ∈ a.scheduleTriggers ↔ a.triggers[index]? = some t ∧ t.isSchedule = true := by
  simp only [scheduleTriggers, positions, List.mem_filter, List.mem_map, Prod.exists,
    Prod.mk.injEq]
  constructor
  · rintro ⟨⟨t', index', member, rfl, rfl⟩, isSchedule⟩
    exact ⟨List.mem_zipIdx_iff_getElem?.1 member, isSchedule⟩
  · rintro ⟨found, isSchedule⟩
    exact ⟨⟨t, index, List.mem_zipIdx_iff_getElem?.2 found, rfl, rfl⟩, isSchedule⟩

theorem Schedule.isSchedule_of_ofTrigger {t : Trigger} {s : Schedule}
    (read : ofTrigger t = .ok (some s)) : t.isSchedule = true := by
  cases t with
  | time => rfl
  | sun => rfl
  | _ => cases read

namespace Agenda

variable {next : Schedule → Except SearchFault Instant}

/-! ### Planning -/

theorem toOption_next_iff {s : Schedule} {t : Instant} :
    (next s).toOption = some t ↔ next s = .ok t := by
  cases next s with
  | ok u => simp [Except.toOption]
  | error fault => simp [Except.toOption]

/-- Whether a trigger can be planned, be it without an occurrence. -/
def Plannable (next : Schedule → Except SearchFault Instant) (t : Trigger) : Prop :=
  ∃ schedule?, Schedule.ofTrigger t = .ok schedule? ∧
    ∀ s ∈ schedule?, ∀ fault, next s = .error fault → ∃ text, fault = .trigger (.noOccurrence text)

/-- The plan of one trigger, if it has an occurrence. -/
def planOne? (next : Schedule → Except SearchFault Instant) (index : Nat) (trigger : Trigger) :
    Option Plan :=
  match Schedule.ofTrigger trigger with
  | .ok (some schedule) =>
    (next schedule).toOption.map fun nextRun => { index, trigger, schedule, nextRun }
  | _ => none

theorem planOne?_eq_some_iff {index : Nat} {t : Trigger} {p : Plan} :
    planOne? next index t = some p ↔ p.index = index ∧ p.trigger = t ∧
      Schedule.ofTrigger p.trigger = .ok (some p.schedule) ∧ next p.schedule = .ok p.nextRun := by
  unfold planOne?
  constructor
  · intro planned
    split at planned
    · next s read =>
      obtain ⟨nextRun, found, rfl⟩ := Option.map_eq_some_iff.1 planned
      exact ⟨rfl, rfl, read, toOption_next_iff.1 found⟩
    · cases planned
  · rintro ⟨rfl, rfl, read, found⟩
    simp only [read, found, Except.toOption, Option.map_some]

/-- The triggers are planned one by one, and none of them may have a fault of its own. -/
theorem planTriggers_cons_ok_iff {index : Nat} {t : Trigger} {rest : List (Nat × Trigger)}
    {plans : List Plan} :
    planTriggers next ((index, t) :: rest) = .ok plans ↔
      Plannable next t ∧ ∃ later, planTriggers next rest = .ok later ∧
        plans = (planOne? next index t).toList ++ later := by
  simp only [planTriggers, bind, Except.bind, pure, Except.pure, Plannable, planOne?]
  cases read : Schedule.ofTrigger t with
  | error fault =>
    constructor
    · intro never
      cases never
    · rintro ⟨⟨_, never, -⟩, -⟩
      cases never
  | ok schedule? =>
    cases schedule? with
    | none => simp [Except.mapError]
    | some schedule =>
      cases found : next schedule with
      | ok nextRun =>
        cases planTriggers next rest with
        | error fault => simp [found, Except.mapError]
        | ok later => simp [found, Except.toOption, Except.mapError, eq_comm]
      | error fault =>
        -- A schedule without an occurrence is passed over; any other fault is that of the automation.
        cases fault with
        | crash => simp [found, Except.mapError]
        | trigger fault =>
          cases fault with
          | noOccurrence text => simp [found, Except.toOption, Except.mapError]
          | _ => simp [found, Except.mapError]

theorem planTriggers_ok_iff {triggers : List (Nat × Trigger)} :
    (∃ plans, planTriggers next triggers = .ok plans) ↔
      ∀ entry ∈ triggers, Plannable next entry.2 := by
  induction triggers with
  | nil => simp [planTriggers]
  | cons entry rest ih =>
    rw [List.forall_mem_cons, ← ih]
    constructor
    · rintro ⟨plans, planned⟩
      obtain ⟨plannable, later, found, -⟩ := planTriggers_cons_ok_iff.1 planned
      exact ⟨plannable, later, found⟩
    · rintro ⟨plannable, later, found⟩
      exact ⟨_, planTriggers_cons_ok_iff.2 ⟨plannable, later, found, rfl⟩⟩

theorem mem_planTriggers {triggers : List (Nat × Trigger)} {plans : List Plan}
    (planned : planTriggers next triggers = .ok plans) {p : Plan} :
    p ∈ plans ↔ (p.index, p.trigger) ∈ triggers ∧
      Schedule.ofTrigger p.trigger = .ok (some p.schedule) ∧ next p.schedule = .ok p.nextRun := by
  induction triggers generalizing plans with
  | nil =>
    cases planned
    simp
  | cons entry rest ih =>
    obtain ⟨-, later, found, rfl⟩ := planTriggers_cons_ok_iff.1 planned
    rw [List.mem_append, ih found, Option.mem_toList, planOne?_eq_some_iff, List.mem_cons,
      Prod.ext_iff]
    constructor
    · rintro (⟨index, trigger, occurs⟩ | ⟨member, occurs⟩)
      · exact ⟨.inl ⟨index, trigger⟩, occurs⟩
      · exact ⟨.inr member, occurs⟩
    · rintro ⟨⟨index, trigger⟩ | member, occurs⟩
      · exact .inl ⟨index, trigger, occurs⟩
      · exact .inr ⟨member, occurs⟩

theorem plan_ok_iff {automation : Automation} :
    (∃ plans, plan next automation = .ok plans) ↔ automation.checkTriggers = .ok () ∧
      ∀ entry ∈ automation.scheduleTriggers, Plannable next entry.2 := by
  rw [← planTriggers_ok_iff]
  simp only [plan, bind, Except.bind]
  cases automation.checkTriggers with
  | error fault => simp [Except.mapError]
  | ok => simp [Except.mapError]

theorem planTriggers_of_plan {automation : Automation} {plans : List Plan}
    (planned : plan next automation = .ok plans) :
    planTriggers next automation.scheduleTriggers = .ok plans := by
  simp only [plan, bind, Except.bind] at planned
  cases checked : automation.checkTriggers with
  | error fault => simp [checked, Except.mapError] at planned
  | ok => simpa [checked, Except.mapError] using planned

theorem mem_plan {automation : Automation} {plans : List Plan}
    (planned : plan next automation = .ok plans) {p : Plan} :
    p ∈ plans ↔ automation.Plans next p := by
  rw [mem_planTriggers (planTriggers_of_plan planned), Automation.mem_scheduleTriggers]
  constructor
  · rintro ⟨⟨trigger, -⟩, schedule, nextRun⟩
    exact ⟨trigger, schedule, nextRun⟩
  · rintro ⟨trigger, schedule, nextRun⟩
    exact ⟨⟨trigger, Schedule.isSchedule_of_ofTrigger schedule⟩, schedule, nextRun⟩

/-! ### What is armed -/

/-- What is armed under a key. -/
def plan? (a : Agenda) (key : TaskKey) : Option Plan :=
  (a.tasks.get? key).map fun task =>
    { index := key.index, trigger := task.trigger, schedule := task.schedule,
      nextRun := task.nextRun }

theorem index_of_plan? {a : Agenda} {k : TaskKey} {p : Plan} (armed : a.plan? k = some p) :
    p.index = k.index := by
  obtain ⟨task, -, rfl⟩ := Option.map_eq_some_iff.1 armed
  rfl

theorem plan?_arm (a : Agenda) (key : TaskKey) (trigger : Trigger) (schedule : Schedule)
    (nextRun : Instant) (k : TaskKey) :
    (a.arm key trigger schedule nextRun).plan? k =
      if k = key then some ⟨key.index, trigger, schedule, nextRun⟩ else a.plan? k := by
  simp only [plan?, arm, Table.get?_insert]
  by_cases same : k = key
  · simp [same]
  · simp [same]

theorem plan?_remove (a : Agenda) (id : AutomationId) (k : TaskKey) :
    (a.remove id).2.plan? k = if k.automation = id then none else a.plan? k := by
  have looked := Table.get?_filter_keys a.tasks (fun key => decide (key.automation ≠ id)) k
  simp only [plan?, remove, looked]
  by_cases same : k.automation = id
  · simp [same]
  · simp [same]

/-- Plans that agree where their positions do stay armed when all of them are armed in turn. -/
theorem plan?_foldl_arm (id : AutomationId) {plans : List Plan}
    (unique : ∀ p ∈ plans, ∀ q ∈ plans, p.index = q.index → p = q) (a : Agenda) (k : TaskKey) :
    (plans.foldl (fun a p => a.arm ⟨id, p.index⟩ p.trigger p.schedule p.nextRun) a).plan? k =
      if k.automation = id then (plans.find? fun p => p.index = k.index).or (a.plan? k)
      else a.plan? k := by
  induction plans generalizing a with
  | nil => simp
  | cons first rest ih =>
    have restUnique : ∀ p ∈ rest, ∀ q ∈ rest, p.index = q.index → p = q := fun p pIn q qIn =>
      unique p (List.mem_cons_of_mem _ pIn) q (List.mem_cons_of_mem _ qIn)
    rw [List.foldl_cons, ih restUnique, plan?_arm]
    by_cases own : k.automation = id
    · by_cases here : first.index = k.index
      · obtain rfl : k = ⟨id, first.index⟩ := by rw [← own, here]
        -- A later plan for this position is the same.
        cases later : rest.find? fun p => p.index = first.index with
        | none => simp
        | some q =>
          have member := List.mem_cons_of_mem first (List.mem_of_find?_eq_some later)
          have same : q.index = first.index := by simpa using List.find?_some later
          simp [unique q member first List.mem_cons_self same]
      · have other : k ≠ ⟨id, first.index⟩ := fun same => here (congrArg TaskKey.index same).symm
        simp [own, here, other]
    · have other : k ≠ ⟨id, first.index⟩ := fun same => own (congrArg TaskKey.automation same)
      simp [own, other]

theorem plan?_armAll {a : Agenda} {automation : Automation} {plans : List Plan}
    (planned : plan next automation = .ok plans) {k : TaskKey} {p : Plan} :
    (a.armAll automation plans).plan? k = some p ↔
      if k.automation = automation.id then p.index = k.index ∧ automation.Plans next p
      else a.plan? k = some p := by
  have unique : ∀ p ∈ plans, ∀ q ∈ plans, p.index = q.index → p = q := fun p pIn q qIn same =>
    ((mem_plan planned).1 pIn).unique ((mem_plan planned).1 qIn) same
  have kept (k : TaskKey) : Agenda.plan? (if plans.isEmpty then (a.remove automation.id).2
      else { (a.remove automation.id).2 with
        automations := (a.remove automation.id).2.automations.insert automation.id automation }) k =
      if k.automation = automation.id then none else a.plan? k := by
    rw [← plan?_remove]
    split <;> rfl
  -- Under the keys of the automation nothing is armed but its plans; no other key is touched.
  unfold armAll
  rw [plan?_foldl_arm automation.id unique, kept]
  by_cases own : k.automation = automation.id
  · simp only [own, ↓reduceIte, Option.or_none, ← mem_plan planned]
    constructor
    · intro found
      exact ⟨by simpa using List.find?_some found, List.mem_of_find?_eq_some found⟩
    · rintro ⟨here, member⟩
      cases found : plans.find? fun p => p.index = k.index with
      | none =>
        have never := List.find?_eq_none.1 found p member
        exact absurd here (by simpa using never)
      | some q =>
        have same : q.index = k.index := by simpa using List.find?_some found
        rw [unique q (List.mem_of_find?_eq_some found) p member (same.trans here.symm)]
  · simp only [own, ↓reduceIte]

theorem schedule_fst_eq_crash {a : Agenda} {automation : Automation} :
    (a.schedule next automation).1 = .error .crash ↔
      automation.enabled = true ∧ plan next automation = .error .crash := by
  unfold schedule
  cases automation.enabled with
  | false => simp
  | true =>
    match plan next automation with
    | .error .crash => simp
    | .error (.trigger fault) => simp
    | .ok plans => simp

/-- A crash leaves everything as it was. -/
theorem schedule_of_crash {a : Agenda} {automation : Automation}
    (crashed : (a.schedule next automation).1 = .error .crash) :
    (a.schedule next automation).2 = a := by
  obtain ⟨enabled, planned⟩ := schedule_fst_eq_crash.1 crashed
  simp [schedule, enabled, planned]

/-- To schedule an enabled automation whose triggers are in order arms what it plans, and nothing else
for it; any other automation is disarmed. -/
theorem plan?_schedule {a : Agenda} {automation : Automation}
    (returned : (a.schedule next automation).1 ≠ .error .crash) {k : TaskKey} {p : Plan} :
    (a.schedule next automation).2.plan? k = some p ↔
      if k.automation = automation.id then
        automation.enabled = true ∧ (∃ plans, plan next automation = .ok plans) ∧
          p.index = k.index ∧ automation.Plans next p
      else a.plan? k = some p := by
  unfold schedule at returned ⊢
  cases enabled : automation.enabled with
  | false =>
    simp only [Bool.not_false, ↓reduceIte, plan?_remove]
    by_cases own : k.automation = automation.id
    · simp [own]
    · simp [own]
  | true =>
    match planned : plan next automation with
    | .error .crash => simp [enabled, planned] at returned
    | .error (.trigger fault) =>
      simp only [Bool.not_true, Bool.false_eq_true, ↓reduceIte, plan?_remove]
      by_cases own : k.automation = automation.id
      · simp [own]
      · simp [own]
    | .ok plans =>
      simp only [Bool.not_true, Bool.false_eq_true, ↓reduceIte, plan?_armAll planned]
      by_cases own : k.automation = automation.id
      · simp [own]
      · simp [own]

/-- A plan with the next occurrence of its schedule. -/
def Plan.renew? (next : Schedule → Except SearchFault Instant) (p : Plan) : Option Plan :=
  (next p.schedule).toOption.map fun nextRun => { p with nextRun }

theorem Plan.renew?_eq_some_iff {p q : Plan} :
    q.renew? next = some p ↔ p.index = q.index ∧ p.trigger = q.trigger ∧ p.schedule = q.schedule ∧
      next p.schedule = .ok p.nextRun := by
  unfold renew?
  constructor
  · intro renewed
    obtain ⟨nextRun, found, rfl⟩ := Option.map_eq_some_iff.1 renewed
    exact ⟨rfl, rfl, rfl, toOption_next_iff.1 found⟩
  · obtain ⟨index, trigger, schedule, nextRun⟩ := p
    rintro ⟨rfl, rfl, rfl, found⟩
    simp only [found, Except.toOption, Option.map_some]

/-- What one task leaves armed under its key, where nothing was armed before. -/
theorem plan?_rearmOne (next : Schedule → Except SearchFault Instant) (a : Agenda) (key : TaskKey)
    (task : Task) (vacant : a.plan? key = none) (k : TaskKey) :
    (match next task.schedule with
      | .ok nextRun => a.arm key task.trigger task.schedule nextRun
      | .error _ => a).plan? k =
      if k = key then Plan.renew? next ⟨key.index, task.trigger, task.schedule, task.nextRun⟩
      else a.plan? k := by
  unfold Plan.renew?
  dsimp only
  cases found : next task.schedule with
  | ok nextRun => exact plan?_arm a key task.trigger task.schedule nextRun k
  | error fault =>
    by_cases same : k = key
    · subst same
      simp [vacant, Except.toOption]
    · simp [same]

theorem plan?_foldl_rearm (next : Schedule → Except SearchFault Instant)
    {entries : List (TaskKey × Task)} (nodup : (entries.map Prod.fst).Nodup) (a : Agenda)
    (vacant : ∀ entry ∈ entries, a.plan? entry.1 = none) (k : TaskKey) :
    (entries.foldl (fun a (key, task) =>
      match next task.schedule with
      | .ok nextRun => a.arm key task.trigger task.schedule nextRun
      | .error _ => a) a).plan? k =
      match Table.lookup k entries with
      | some task => Plan.renew? next ⟨k.index, task.trigger, task.schedule, task.nextRun⟩
      | none => a.plan? k := by
  induction entries generalizing a with
  | nil => rfl
  | cons entry rest ih =>
    obtain ⟨key, task⟩ := entry
    rw [List.forall_mem_cons] at vacant
    rw [List.map_cons, List.nodup_cons] at nodup
    -- No later task has this key, so nothing is armed over it.
    have one := plan?_rearmOne next a key task vacant.1
    have others : ∀ entry ∈ rest, entry.1 ≠ key := by
      intro entry member same
      apply nodup.1
      show key ∈ rest.map Prod.fst
      rw [← same]
      exact List.mem_map_of_mem member
    rw [List.foldl_cons, ih nodup.2 _ fun entry member => by
      rw [one, if_neg (others entry member)]
      exact vacant.2 entry member]
    by_cases same : k = key
    · subst same
      have absent : Table.lookup k rest = none := (Table.get?_eq_none_iff ⟨rest⟩ k).2 nodup.1
      simp only [absent, one, Table.lookup, ↓reduceIte]
    · simp only [one, Table.lookup, same, ↓reduceIte]

/-! ### Arming everything anew -/

theorem rescheduleAll_fst_eq_none_iff {a : Agenda} (upkept : a.Upkept) :
    (a.rescheduleAll next).1 = none ↔
      ∃ key task, a.tasks.get? key = some task ∧ crashes next task.schedule = true := by
  simp only [rescheduleAll, ite_eq_left_iff, List.any_eq_true, Prod.exists,
    Table.get?_eq_some_iff upkept.nodup_keys]
  simp

/-- The number of the tasks that remain is answered. -/
theorem fst_rescheduleAll {a : Agenda} (answered : (a.rescheduleAll next).1 ≠ none) :
    (a.rescheduleAll next).1 = some (a.rescheduleAll next).2.tasks.size := by
  unfold rescheduleAll at answered ⊢
  dsimp only at answered ⊢
  split at answered
  · exact absurd rfl answered
  · next goes => rw [if_neg goes]

/-- Under a key that is reached stands its task. -/
theorem Upkept.lookup_reached {a : Agenda} (upkept : a.Upkept) (k : TaskKey) :
    Table.lookup k (a.reached next) =
      if k ∈ (a.reached next).map Prod.fst then a.tasks.get? k else none := by
  have front : (a.reached next).Sublist a.tasks.entries := List.takeWhile_sublist _
  split
  · next member =>
    have listed : (Table.get? ⟨a.reached next⟩ k).isSome = true := (Table.isSome_get?_iff _ k).2 member
    obtain ⟨task, found⟩ := Option.isSome_iff_exists.1 listed
    have nodup : ((⟨a.reached next⟩ : Table TaskKey Task).keys).Nodup :=
      upkept.nodup_keys.sublist (front.map _)
    have reached := (Table.get?_eq_some_iff nodup).1 found
    exact found.trans ((Table.get?_eq_some_iff upkept.nodup_keys).2 (front.subset reached)).symm
  · next absent => exact (Table.get?_eq_none_iff ⟨a.reached next⟩ k).2 absent

/-- To arm everything anew keeps the tasks that are reached and have an occurrence, with that
occurrence. -/
theorem Upkept.plan?_rescheduleAll {a : Agenda} (upkept : a.Upkept) (k : TaskKey) :
    (a.rescheduleAll next).2.plan? k =
      if k ∈ (a.reached next).map Prod.fst then (a.plan? k).bind (Plan.renew? next) else none := by
  have front : (a.reached next).Sublist a.tasks.entries := List.takeWhile_sublist _
  have all := plan?_foldl_rearm next (upkept.nodup_keys.sublist (front.map _))
    { a with tasks := .empty, queue := [] } (fun _ _ => rfl) k
  refine all.trans ?_
  rw [upkept.lookup_reached]
  by_cases member : k ∈ (a.reached next).map Prod.fst
  · simp only [member, ↓reduceIte, plan?]
    cases a.tasks.get? k <;> rfl
  · simp only [member, ↓reduceIte]
    rfl

/-- Unless a search crashes every task is reached. -/
theorem Upkept.reached_eq {a : Agenda} (upkept : a.Upkept)
    (answered : (a.rescheduleAll next).1 ≠ none) : a.reached next = a.tasks.entries := by
  refine List.takeWhile_eq_self_iff.2 ?_
  rintro ⟨key, task⟩ member
  rw [Bool.not_eq_true', ← Bool.not_eq_true]
  intro crashed
  have armed := (Table.get?_eq_some_iff upkept.nodup_keys).2 member
  exact answered ((rescheduleAll_fst_eq_none_iff upkept).2 ⟨key, task, armed, crashed⟩)

theorem Upkept.plan?_rescheduleAll_of_answer {a : Agenda} (upkept : a.Upkept)
    (answered : (a.rescheduleAll next).1 ≠ none) (k : TaskKey) :
    (a.rescheduleAll next).2.plan? k = (a.plan? k).bind (Plan.renew? next) := by
  rw [upkept.plan?_rescheduleAll, upkept.reached_eq answered]
  split
  · rfl
  · next absent =>
    have vacant : a.tasks.get? k = none := (Table.get?_eq_none_iff _ k).2 absent
    rw [plan?, vacant]
    rfl

/-- The loop leaves no trigger armed that was not armed before with the same schedule. -/
theorem Upkept.plan?_drain {a : Agenda} (upkept : a.Upkept) (o : Outlook) (due : List Automation)
    {k : TaskKey} {p : Plan} (armed : (a.drain o due).2.plan? k = some p) :
    ∃ q, a.plan? k = some q ∧ q.trigger = p.trigger ∧ q.schedule = p.schedule := by
  obtain ⟨untouched, renewed⟩ := upkept.drain_tasks o due
  by_cases formerly : ∃ task, a.Reached o k task
  · obtain ⟨task, reached⟩ := formerly
    obtain ⟨generation, found⟩ := renewed reached
    unfold plan? at armed
    rw [found, Option.map_map, Option.map_eq_some_iff] at armed
    obtain ⟨nextRun, -, rfl⟩ := armed
    refine ⟨⟨k.index, task.trigger, task.schedule, task.nextRun⟩, ?_, rfl, rfl⟩
    rw [plan?, reached.due.1]
    rfl
  · -- What was not reached is as it was.
    unfold plan? at armed ⊢
    rw [untouched (not_exists.1 formerly)] at armed
    exact ⟨p, armed, rfl, rfl⟩

end Agenda

end Hearth

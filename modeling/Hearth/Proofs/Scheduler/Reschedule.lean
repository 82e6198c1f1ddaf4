import Hearth.Proofs.Scheduler.Planning

/-!
# Hearth.Proofs.Scheduler.Reschedule

What a scheduler still has armed after it has armed everything anew, held against the automations that
are scheduled.

## Main definitions

- `Scheduler.Roll`: the automations that are scheduled, which the scheduler itself does not know when
  none of their triggers is armed.
- `Scheduler.Enrolled`: what operations make of the empty scheduler and of the roll beside it, as long
  as the place stays the same.

## Main results

- `Scheduler.Enrolled.covers`: what is armed belongs to an automation of the roll.
- `Scheduler.rescheduleAll_eq_fresh`: to arm everything anew arms what a fresh scheduling would arm,
  as far as it was armed before.
-/

namespace Hearth

namespace Schedule

theorem eq_of_orFault_eq_error {s : Schedule} {sought : Sought} {fault : SearchFault}
    (failed : s.orFault sought = .error fault) :
    fault = .crash ∨ fault = .trigger (.noOccurrence s.display) := by
  cases sought with
  | found t => cases failed
  | nothing => exact .inr (Except.error.inj failed).symm
  | crashed => exact .inl (Except.error.inj failed).symm

end Schedule

namespace Agenda

variable {next : Schedule → Except SearchFault Instant}

/-- The fault of a list of triggers is that of one of them, and not that it has no occurrence. -/
theorem exists_of_planTriggers_eq_error {triggers : List (Nat × Trigger)} {fault : SearchFault}
    (failed : planTriggers next triggers = .error fault) : ∃ entry ∈ triggers,
      (∃ own, Schedule.ofTrigger entry.2 = .error own ∧ fault = .trigger own) ∨
      ∃ s, Schedule.ofTrigger entry.2 = .ok (some s) ∧ next s = .error fault ∧
        ∀ text, fault ≠ .trigger (.noOccurrence text) := by
  induction triggers with
  | nil => cases failed
  | cons entry rest ih =>
    -- Wherever the first trigger is passed over, the fault is found among the others.
    have later (failed : planTriggers next rest = .error fault) :
        ∃ e ∈ entry :: rest,
          (∃ own, Schedule.ofTrigger e.2 = .error own ∧ fault = .trigger own) ∨
          ∃ s, Schedule.ofTrigger e.2 = .ok (some s) ∧ next s = .error fault ∧
            ∀ text, fault ≠ .trigger (.noOccurrence text) := by
      obtain ⟨e, member, cause⟩ := ih failed
      exact ⟨e, List.mem_cons_of_mem _ member, cause⟩
    obtain ⟨index, t⟩ := entry
    simp only [planTriggers, bind, Except.bind, pure, Except.pure] at failed
    cases read : Schedule.ofTrigger t with
    | error other =>
      rw [read] at failed
      cases failed
      exact ⟨(index, t), List.mem_cons_self, .inl ⟨other, read, rfl⟩⟩
    | ok schedule? =>
      rw [read] at failed
      cases schedule? with
      | none => exact later failed
      | some s =>
        simp only [Except.mapError] at failed
        cases found : next s with
        | ok nextRun =>
          rw [found] at failed
          cases others : planTriggers next rest with
          | error other => exact later (others.trans (by simpa [others] using failed))
          | ok plans => simp [others] at failed
        | error other =>
          rw [found] at failed
          -- Only the fault that there is no occurrence is passed over.
          cases other with
          | crash =>
            cases failed
            exact ⟨(index, t), List.mem_cons_self, .inr ⟨s, read, found, by simp⟩⟩
          | trigger own =>
            cases own with
            | noOccurrence text => exact later failed
            | missingDevice _ | invalidTime _ | unknownDay _ | missingLocation =>
              cases failed
              exact ⟨(index, t), List.mem_cons_self, .inr ⟨s, read, found, by simp⟩⟩

end Agenda

namespace Scheduler

open Agenda

/-- A search fails for want of an occurrence, for want of a place if the schedule is one of the sun, or
because it crashes. -/
theorem Reading.next_eq_error {r : Reading} {s : Schedule} {fault : SearchFault}
    (failed : r.next s = .error fault) :
    fault = .crash ∨ fault = .trigger (.noOccurrence s.display) ∨
      fault = .trigger .missingLocation ∧ r.place = none ∧
        ∃ event offset days, s = .sun event offset days := by
  unfold Reading.next at failed
  cases s with
  | clock time days => exact (Schedule.eq_of_orFault_eq_error failed).imp_right .inl
  | sun event offset days =>
    cases place : r.place with
    | none =>
      rw [place] at failed
      exact .inr (.inr ⟨(Except.error.inj failed).symm, rfl, event, offset, days, rfl⟩)
    | some there =>
      rw [place] at failed
      exact (Schedule.eq_of_orFault_eq_error failed).imp_right .inl

theorem Reading.next_sun {r : Reading} (nowhere : r.place = none) (event : SunEvent) (offset : Int)
    (days : List Weekday) : r.next (.sun event offset days) = .error (.trigger .missingLocation) := by
  rw [Reading.next, nowhere]
  rfl

/-- What is planned at one reading is planned at any other one for the same place, unless a search
crashes. -/
theorem plan_of_place {r r' : Reading} (same : r'.place = r.place) {a : Automation}
    (planned : ∃ plans, plan r.next a = .ok plans) {fault : SearchFault}
    (failed : plan r'.next a = .error fault) : fault = .crash := by
  obtain ⟨checked, plannable⟩ := plan_ok_iff.1 planned
  simp only [plan, bind, Except.bind, checked, Except.mapError] at failed
  obtain ⟨entry, member, cause⟩ := exists_of_planTriggers_eq_error failed
  obtain ⟨schedule?, read, sound⟩ := plannable entry member
  rcases cause with ⟨own, unread, -⟩ | ⟨s, read', wrong, occurs⟩
  · cases unread.symm.trans read
  · rcases Reading.next_eq_error wrong with crash | none | ⟨-, nowhere, event, offset, days, rfl⟩
    · exact crash
    · exact absurd none (occurs _)
    · -- Without a place the schedule would have failed at the other reading, too.
      obtain rfl := Except.ok.inj (read.symm.trans read')
      obtain ⟨_, never⟩ :=
        sound _ rfl _ (Reading.next_sun (same.symm.trans nowhere) event offset days)
      cases never

theorem schedule_fst_eq_none_iff {s : Scheduler} {r : Reading} {a : Automation} :
    (s.schedule r a).1 = none ↔ (s.agenda.schedule r.next a).1 = .error .crash := by
  unfold schedule
  dsimp only
  split <;> next found => simp [found]

theorem schedule_fst_eq_ok_iff {s : Scheduler} {r : Reading} {a : Automation} {count : Nat} :
    (s.schedule r a).1 = some (.ok count) ↔ (s.agenda.schedule r.next a).1 = .ok count := by
  unfold schedule
  dsimp only
  split <;> next found => simp [found]

theorem exists_schedule_ok_iff {s : Scheduler} {r : Reading} {a : Automation}
    (enabled : a.enabled = true) :
    (∃ count, (s.schedule r a).1 = some (.ok count)) ↔ ∃ plans, plan r.next a = .ok plans := by
  simp only [schedule_fst_eq_ok_iff, Agenda.schedule, enabled]
  cases plan r.next a with
  | ok plans => simp
  | error fault => cases fault <;> simp

/-! ### The roll of what is scheduled -/

/-- The automations that were enabled and in order when they were scheduled last, and have not been
taken off since. -/
abbrev Roll : Type := AutomationId → Option Automation

def Roll.set (roll : Roll) (id : AutomationId) (entry : Option Automation) : Roll :=
  fun other => if other = id then entry else roll other

/-- Operations that leave it at what is scheduled. -/
inductive Tends : Scheduler → Scheduler → Prop
  | takeDue (s : Scheduler) (r : Reading) : Tends s (s.takeDue r).2
  | rescheduleAll (s : Scheduler) (r : Reading) : Tends s (s.rescheduleAll r).2
  | checkDrift (s : Scheduler) (threshold elapsed : Duration) (r : Reading) :
      Tends s (s.checkDrift threshold elapsed r).2
  | timeUntilNext (s : Scheduler) (r : Reading) : Tends s (s.timeUntilNext r).2
  | remember (s : Scheduler) (capacity : Nat) (record : RunRecord) :
      Tends s (s.remember capacity record)
  | permute (s : Scheduler) {tasks : Table TaskKey Task}
      (same : tasks.entries.Perm s.agenda.tasks.entries) :
      Tends s { s with agenda := { s.agenda with tasks } }

theorem Tends.step {s t : Scheduler} (tends : Tends s t) : Step s t := by
  cases tends with
  | takeDue r => exact .takeDue s r
  | rescheduleAll r => exact .rescheduleAll s r
  | checkDrift threshold elapsed r => exact .checkDrift s threshold elapsed r
  | timeUntilNext r => exact .timeUntilNext s r
  | remember capacity record => exact .remember s capacity record
  | permute same => exact .permute s same

/-- A scheduler at a place, and the roll that has been kept beside it. -/
inductive Enrolled (place : Option Coordinates) : Scheduler → Roll → Prop
  | empty : Enrolled place empty fun _ => none
  | schedule {s : Scheduler} {roll : Roll} (before : Enrolled place s roll) {r : Reading}
      (here : r.place = place) {a : Automation} {answer : Except Failure Nat}
      (answered : (s.schedule r a).1 = some answer) :
      Enrolled place (s.schedule r a).2
        (roll.set a.id (if a.enabled && answer.isOk then some a else none))
  /-- Scheduling that crashes has no effect on the roll. -/
  | crash {s : Scheduler} {roll : Roll} (before : Enrolled place s roll) {r : Reading}
      {a : Automation} (crashed : (s.schedule r a).1 = none) :
      Enrolled place (s.schedule r a).2 roll
  | unschedule {s : Scheduler} {roll : Roll} (before : Enrolled place s roll) (id : AutomationId) :
      Enrolled place (s.unschedule id).2 (roll.set id none)
  | clear {s : Scheduler} {roll : Roll} (before : Enrolled place s roll) :
      Enrolled place s.clear fun _ => none
  | tend {s t : Scheduler} {roll : Roll} (before : Enrolled place s roll) (tends : Tends s t) :
      Enrolled place t roll

variable {place : Option Coordinates} {s t : Scheduler} {roll : Roll}

theorem Enrolled.reachable (enrolled : Enrolled place s roll) : s.Reachable := by
  induction enrolled with
  | empty => exact .refl
  | schedule _ _ _ ih => exact ih.tail (.schedule _ _ _)
  | crash _ _ ih => exact ih.tail (.schedule _ _ _)
  | unschedule _ id ih => exact ih.tail (.unschedule _ id)
  | clear _ ih => exact ih.tail (.clear _)
  | tend _ tends ih => exact ih.tail tends.step

/-- The roll accounts for everything that is armed. -/
structure Covers (place : Option Coordinates) (s : Scheduler) (roll : Roll) : Prop where
  id_eq : ∀ {id a}, roll id = some a → a.id = id
  enabled : ∀ {id a}, roll id = some a → a.enabled = true
  planned : ∀ {id a}, roll id = some a → ∀ r : Reading, r.place = place →
    ∀ {fault}, plan r.next a = .error fault → fault = .crash
  armed : ∀ {k p}, s.agenda.plan? k = some p → ∃ a, roll k.automation = some a ∧
    a.triggers[k.index]? = some p.trigger ∧ Schedule.ofTrigger p.trigger = .ok (some p.schedule)

theorem Covers.schedule (covers : Covers place s roll) {r : Reading} (here : r.place = place)
    {a : Automation} {answer : Except Failure Nat} (answered : (s.schedule r a).1 = some answer) :
    Covers place (s.schedule r a).2
      (roll.set a.id (if a.enabled && answer.isOk then some a else none)) := by
  -- The roll has a new entry only for an automation that is enabled and in order.
  have entry {id b} (found : roll.set a.id (if a.enabled && answer.isOk then some a else none) id =
      some b) : roll id = some b ∨ (id = a.id ∧ b = a ∧ a.enabled = true ∧
        ∃ plans, plan r.next a = .ok plans) := by
    unfold Roll.set at found
    by_cases own : id = a.id
    · rw [if_pos own] at found
      split at found
      · next accepted =>
        rw [Bool.and_eq_true] at accepted
        refine .inr ⟨own, (Option.some.inj found).symm, accepted.1, ?_⟩
        cases answer with
        | error failure => cases accepted.2
        | ok count => exact (exists_schedule_ok_iff accepted.1).1 ⟨count, answered⟩
      · cases found
    · rw [if_neg own] at found
      exact .inl found
  refine ⟨?_, ?_, ?_, ?_⟩
  · intro id b found
    rcases entry found with before | ⟨rfl, rfl, -, -⟩
    · exact covers.id_eq before
    · rfl
  · intro id b found
    rcases entry found with before | ⟨-, rfl, enabled, -⟩
    · exact covers.enabled before
    · exact enabled
  · intro id b found r' there
    rcases entry found with before | ⟨-, rfl, -, plans⟩
    · exact covers.planned before r' there
    · exact plan_of_place (there.trans here.symm) plans
  · intro k p armed
    have returned : (s.agenda.schedule r.next a).1 ≠ .error .crash := by
      rw [ne_eq, ← schedule_fst_eq_none_iff, answered]
      exact nofun
    rw [agenda_schedule, plan?_schedule returned] at armed
    by_cases own : k.automation = a.id
    · rw [if_pos own] at armed
      obtain ⟨enabled, accepted, place, plans⟩ := armed
      refine ⟨a, ?_, place ▸ plans.trigger, plans.schedule⟩
      obtain ⟨count, ok⟩ := (exists_schedule_ok_iff (s := s) enabled).2 accepted
      obtain rfl := Option.some.inj (answered.symm.trans ok)
      rw [Roll.set, if_pos own, enabled]
      rfl
    · rw [if_neg own] at armed
      obtain ⟨b, found, rest⟩ := covers.armed armed
      refine ⟨b, ?_, rest⟩
      rw [Roll.set, if_neg own]
      exact found

/-- Scheduling that crashes leaves the agenda as it was. -/
theorem agenda_schedule_of_crash {r : Reading} {a : Automation}
    (crashed : (s.schedule r a).1 = none) : (s.schedule r a).2.agenda = s.agenda := by
  rw [agenda_schedule, schedule_of_crash (schedule_fst_eq_none_iff.1 crashed)]

theorem Covers.unschedule (covers : Covers place s roll) (id : AutomationId) :
    Covers place (s.unschedule id).2 (roll.set id none) := by
  have entry {other b} (found : roll.set id none other = some b) : roll other = some b := by
    unfold Roll.set at found
    split at found
    · cases found
    · exact found
  refine ⟨fun found => covers.id_eq (entry found), fun found => covers.enabled (entry found),
    fun found => covers.planned (entry found), ?_⟩
  intro k p armed
  have removed : (s.agenda.remove id).2.plan? k = some p := armed
  rw [plan?_remove] at removed
  split at removed
  · cases removed
  · next other =>
    obtain ⟨b, found, rest⟩ := covers.armed removed
    refine ⟨b, ?_, rest⟩
    rw [Roll.set, if_neg other]
    exact found

/-- Whoever tends a scheduler arms no trigger and gives none another schedule. -/
theorem Tends.plan? (tends : Tends s t) (upkept : s.agenda.Upkept) {k : TaskKey} {p : Plan}
    (armed : t.agenda.plan? k = some p) :
    ∃ q, s.agenda.plan? k = some q ∧ q.trigger = p.trigger ∧ q.schedule = p.schedule := by
  have renewed (r : Reading) {p : Plan}
      (found : (s.agenda.rescheduleAll r.next).2.plan? k = some p) :
      ∃ q, s.agenda.plan? k = some q ∧ q.trigger = p.trigger ∧ q.schedule = p.schedule := by
    obtain ⟨-, found⟩ := Option.ite_none_right_eq_some.1 ((upkept.plan?_rescheduleAll k).symm.trans found)
    obtain ⟨q, before, renewal⟩ := Option.bind_eq_some_iff.1 found
    obtain ⟨nextRun, -, rfl⟩ := Option.map_eq_some_iff.1 renewal
    exact ⟨q, before, rfl, rfl⟩
  cases tends with
  | takeDue r => exact upkept.plan?_drain r.outlook [] armed
  | rescheduleAll r => exact renewed r armed
  | checkDrift threshold elapsed r =>
    unfold Scheduler.checkDrift at armed
    dsimp only at armed
    split at armed
    · exact ⟨p, armed, rfl, rfl⟩
    · exact ⟨p, armed, rfl, rfl⟩
    · exact renewed r armed
  | timeUntilNext r => exact ⟨p, armed, rfl, rfl⟩
  | remember capacity record =>
    unfold Scheduler.remember at armed
    split at armed
    · exact ⟨p, armed, rfl, rfl⟩
    · exact ⟨p, armed, rfl, rfl⟩
  | @permute tasks same =>
    have nodup : tasks.keys.Nodup := (same.map Prod.fst).nodup_iff.2 upkept.nodup_keys
    have looked : s.agenda.tasks.get? k = tasks.get? k := by
      refine Option.ext fun task => ?_
      rw [Table.get?_eq_some_iff nodup, Table.get?_eq_some_iff upkept.nodup_keys, same.mem_iff]
    refine ⟨p, ?_, rfl, rfl⟩
    unfold Agenda.plan? at armed ⊢
    rw [looked]
    exact armed

/-- What is armed belongs to an automation of the roll. -/
theorem Enrolled.covers (enrolled : Enrolled place s roll) : Covers place s roll := by
  induction enrolled with
  | empty => exact ⟨nofun, nofun, nofun, nofun⟩
  | schedule _ here answered ih => exact ih.schedule here answered
  | crash _ crashed ih =>
    refine ⟨ih.id_eq, ih.enabled, ih.planned, ?_⟩
    intro k p armed
    rw [agenda_schedule_of_crash crashed] at armed
    exact ih.armed armed
  | unschedule _ id ih => exact ih.unschedule id
  | clear => exact ⟨nofun, nofun, nofun, nofun⟩
  | tend before tends ih =>
    refine ⟨ih.id_eq, ih.enabled, ih.planned, ?_⟩
    intro k p armed
    obtain ⟨q, formerly, trigger, schedule⟩ := tends.plan? before.reachable.upkept armed
    obtain ⟨a, found, listed, read⟩ := ih.armed formerly
    rw [trigger] at listed read
    rw [schedule] at read
    exact ⟨a, found, listed, read⟩

/-! ### Arming everything anew -/

/-- What scheduling an automation of the roll arms for it, whatever the scheduler, unless it crashes. -/
theorem Covers.schedule_fresh (covers : Covers place s roll) {r : Reading} (here : r.place = place)
    {fresh : Scheduler} {id : AutomationId} {a : Automation} (found : roll id = some a)
    (returned : (fresh.schedule r a).1 ≠ none) :
    (∃ plans, plan r.next a = .ok plans) ∧ ∀ {index p},
      (fresh.schedule r a).2.agenda.plan? ⟨id, index⟩ = some p ↔
        p.index = index ∧ a.Plans r.next p := by
  have enabled := covers.enabled found
  rw [ne_eq, schedule_fst_eq_none_iff] at returned
  have accepted : ∃ plans, plan r.next a = .ok plans := by
    cases planned : plan r.next a with
    | ok plans => exact ⟨plans, rfl⟩
    | error fault =>
      obtain rfl := covers.planned found r here planned
      exact absurd (schedule_fst_eq_crash.2 ⟨enabled, planned⟩) returned
  refine ⟨accepted, ?_⟩
  intro index p
  rw [agenda_schedule, Agenda.plan?_schedule returned, if_pos (covers.id_eq found).symm]
  simp only [enabled, accepted, true_and]

/-- If nothing crashes when the automations of the roll are scheduled afresh, nothing crashes when what is
armed is armed anew. -/
theorem Covers.rescheduleAll_answers (covers : Covers place s roll) (upkept : s.agenda.Upkept)
    {r : Reading} (here : r.place = place) {fresh : Scheduler}
    (returned : ∀ {id a}, roll id = some a → (fresh.schedule r a).1 ≠ none) :
    (s.agenda.rescheduleAll r.next).1 ≠ none := by
  rw [ne_eq, rescheduleAll_fst_eq_none_iff upkept]
  rintro ⟨key, task, armed, crashed⟩
  have planned : s.agenda.plan? key =
      some ⟨key.index, task.trigger, task.schedule, task.nextRun⟩ := by
    rw [plan?, armed]
    rfl
  obtain ⟨a, found, listed, read⟩ := covers.armed planned
  obtain ⟨accepted, -⟩ := covers.schedule_fresh here found (returned found)
  have member := Automation.mem_scheduleTriggers.2
    ⟨listed, Schedule.isSchedule_of_ofTrigger read⟩
  obtain ⟨schedule?, read', sound⟩ := (plan_ok_iff.1 accepted).2 _ member
  obtain rfl := Except.ok.inj (read.symm.trans read')
  unfold crashes at crashed
  split at crashed
  · next failed =>
    obtain ⟨text, never⟩ := sound _ rfl _ failed
    cases never
  · cases crashed

/-- To arm everything anew arms exactly what scheduling the automations of the roll afresh would arm,
as far as it was armed before, provided that none of these schedulings crashes. What had no occurrence
when it was last looked at stays away. -/
theorem rescheduleAll_eq_fresh (enrolled : Enrolled place s roll) {r : Reading}
    (here : r.place = place) (fresh : Scheduler)
    (returned : ∀ {id a}, roll id = some a → (fresh.schedule r a).1 ≠ none) :
    (∀ {id a}, roll id = some a → (∃ count, (fresh.schedule r a).1 = some (.ok count)) ∧
      ∀ {index p}, (fresh.schedule r a).2.agenda.plan? ⟨id, index⟩ = some p ↔
        p.index = index ∧ a.Plans r.next p) ∧
    (s.rescheduleAll r).1 = some (s.rescheduleAll r).2.agenda.tasks.size ∧
    (s.rescheduleAll r).2.agenda.tasks.keys.Nodup ∧
    ∀ k p, (s.rescheduleAll r).2.agenda.plan? k = some p ↔
      (s.agenda.plan? k).isSome = true ∧
        ∃ a, roll k.automation = some a ∧ (fresh.schedule r a).2.agenda.plan? k = some p := by
  have covers := enrolled.covers
  have upkept := enrolled.reachable.upkept
  have answers := covers.rescheduleAll_answers upkept here returned
  refine ⟨?_, ?_, (upkept.edits (upkept.edits_rescheduleAll r.next)).nodup_keys, ?_⟩
  · intro id a found
    obtain ⟨accepted, armed⟩ := covers.schedule_fresh here found (returned found)
    exact ⟨(exists_schedule_ok_iff (covers.enabled found)).2 accepted, armed⟩
  · exact fst_rescheduleAll answers
  · intro k p
    have renewed : (s.rescheduleAll r).2.agenda.plan? k =
        (s.agenda.plan? k).bind (Plan.renew? r.next) :=
      upkept.plan?_rescheduleAll_of_answer answers k
    rw [renewed]
    cases armed : s.agenda.plan? k with
    | none => simp
    | some q =>
      obtain ⟨a, found, listed, read⟩ := covers.armed armed
      obtain ⟨-, own⟩ := covers.schedule_fresh here found (returned found)
      -- The trigger and the schedule of a task are those of its automation, so a fresh scheduling looks
      -- for the same occurrence.
      have place := index_of_plan? armed
      rw [Option.bind_some, Plan.renew?_eq_some_iff]
      constructor
      · rintro ⟨index, trigger, schedule, nextRun⟩
        have here : p.index = k.index := index.trans place
        refine ⟨rfl, a, found, own.2 ⟨here, ?_, ?_, nextRun⟩⟩
        · rw [here, trigger]
          exact listed
        · rw [trigger, schedule]
          exact read
      · rintro ⟨-, a', found', planned⟩
        obtain rfl : a = a' := Option.some.inj (found.symm.trans found')
        obtain ⟨here, plans⟩ := own.1 planned
        have trigger : p.trigger = q.trigger := by
          have there := plans.trigger
          rw [here, listed] at there
          exact (Option.some.inj there).symm
        have schedule : p.schedule = q.schedule := by
          have there := plans.schedule
          rw [trigger, read] at there
          exact (Option.some.inj (Except.ok.inj there)).symm
        exact ⟨here.trans place.symm, trigger, schedule, plans.nextRun⟩

/-! ### The alarm, armed anew -/

/-- The roll once the alarm has been set. -/
def alarmRoll : Roll := Roll.set (fun _ => none) alarm.id (some alarm)

theorem enrolled_alarm {r : Reading} (here : r.place = none) {count : Nat}
    (accepted : (empty.schedule r alarm).1 = some (.ok count)) :
    Enrolled none (empty.schedule r alarm).2 alarmRoll :=
  Enrolled.empty.schedule here accepted

/-- Eight hours after the first midnight. -/
def firstMorning : Reading := ⟨⟨28800, 0, Instant.zero_nanos_lt⟩, .universal, none⟩

/-- Set at midnight and armed anew at eight, the alarm rings on the next day. -/
theorem rescheduleAll_eq_fresh_alarm :
    Enrolled none (empty.schedule firstMidnight alarm).2 alarmRoll ∧
    (∀ {id a}, alarmRoll id = some a → (empty.schedule firstMorning a).1 ≠ none) ∧
    ((empty.schedule firstMidnight alarm).2.rescheduleAll firstMorning).2.agenda.plan? ⟨⟨⟨1⟩⟩, 0⟩ =
      some ⟨0, .time "07:00" none, .clock ⟨25200, by decide⟩ [], ⟨111600, 0, by decide⟩⟩ := by
  have set : (empty.schedule firstMidnight alarm).1 = some (.ok 2) :=
    schedule_fst_eq_ok_iff.2 (by decide +kernel)
  have again : (empty.schedule firstMorning alarm).1 = some (.ok 2) :=
    schedule_fst_eq_ok_iff.2 (by decide +kernel)
  have enrolled := enrolled_alarm (r := firstMidnight) rfl set
  have found : alarmRoll alarm.id = some alarm := rfl
  have returned : ∀ {id a}, alarmRoll id = some a → (empty.schedule firstMorning a).1 ≠ none := by
    intro id a listed
    obtain ⟨-, same⟩ := Option.ite_none_right_eq_some.1 listed
    cases same
    rw [again]
    exact nofun
  obtain ⟨accepted, -, -, armed⟩ := rescheduleAll_eq_fresh enrolled (r := firstMorning) rfl empty
    returned
  have read : Schedule.ofTrigger (.time "07:00" none) =
      .ok (some (.clock ⟨25200, by decide⟩ [])) := by decide +kernel
  have next : firstMorning.next (.clock ⟨25200, by decide⟩ []) = .ok ⟨111600, 0, by decide⟩ := by
    decide +kernel
  refine ⟨enrolled, returned, (armed _ _).2 ⟨by decide +kernel, alarm, found, ?_⟩⟩
  exact (accepted found).2.2 ⟨rfl, rfl, read, next⟩

/-- The last evening of the calendar, an hour before midnight. -/
def lastEvening : Reading := ⟨⟨8210266873200, 0, Instant.zero_nanos_lt⟩, .universal, none⟩

/-- Set when it has no occurrence any more, the alarm is scheduled without a task. Later, with the clock
put back, a fresh scheduling would arm it, but to arm everything anew does not. -/
theorem rescheduleAll_misses_alarm :
    Enrolled none (empty.schedule lastEvening alarm).2 alarmRoll ∧
    ((empty.schedule lastEvening alarm).2.rescheduleAll firstMidnight).1 = some 0 ∧
    ((empty.schedule lastEvening alarm).2.rescheduleAll firstMidnight).2.agenda.tasks.size = 0 ∧
    (empty.schedule firstMidnight alarm).1 = some (.ok 2) ∧
    ((empty.schedule firstMidnight alarm).2.agenda.plan? ⟨⟨⟨1⟩⟩, 0⟩).map Plan.nextRun =
      some ⟨25200, 0, by decide⟩ := by
  have set : (empty.schedule lastEvening alarm).1 = some (.ok 0) :=
    schedule_fst_eq_ok_iff.2 (by decide +kernel)
  refine ⟨enrolled_alarm rfl set, ?_, ?_, schedule_fst_eq_ok_iff.2 ?_, ?_⟩
  all_goals decide +kernel

end Scheduler

end Hearth

import Hearth.Proofs.Scheduler.Reschedule

/-!
# Hearth.Proofs.Scheduler.Faults

Why an automation cannot be armed, and that nothing else keeps it from being armed.

## Main definitions

- `Automation.InOrder`: every trigger is written as it should be.
- `Automation.Unfit`: the fault of an automation at a place.

## Main results

- `Automation.checkTriggers_eq_error_iff`: the check of the triggers finds the first one with a fault.
- `Agenda.plan_eq_error_iff`: unless a search crashes, an automation is planned unless it is unfit, and
  then its fault is told.

## Proof strategy

A trigger that has passed its check has a schedule if it is armed at all, so the search for an
occurrence is left with two faults of its own: that there is none, which is passed over, and that a
schedule of the sun has no place. Apart from these it may crash, which is no fault of the automation.
-/

namespace Hearth

/-! ### Readings that fail -/

/-- A sequence of two does not fail in a way in which neither of them does. -/
theorem bind_ne_error {ε α β : Type} {x : Except ε α} {k : α → Except ε β} {e : ε}
    (first : x ≠ .error e) (rest : ∀ a, k a ≠ .error e) : x >>= k ≠ .error e := by
  cases x with
  | error other =>
    rintro ⟨⟩
    exact first rfl
  | ok a => exact rest a

theorem TimeOfDay.read_ne_missingLocation (s : String) : read s ≠ .error .missingLocation := by
  unfold read
  repeat' split
  all_goals exact nofun

theorem Weekday.read_ne_missingLocation (name : String) : read name ≠ .error .missingLocation := by
  unfold read
  split
  all_goals exact nofun

theorem Weekday.readAll_ne_missingLocation (names : List String) :
    readAll names ≠ .error .missingLocation := by
  -- The fault of a list of names is that of one of its names.
  induction names with
  | nil => exact nofun
  | cons name rest ih =>
    exact bind_ne_error (read_ne_missingLocation name) fun _ => bind_ne_error ih fun _ => nofun

/-! ### One trigger -/

namespace Trigger

/-- Whatever is wrong with how a trigger is written, it is not the place. -/
theorem check_ne_missingLocation (t : Trigger) (index : Nat) :
    t.check index ≠ .error .missingLocation := by
  cases t with
  | time written days =>
    refine bind_ne_error (TimeOfDay.read_ne_missingLocation written) fun _ => ?_
    exact bind_ne_error (Weekday.readAll_ne_missingLocation _) fun _ => nofun
  | sun event offset days =>
    exact bind_ne_error (Weekday.readAll_ne_missingLocation _) fun _ => nofun
  | condition device comparison threshold value =>
    cases device with
    | none => exact nofun
    | some device => exact nofun
  | geofence fence crossing => exact nofun
  | manual => exact nofun

/-- A trigger that is written as it should be can be read as a schedule, if it has one. -/
theorem ofTrigger_of_check {t : Trigger} {index : Nat} (checked : t.check index = .ok ()) :
    ∃ schedule?, Schedule.ofTrigger t = .ok schedule? := by
  cases t with
  | time written days =>
    simp only [check, bind, Except.bind] at checked
    simp only [Schedule.ofTrigger, bind, Except.bind]
    cases read : TimeOfDay.read written with
    | error fault => simp [read] at checked
    | ok time =>
      cases named : Weekday.readAll (days.getD []) with
      | error fault => simp [read, named] at checked
      | ok names => exact ⟨_, rfl⟩
  | sun event offset days =>
    simp only [check, bind, Except.bind] at checked
    simp only [Schedule.ofTrigger, bind, Except.bind]
    cases named : Weekday.readAll (days.getD []) with
    | error fault => simp [named] at checked
    | ok names => exact ⟨_, rfl⟩
  | _ => exact ⟨none, rfl⟩

end Trigger

namespace Schedule

theorem eq_sun_of_ofTrigger_sun {event : SunEvent} {offset : Int} {written : Option (List String)}
    {schedule? : Option Schedule} (read : ofTrigger (.sun event offset written) = .ok schedule?) :
    ∃ days, schedule? = some (.sun event offset days) := by
  simp only [ofTrigger, bind, Except.bind, pure, Except.pure] at read
  split at read
  · cases read
  · next days _ =>
    cases read
    exact ⟨days, rfl⟩

/-- Only a trigger for the sun is read as a schedule of the sun. -/
theorem eq_sun_of_ofTrigger {t : Trigger} {event : SunEvent} {offset : Int}
    {days : List Weekday} (read : ofTrigger t = .ok (some (.sun event offset days))) :
    ∃ written, t = .sun event offset written := by
  cases t with
  | time time written =>
    simp only [ofTrigger, bind, Except.bind, pure, Except.pure] at read
    repeat' split at read
    all_goals cases read
  | sun event' offset' written =>
    obtain ⟨days', same⟩ := eq_sun_of_ofTrigger_sun read
    cases same
    exact ⟨written, rfl⟩
  | _ => cases read

end Schedule

/-! ### All triggers of an automation -/

namespace Automation

theorem checkFrom_eq_ok_iff {index : Nat} {ts : List Trigger} :
    checkFrom index ts = .ok () ↔
      ∀ (i : Nat) (t : Trigger), ts[i]? = some t → t.check (index + i) = .ok () := by
  induction ts generalizing index with
  | nil => simp [checkFrom]
  | cons first rest ih =>
    -- The positions behind the first trigger are counted from one further on.
    have behind : (∀ (i : Nat) (t : Trigger), rest[i]? = some t →
        t.check (index + (i + 1)) = .ok ()) ↔ checkFrom (index + 1) rest = .ok () := by
      simp only [ih, Nat.add_assoc, Nat.add_comm 1]
    simp only [checkFrom, bind, Except.bind]
    constructor
    · intro passed i t found
      cases checked : first.check index with
      | error fault => simp [checked] at passed
      | ok =>
        cases i with
        | zero =>
          obtain rfl : first = t := Option.some.inj found
          exact checked
        | succ i => exact behind.2 (by simpa [checked] using passed) i t found
    · intro passed
      have here : first.check index = .ok () := passed 0 first rfl
      simpa only [here] using behind.1 fun i t found => passed (i + 1) t found

/-- A check that fails tells the fault of the first trigger that has one. -/
theorem checkFrom_eq_error_iff {index : Nat} {ts : List Trigger} {fault : TriggerFault} :
    checkFrom index ts = .error fault ↔ ∃ (i : Nat) (t : Trigger), ts[i]? = some t ∧
      t.check (index + i) = .error fault ∧
      ∀ (j : Nat) (u : Trigger), j < i → ts[j]? = some u → u.check (index + j) = .ok () := by
  induction ts generalizing index with
  | nil => simp [checkFrom]
  | cons first rest ih =>
    simp only [checkFrom, bind, Except.bind]
    cases checked : first.check index with
    | error other =>
      constructor
      · intro failed
        exact ⟨0, first, rfl, checked.trans failed, nofun⟩
      · rintro ⟨i, t, found, wrong, before⟩
        cases i with
        | zero =>
          obtain rfl : first = t := Option.some.inj found
          exact checked.symm.trans wrong
        | succ i =>
          -- A later trigger is not reached.
          have passed : first.check index = .ok () := before 0 first (Nat.succ_pos i) rfl
          simp [checked] at passed
    | ok =>
      show checkFrom (index + 1) rest = .error fault ↔ _
      rw [ih]
      constructor
      · rintro ⟨i, t, found, wrong, before⟩
        refine ⟨i + 1, t, found, by rwa [Nat.add_assoc, Nat.add_comm 1] at wrong, ?_⟩
        intro j u earlier there
        cases j with
        | zero =>
          obtain rfl : first = u := Option.some.inj there
          exact checked
        | succ j =>
          have passed := before j u (Nat.lt_of_succ_lt_succ earlier) there
          rwa [Nat.add_assoc, Nat.add_comm 1] at passed
      · rintro ⟨i, t, found, wrong, before⟩
        cases i with
        | zero =>
          obtain rfl : first = t := Option.some.inj found
          simp [checked] at wrong
        | succ i =>
          refine ⟨i, t, found, by rwa [Nat.add_assoc, Nat.add_comm 1], ?_⟩
          intro j u earlier there
          rw [Nat.add_assoc, Nat.add_comm 1]
          exact before (j + 1) u (Nat.succ_lt_succ earlier) there

/-- Every trigger, of whatever kind, is written as it should be. -/
def InOrder (a : Automation) : Prop :=
  ∀ (i : Nat) (t : Trigger), a.triggers[i]? = some t → t.check i = .ok ()

/-- What keeps an automation from being armed at a place. The first trigger that is not in order is at
fault; only if all are is it the place that is missed. -/
inductive Unfit (a : Automation) (place : Option Coordinates) : TriggerFault → Prop
  | malformed {i : Nat} {t : Trigger} {fault : TriggerFault} (found : a.triggers[i]? = some t)
      (wrong : t.check i = .error fault)
      (before : ∀ (j : Nat) (u : Trigger), j < i → a.triggers[j]? = some u → u.check j = .ok ()) :
      Unfit a place fault
  | unplaced {event : SunEvent} {offset : Int} {days : Option (List String)} (inOrder : a.InOrder)
      (listed : .sun event offset days ∈ a.triggers) (nowhere : place = none) :
      Unfit a place .missingLocation

variable {a : Automation}

theorem checkTriggers_eq_ok_iff : a.checkTriggers = .ok () ↔ a.InOrder := by
  simp only [checkTriggers, checkFrom_eq_ok_iff, Nat.zero_add, InOrder]

theorem checkTriggers_eq_error_iff {fault : TriggerFault} : a.checkTriggers = .error fault ↔
    ∃ (i : Nat) (t : Trigger), a.triggers[i]? = some t ∧ t.check i = .error fault ∧
      ∀ (j : Nat) (u : Trigger), j < i → a.triggers[j]? = some u → u.check j = .ok () := by
  simp only [checkTriggers, checkFrom_eq_error_iff, Nat.zero_add]

/-- The place is missed last. -/
theorem Unfit.inOrder {place : Option Coordinates} (unfit : a.Unfit place .missingLocation) :
    a.InOrder := by
  cases unfit with
  | malformed found wrong before => exact absurd wrong (Trigger.check_ne_missingLocation _ _)
  | unplaced inOrder listed nowhere => exact inOrder

end Automation

/-! ### Planning -/

namespace Agenda

open Scheduler (Reading)

variable {r : Reading} {a : Automation}

/-- When all triggers are in order, the plans of an automation fail for want of a place, or because a
search crashes. -/
theorem planTriggers_eq_error (inOrder : a.InOrder) {fault : SearchFault}
    (failed : planTriggers r.next a.scheduleTriggers = .error fault) :
    (fault = .crash ∧ ∃ t ∈ a.triggers, ∃ s, Schedule.ofTrigger t = .ok (some s) ∧
      crashes r.next s = true) ∨
    (fault = .trigger .missingLocation ∧ r.place = none ∧
      ∃ event offset days, Trigger.sun event offset days ∈ a.triggers) := by
  obtain ⟨⟨index, t⟩, member, failure⟩ := exists_of_planTriggers_eq_error failed
  obtain ⟨found, -⟩ := Automation.mem_scheduleTriggers.1 member
  have listed := List.mem_of_getElem? found
  rcases failure with ⟨own, unread, -⟩ | ⟨s, read, failed, occurs⟩
  · -- What could not be read would not have passed the check.
    obtain ⟨schedule?, read⟩ := Trigger.ofTrigger_of_check (inOrder index t found)
    cases unread.symm.trans read
  · rcases Reading.next_eq_error failed with rfl | none | ⟨rfl, nowhere, event, offset, days, rfl⟩
    · exact .inl ⟨rfl, t, listed, s, read, by rw [crashes, failed]⟩
    · exact absurd none (occurs _)
    · obtain ⟨written, rfl⟩ := Schedule.eq_sun_of_ofTrigger read
      exact .inr ⟨rfl, nowhere, event, offset, written, listed⟩

/-- A trigger for the sun cannot be planned without a place. -/
theorem planTriggers_ne_ok (nowhere : r.place = none) {event : SunEvent} {offset : Int}
    {days : Option (List String)} (listed : .sun event offset days ∈ a.triggers)
    (plans : List Plan) : planTriggers r.next a.scheduleTriggers ≠ .ok plans := by
  intro planned
  obtain ⟨index, found⟩ := List.getElem?_of_mem listed
  have member : (index, Trigger.sun event offset days) ∈ a.scheduleTriggers :=
    Automation.mem_scheduleTriggers.2 ⟨found, rfl⟩
  obtain ⟨schedule?, read, sound⟩ := planTriggers_ok_iff.1 ⟨plans, planned⟩ _ member
  obtain ⟨days', rfl⟩ := Schedule.eq_sun_of_ofTrigger_sun read
  obtain ⟨text, never⟩ := sound _ rfl _ (Reading.next_sun nowhere event offset days')
  cases never

/-- A search crashes only for an automation that is in order. -/
theorem inOrder_of_plan_eq_crash (crashed : plan r.next a = .error .crash) :
    a.InOrder ∧ ∃ t ∈ a.triggers, ∃ s, Schedule.ofTrigger t = .ok (some s) ∧
      crashes r.next s = true := by
  simp only [plan, bind, Except.bind] at crashed
  cases checked : a.checkTriggers with
  | error other =>
    rw [checked] at crashed
    cases crashed
  | ok =>
    rw [checked] at crashed
    have inOrder := Automation.checkTriggers_eq_ok_iff.1 checked
    rcases planTriggers_eq_error inOrder crashed with ⟨-, cause⟩ | ⟨never, -⟩
    · exact ⟨inOrder, cause⟩
    · cases never

/-- Unless a search crashes, an automation is planned unless it is unfit, and then its fault is told. -/
theorem plan_eq_error_iff (returned : plan r.next a ≠ .error .crash) {fault : TriggerFault} :
    plan r.next a = .error (.trigger fault) ↔ a.Unfit r.place fault := by
  simp only [plan, bind, Except.bind] at returned ⊢
  -- The check comes before the search for occurrences, so its faults come first.
  cases checked : a.checkTriggers with
  | error other =>
    constructor
    · intro failed
      cases failed
      obtain ⟨i, t, found, wrong, before⟩ := Automation.checkTriggers_eq_error_iff.1 checked
      exact .malformed found wrong before
    · intro unfit
      cases unfit with
      | malformed found wrong before =>
        have failed := Automation.checkTriggers_eq_error_iff.2 ⟨_, _, found, wrong, before⟩
        obtain rfl := Except.error.inj (checked.symm.trans failed)
        rfl
      | unplaced inOrder listed nowhere =>
        have passed := Automation.checkTriggers_eq_ok_iff.2 inOrder
        cases checked.symm.trans passed
  | ok =>
    have inOrder := Automation.checkTriggers_eq_ok_iff.1 checked
    rw [checked] at returned
    show planTriggers r.next a.scheduleTriggers = .error (.trigger fault) ↔ _
    constructor
    · intro failed
      rcases planTriggers_eq_error inOrder failed with ⟨never, -⟩ | ⟨same, nowhere, _, _, _, listed⟩
      · cases never
      · cases same
        exact .unplaced inOrder listed nowhere
    · intro unfit
      cases unfit with
      | malformed found wrong before => cases wrong.symm.trans (inOrder _ _ found)
      | unplaced inOrder listed nowhere =>
        -- There are no plans, so there is a fault, and it can only be this one.
        cases planned : planTriggers r.next a.scheduleTriggers with
        | ok plans => exact absurd planned (planTriggers_ne_ok nowhere listed plans)
        | error other =>
          rcases planTriggers_eq_error inOrder planned with ⟨rfl, -⟩ | ⟨rfl, -⟩
          · exact absurd planned returned
          · rfl

end Agenda

end Hearth

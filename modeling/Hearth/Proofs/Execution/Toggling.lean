import Hearth.Proofs.Execution.Contract
import Hearth.Proofs.Execution.Rollback

/-!
# Hearth.Proofs.Execution.Toggling

What becomes of an action that toggles a device.

## Main definition

- `Appliance.Telltale`: an appliance of which the engine can tell whether it is on.

## Main results

- `Batch.toggle_keeps_direction`: however often a toggle is tried, it always goes in the direction that
  was chosen before the first attempt.
- `Batch.execute_toggles`: a toggle of such an appliance leaves it as if the appliance had toggled itself.

## Proof strategy

The direction is read off what the registry knows. For an appliance that is telltale this is the direction
that it would take by itself, so it is enough that the first attempt is carried out: the wait for the line
is over when the latency is, and the time allowed is not shorter.
-/

namespace Hearth

variable {σ : Type}

namespace Batch

/-! ### One direction -/

theorem command_toggle {a : Action} (toggles : a.kind = .toggle) : a.command = .ok .toggle := by
  rw [Action.command, toggles]

theorem target?_toggle (link : DeviceLink σ) {a : Action} (toggles : a.kind = .toggle) (s : σ) :
    target? link a s = (link.lookup s a.device).map fun d =>
      (d, if d.isOn then .turnOff else .turnOn) := by
  rw [target?, command_toggle toggles]
  rfl

/-- However a device responds, and whatever becomes of it and of the registry meanwhile: a toggle always
makes the same call, with what was known of the device before the first attempt. -/
theorem toggle_keeps_direction (link : DeviceLink σ) (options : ExecutionOptions) {a : Action}
    (toggles : a.kind = .toggle) (others : σ → σ → Prop) :
    (executeOne link.recorded options a).Records others (executeOne link options a) [] ∧
    ∀ {now s q t s' calls},
      (executeOne link.recorded options a).Reaches (Process.OffRecord others) now (s, []) q t
        (s', calls) →
      match link.lookup s a.device with
      | none => calls = []
      | some d => calls ≠ [] ∧ ∀ call ∈ calls, call.device = d ∧
          call.command = if d.isOn then .turnOff else .turnOn := by
  refine ⟨(follows_executeOne link options a).records others [], ?_⟩
  intro now s q t s' calls course
  obtain ⟨_, same, serves⟩ := serves_of_reaches course
  obtain rfl : calls = _ := same
  rw [target?_toggle link toggles] at serves
  cases found : link.lookup s a.device with
  | none =>
    rw [found] at serves
    exact serves
  | some d =>
    rw [found] at serves
    exact serves

/-! ### A lamp that is slow at first -/

def slowLamp : Device := ⟨⟨"lamp"⟩, "Lamp", .light, true, .bool false, default⟩

/-- The lamp takes six seconds for its first answer. -/
def slowHouse : Rehearsal :=
  .create (.create default (.ofList [slowLamp]) .empty default)
    (.ofList [("lamp", [{ Reply.ready with delay := .ofMillis 6000 }, .ready])])

def slowLink : DeviceLink Rehearsal := Rehearsal.link (fun _ => default) true

def toggleLamp : Action := ⟨⟨"lamp"⟩, .toggle, none⟩

/-- Somebody finds the lamp lit. -/
def findsLit (r r' : Rehearsal) : Prop :=
  r' = Rehearsal.switch (fun _ => default) slowLamp .turnOn 0 r

def findLit (x : Rehearsal × List Call) : Rehearsal × List Call :=
  (Rehearsal.switch (fun _ => default) slowLamp .turnOn 0 x.1, x.2)

theorem offRecord_findLit (x : Rehearsal × List Call) : Process.OffRecord findsLit x (findLit x) :=
  ⟨rfl, rfl⟩

/-- The first attempt waits. -/
def slowBegun : Process.Progress (Rehearsal × List Call) ActionResult :=
  (executeOne slowLink.recorded .standard toggleLamp).poll 0 (slowHouse, [])

/-- It is cut short after five seconds. -/
def slowCut : Process.Progress (Rehearsal × List Call) ActionResult :=
  slowBegun.left.poll 5000 (findLit slowBegun.state)

/-- A second later the next attempt succeeds. -/
def slowEnded : Process.Progress (Rehearsal × List Call) ActionResult :=
  slowCut.left.poll 6000 (findLit slowCut.state)

theorem reaches_slowEnded :
    (executeOne slowLink.recorded .standard toggleLamp).Reaches (Process.OffRecord findsLit) 0
      (slowHouse, []) slowEnded.left 6000 slowEnded.state := by
  have begun : (executeOne slowLink.recorded .standard toggleLamp).Reaches
      (Process.OffRecord findsLit) 0 (slowHouse, []) slowBegun.left 0 slowBegun.state := .first
  have cut := begun.again (Option.isNone_iff_eq_none.1 (by decide +kernel))
    (by decide : 0 ≤ 5000) (offRecord_findLit _)
  exact cut.again (Option.isNone_iff_eq_none.1 (by decide +kernel)) (by decide) (offRecord_findLit _)

/-- Both attempts switch the lamp on, although it is known to be on before the second one. -/
theorem toggle_keeps_direction_lamp :
    slowEnded.left.answer?.isSome ∧
    (slowLink.lookup (findLit slowCut.state).1 ⟨"lamp"⟩).map Device.isOn = some true ∧
    slowEnded.state.2.length = 2 ∧
    ∀ call ∈ slowEnded.state.2, call.device = slowLamp ∧ call.command = .turnOn := by
  have kept := (toggle_keeps_direction slowLink .standard (a := toggleLamp) rfl findsLit).2
    reaches_slowEnded
  exact ⟨by decide +kernel, by decide +kernel, by decide +kernel, kept.2⟩

end Batch

/-! ### Appliances that toggle -/

/-- A light, a switch, or a thermostat that is not heating. What it reports tells whether it is on, for a
setpoint counts as off. -/
def Appliance.Telltale (a : Appliance) : Prop :=
  match a.state with
  | .light _ _ _ _ => True
  | .switch _ => True
  | .sensor _ => False
  | .thermostat heating _ => heating = false

/-- The direction that is read off the report is the one that the appliance would take. -/
theorem Appliance.Telltale.apply_resolve {a : Appliance} (telltale : a.Telltale) (time : Instant) :
    ∃ b, a.apply .toggle = .ok b ∧ a.apply (Batch.resolve (a.device time) .toggle) = .ok b := by
  obtain ⟨id, name, state⟩ := a
  cases state with
  | light on brightness color kelvin => cases on <;> exact ⟨_, rfl, rfl⟩
  | switch on => cases on <;> exact ⟨_, rfl, rfl⟩
  | sensor reading => exact telltale.elim
  | thermostat heating setpoint =>
    obtain rfl : heating = false := telltale
    exact ⟨_, rfl, rfl⟩

/-- An appliance is in the fleet, and in reach. -/
structure Fleet.Offers (f : Fleet) (a : Appliance) : Prop where
  present : f.get? a.id = some a
  near : f.unreachable.contains a.id = false

theorem Fleet.carryOut_of_apply {f : Fleet} {a b : Appliance} {command : Command}
    (offers : f.Offers a) (applied : a.apply command = .ok b) (now : Instant) (elapsed : Nat) :
    f.carryOut now elapsed a.id command =
      (.ok { accepted := true, newState := some b.value, error := none, elapsed },
        (f.add b).announce (b.device now)) := by
  rw [carryOut, if_neg (Bool.not_eq_true _ ▸ offers.near)]
  simp only [offers.present, applied]

namespace HouseholdHost

variable {host : HouseholdHost σ} {others : σ → σ → Prop}

/-- Others leave an appliance of the fleet where it is and as it is. -/
def Leaves (host : HouseholdHost σ) (others : σ → σ → Prop) (id : DeviceId) : Prop :=
  ∀ s s', others s s' → (host.fleet.get s').get? id = (host.fleet.get s).get? id ∧
    (host.fleet.get s').unreachable.contains id = (host.fleet.get s).unreachable.contains id

theorem Leaves.offers {a : Appliance} {s s' : σ} (leaves : host.Leaves others a.id)
    (changed : others s s') (offers : (host.fleet.get s).Offers a) : (host.fleet.get s').Offers a where
  present := (leaves s s' changed).1.trans offers.present
  near := (leaves s s' changed).2.trans offers.near

end HouseholdHost

namespace Batch

variable {host : HouseholdHost σ} {others : σ → σ → Prop} {a b : Appliance} {command : Command}

/-- A command that an appliance can carry out is carried out when the latency of its line is over. -/
theorem send_carries (leaves : host.Leaves others a.id) (applied : a.apply command = .ok b)
    {d : Device} (name : d.id = a.id) (timeout : Duration) (start latency : Nat) :
    (host.link.send d command).Leads others (fun _ _ => False)
      (fun t s => t < start + latency ∧ (host.fleet.get s).Offers a)
      (fun t s => (t = start ∧ (host.fleet.get s).latency.waitMillis = latency) ∧
        (host.fleet.get s).Offers a)
      (fun answer _ s => verdict timeout (some answer) = .ok () ∧
        (host.fleet.get s).get? a.id = some b) := by
  refine Process.Leads.now.bind fun _ => ?_
  apply Process.Leads.bind (Q := fun wait t s =>
    (t = start ∧ wait.waitMillis = latency) ∧ (host.fleet.get s).Offers a)
  · exact .step fun _ _ begun => begun
  intro wait
  apply Process.Leads.bind (Q := fun _ _ s => (host.fleet.get s).Offers a)
  · -- The wait begins at the start, so it is over when the latency is.
    apply Process.Leads.bind (Q := fun now t s =>
      (now + wait.waitMillis = start + latency) ∧ (host.fleet.get s).Offers a)
    · refine .step ?_
      rintro t s ⟨⟨rfl, rfl⟩, offers⟩
      exact ⟨rfl, offers⟩
    intro now
    refine .given (fun _ _ begun => begun.1) fun instant => ?_
    rw [instant]
    exact (Process.Leads.waitUntil_timed (P := fun _ s => (host.fleet.get s).Offers a)
      fun _ _ s s' changed offers => leaves.offers changed offers).mono (fun _ _ begun => begun.2)
      (fun _ _ => id) (fun _ _ => id) fun _ _ _ ended => ended.2
  · intro _
    refine .step fun now s offers => ?_
    have carried := Fleet.carryOut_of_apply offers applied (host.stamp now)
    rw [Field.update, name, carried]
    refine ⟨rfl, ?_⟩
    rw [host.fleet.get_set]
    exact (Fleet.get?_add _ b a.id).trans (if_pos (Appliance.id_of_apply applied).symm)

/-- A command is carried out at the first attempt if the line is not slower than the time allows. -/
theorem attempt_carries (leaves : host.Leaves others a.id) {d : Device} (name : d.id = a.id)
    (applied : a.apply (resolve d command) = .ok b) (timeout : Duration) :
    (attempt host.link d command timeout).Leads others (fun _ _ => False) (fun _ _ => True)
      (fun _ s => (host.fleet.get s).latency.waitMillis ≤ timeout.millisUp ∧
        (host.fleet.get s).Offers a)
      (fun verdict _ s => verdict = .ok () ∧ (host.fleet.get s).get? a.id = some b) := by
  -- The instant at which the attempt begins and the latency found then fix when the device acts.
  let Start (i : Nat × Nat) (t : Nat) (s : σ) : Prop :=
    (t = i.1 ∧ (host.fleet.get s).latency.waitMillis = i.2) ∧ (host.fleet.get s).Offers a
  have race (i : Nat × Nat) (inTime : i.2 ≤ timeout.millisUp) :
      (Process.limited timeout (host.link.send d (resolve d command))).Leads others
        (fun _ _ => False) (fun _ _ => True) (Start i)
        (fun answer _ s => verdict timeout answer = .ok () ∧
          (host.fleet.get s).get? a.id = some b) := by
    apply Process.Leads.bind (Q := fun start t s => start = i.1 ∧ Start i t s)
    · exact .step fun _ _ begun => ⟨begun.1.1, begun⟩
    intro start
    refine .given (fun _ _ begun => begun.1) ?_
    rintro rfl
    refine ((send_carries leaves applied name timeout i.1 i.2).within _).mono
      (fun _ _ begun => begun.2) (fun _ _ => id) (fun _ _ _ => trivial) fun answer t s ended => ?_
    cases answer with
    | some answer => exact ended
    | none =>
      -- The line is not that slow.
      have late : i.1 + timeout.millisUp ≤ t ∧ t < i.1 + i.2 ∧ _ := ended
      omega
  have each (i : Nat × Nat) : (attempt host.link d command timeout).Leads others
      (fun _ _ => False) (fun _ _ => True) (fun t s => i.2 ≤ timeout.millisUp ∧ Start i t s)
      (fun verdict _ s => verdict = .ok () ∧ (host.fleet.get s).get? a.id = some b) :=
    .given (fun _ _ begun => begun.1) fun inTime =>
      ((race i inTime).pre fun _ _ begun => begun.2).bind fun _ => .pure fun _ _ ended => ended
  refine (Process.Leads.any each).pre ?_
  rintro t s ⟨inTime, offers⟩
  exact ⟨(t, _), inTime, ⟨rfl, rfl⟩, offers⟩

variable {options : ExecutionOptions}

/-- An action for a known device that can carry it out succeeds. -/
theorem executeOne_carries (leaves : host.Leaves others a.id) {action : Action}
    (checked : action.command = .ok command) (same : action.device = a.id) {d : Device}
    (name : d.id = a.id) (applied : a.apply (resolve d command) = .ok b) :
    (executeOne host.link options action).Leads others (fun _ _ => False) (fun _ _ => True)
      (fun _ s => host.lookup s a.id = some d ∧
        (host.fleet.get s).latency.waitMillis ≤ options.timeout.millisUp ∧
        (host.fleet.get s).Offers a)
      (fun result _ s => result.success = true ∧ (host.fleet.get s).get? a.id = some b) := by
  rw [executeOne_eq]
  refine Process.Leads.now.bind fun start => ?_
  apply Process.Leads.bind (Q := fun outcome _ s =>
    outcome.1.isNone = true ∧ (host.fleet.get s).get? a.id = some b)
  · unfold pursue
    simp only [checked, same]
    apply Process.Leads.bind (Q := fun found _ s => found = some d ∧
      (host.fleet.get s).latency.waitMillis ≤ options.timeout.millisUp ∧
      (host.fleet.get s).Offers a)
    · exact .step fun _ _ begun => begun
    intro found
    refine .given (fun _ _ begun => begun.1) ?_
    rintro rfl
    have once := (attempt_carries leaves name applied options.timeout).pre
      (fun _ s (begun : some d = some d ∧ _) => begun.2)
    -- There is no second attempt.
    cases options.maxRetries with
    | zero =>
      refine once.bind fun verdict => .given (fun _ _ ended => ended.1) ?_
      rintro rfl
      exact .pure fun _ _ ended => ⟨rfl, ended.2⟩
    | succ remaining =>
      refine once.bind fun verdict => .given (fun _ _ ended => ended.1) ?_
      rintro rfl
      exact .pure fun _ _ ended => ⟨rfl, ended.2⟩
  · exact fun outcome => Process.Leads.now.bind fun finish => .pure fun _ _ ended => ended

section

variable {link : DeviceLink σ} {action : Action} {P : Nat → σ → Prop}

/-- In every mode a single action is carried out by itself. -/
theorem carryOut_single {C W : Nat → σ → Prop} {Q : ActionResult → Nat → σ → Prop}
    (one : (executeOne link options action).Leads others C W P Q) :
    (carryOut link options [action]).Leads others C W P
      fun results t s => ∃ r, results = [r] ∧ Q r t s := by
  unfold carryOut
  split
  · have beside : (Process.both (executeOne link options action) (.done ([] : List ActionResult))
        fun r rs => .done (r, rs)).Leads others C W P _ := one.both_done
    refine beside.bind fun x => Process.Leads.pure (a := x.1 :: x.2) ?_
    rintro _ _ ⟨ended, rest⟩
    exact ⟨x.1, congrArg (x.1 :: ·) rest, ended⟩
  · refine one.bind fun r => ?_
    split
    · exact .pure fun _ _ ended => ⟨r, rfl, ended⟩
    · exact .pure fun _ _ ended => ⟨r, rfl, ended⟩

/-- A batch of one action that succeeds succeeds, and takes nothing back. -/
theorem execute_single {W R : Nat → σ → Prop}
    (one : (executeOne link options action).Leads others (fun _ _ => False) W P
      fun r t s => r.success = true ∧ R t s) :
    (execute link options [action]).Leads others (fun _ _ => False) W P
      fun result t s => result.success = true ∧ R t s := by
  have orchestrated : (orchestrate link options [action]).Leads others (fun _ _ => False) W P
      fun outcome t s => allSucceeded [action] outcome.1 = true ∧ R t s := by
    rw [orchestrate_eq]
    have told (results : List ActionResult) (t : Nat) (s : σ)
        (ended : ∃ r, results = [r] ∧ r.success = true ∧ R t s) :
        ∃ r, results = [r] ∧ r.success = true := ended.imp fun _ held => ⟨held.1, held.2.1⟩
    refine (carryOut_single one).bind fun results => .given (told results) ?_
    rintro ⟨r, rfl, success⟩
    have all : allSucceeded [action] [r] = true := by simp [allSucceeded, success]
    apply Process.Leads.bind (Q := fun _ => R)
    · rw [takeBack, all, Bool.not_true, Bool.and_false, if_neg Bool.false_ne_true]
      refine .pure ?_
      rintro _ _ ⟨_, _, _, held⟩
      exact held
    · exact fun _ => .pure fun _ _ held => ⟨all, held⟩
  refine Process.Leads.now.bind fun start => orchestrated.rescue.bind fun outcome => ?_
  refine Process.Leads.now.bind fun finish => ?_
  cases outcome with
  | ok outcome => exact .pure fun _ _ ended => ended
  | error cause => exact .pure fun _ _ ended => ended.elim

end

/-- Whatever others do elsewhere: to toggle a light, a switch, or a thermostat that is not heating leaves
it in the state in which it would have left itself. The registry has to know what the device reports,
the device has to be in reach, and its line must not be slower than the time allows. -/
theorem execute_toggles (host : HouseholdHost σ) (options : ExecutionOptions)
    (leaves : host.Leaves others a.id) (telltale : a.Telltale) (value : Option Data) {now : Nat} {s : σ}
    {time : Instant} (known : host.lookup s a.id = some (a.device time))
    (offers : (host.fleet.get s).Offers a)
    (inTime : (host.fleet.get s).latency.waitMillis ≤ options.timeout.millisUp) :
    ∃ b, a.apply .toggle = .ok b ∧
      (execute host.link options [⟨a.id, .toggle, value⟩]).Ends (fun _ => True) ∧
      ∀ {result t s'},
        (execute host.link options [⟨a.id, .toggle, value⟩]).Reaches others now s (.done result) t s' →
        result.success = true ∧ (host.fleet.get s').get? a.id = some b := by
  obtain ⟨b, applied, resolved⟩ := telltale.apply_resolve time
  refine ⟨b, applied, ends_execute _ _ _, fun course => ?_⟩
  have one : (executeOne host.link options ⟨a.id, .toggle, value⟩).Leads others _ _ _ _ :=
    executeOne_carries leaves (command_toggle rfl) rfl rfl resolved
  exact (execute_single one).stops ⟨known, inTime, offers⟩ course

/-! ### A lamp and a thermostat -/

def single (a : Appliance) (latency : Duration) : Household :=
  let fleet := { Fleet.ofList [a] with latency }
  .create default (.ofList (fleet.devices default)) fleet default

theorem lookup_single (a : Appliance) (latency : Duration) :
    wholeHouse.lookup (single a latency) a.id = some (a.device default) := by
  show Table.lookup a.id [(a.id, a.device default)] = some (a.device default)
  simp [Table.lookup]

theorem offers_single (a : Appliance) (latency : Duration) :
    (wholeHouse.fleet.get (single a latency)).Offers a where
  present := by
    show List.find? (fun b => b.id == a.id) [a] = some a
    simp
  near := rfl

def darkLamp : Appliance := .light "lamp" "Lamp"

def litLamp : Process.Progress Household BatchResult :=
  (execute wholeHouse.link .standard [⟨darkLamp.id, .toggle, none⟩]).poll 0 (single darkLamp .zero)

def toggledResult (a : Appliance) : BatchResult where
  actions := [{
    device := a.id, kind := .toggle, success := true, elapsed := 0, retries := 0, error := none }]
  success := true
  elapsed := 0
  rolledBack := []
  error := none

theorem left_litLamp : litLamp.left = .done (toggledResult darkLamp) :=
  Process.eq_done (by decide +kernel)

/-- A lamp at the end of a prompt line is lit. -/
theorem execute_toggles_lamp :
    litLamp.left = .done (toggledResult darkLamp) ∧
    wholeHouse.switched? litLamp.state darkLamp.id = some true := by
  have leaves : wholeHouse.Leaves Eq darkLamp.id := by
    rintro s _ rfl
    exact ⟨rfl, rfl⟩
  have course : (execute wholeHouse.link .standard [⟨darkLamp.id, .toggle, none⟩]).Reaches Eq 0
      (single darkLamp .zero) (.done (toggledResult darkLamp)) 0 litLamp.state := by
    rw [← left_litLamp]
    exact .first
  obtain ⟨b, applied, -, toggled⟩ := execute_toggles wholeHouse .standard leaves trivial none
    (lookup_single darkLamp .zero) (offers_single darkLamp .zero) (by decide)
  have present : (wholeHouse.fleet.get litLamp.state).get? darkLamp.id = some b := (toggled course).2
  refine ⟨left_litLamp, ?_⟩
  rw [HouseholdHost.switched?, Fleet.switched?, present]
  cases applied
  rfl

/-- A device that is in reach and known as it is was to be toggled, and is not left in the state in which it
would have left itself. -/
def Misses (options : ExecutionOptions) (a : Appliance) (latency : Duration) : Prop :=
  ∃ b result t s', a.apply .toggle = .ok b ∧
    wholeHouse.lookup (single a latency) a.id = some (a.device default) ∧
    (wholeHouse.fleet.get (single a latency)).Offers a ∧
    (execute wholeHouse.link options [⟨a.id, .toggle, none⟩]).Reaches Eq 0 (single a latency)
      (.done result) t s' ∧
    (wholeHouse.fleet.get s').get? a.id ≠ some b

theorem misses_of_switched? {options : ExecutionOptions} {a b : Appliance} {latency : Duration}
    {result : BatchResult} {t : Nat} {s' : Household} (applied : a.apply .toggle = .ok b)
    (course : (execute wholeHouse.link options [⟨a.id, .toggle, none⟩]).Reaches Eq 0
      (single a latency) (.done result) t s')
    (other : wholeHouse.switched? s' a.id ≠ b.switched?) : Misses options a latency := by
  refine ⟨b, result, t, s', applied, lookup_single a latency, offers_single a latency, course, ?_⟩
  intro same
  exact other (congrArg (Option.bind · Appliance.switched?) same)

def hasty : ExecutionOptions := { ExecutionOptions.standard with maxRetries := 0 }

def slowLine : Process.Progress Household BatchResult :=
  (execute wholeHouse.link hasty [⟨darkLamp.id, .toggle, none⟩]).poll 0
    (single darkLamp (.ofMillis 6000))

/-- The line is slower than the time allows, so the lamp stays dark. -/
theorem misses_slowLine : Misses hasty darkLamp (.ofMillis 6000) := by
  obtain ⟨result, left⟩ : ∃ result, (slowLine.left.poll 5000 slowLine.state).left = .done result :=
    Process.exists_done (by decide +kernel)
  have course : (execute wholeHouse.link hasty [⟨darkLamp.id, .toggle, none⟩]).Reaches Eq 0
      (single darkLamp (.ofMillis 6000)) (.done result) 5000
      (slowLine.left.poll 5000 slowLine.state).state := by
    rw [← left]
    exact .again .first (Option.isNone_iff_eq_none.1 (by decide +kernel)) (by decide) rfl
  exact misses_of_switched? rfl course (by decide +kernel)

def warmHall : Appliance := ⟨⟨"hall"⟩, "Hall", .thermostat true 20⟩

def warmRun : Process.Progress Household BatchResult :=
  (execute wholeHouse.link hasty [⟨warmHall.id, .toggle, none⟩]).poll 0 (single warmHall .zero)

/-- A setpoint counts as off, so a thermostat that is heating already is switched on. -/
theorem misses_warmHall : Misses hasty warmHall .zero := by
  have left : warmRun.left = .done (toggledResult warmHall) := Process.eq_done (by decide +kernel)
  have course : (execute wholeHouse.link hasty [⟨warmHall.id, .toggle, none⟩]).Reaches Eq 0
      (single warmHall .zero) (.done (toggledResult warmHall)) 0 warmRun.state := by
    rw [← left]
    exact .first
  exact misses_of_switched? rfl course (by decide +kernel)

/-- Not every toggle does what the device would do: one over a slow line comes to nothing, and a thermostat
that was switched on goes on heating. -/
theorem toggle_misses :
    Misses hasty darkLamp (.ofMillis 6000) ∧
    (Appliance.thermostat "hall" "Hall" 20).apply .turnOn = .ok warmHall ∧
    Misses hasty warmHall .zero :=
  ⟨misses_slowLine, rfl, misses_warmHall⟩

end Batch

end Hearth

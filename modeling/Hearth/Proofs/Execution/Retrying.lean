import Hearth.Proofs.Execution.Rehearsed
import Mathlib.Algebra.BigOperators.Group.Finset.Basic
import Mathlib.Data.Nat.Find
import Mathlib.Order.Bounds.Basic

/-!
# Hearth.Proofs.Execution.Retrying

How often a command is tried, when, and what comes of it.

## Main definitions

* `Batch.LastAttempt`: the number of the last attempt.
* `Batch.attempts`: the instants of the attempts.
* `Batch.triedResult` and `Batch.refusedResult`: the result of an action that is tried, and of one that
  is not.

## Main results

* `Batch.retrying_delivers`: the attempts up to the last one.
* `Batch.executeOne_concludes`: an action on its own, in every case.
-/

namespace Hearth

/-- The wait before a retry doubles each time. The factor stays within 32 bits, and the wait within
the longest duration. -/
theorem ExecutionOptions.nanos_backoff (o : ExecutionOptions) (k : Nat) :
    (o.backoff (k + 1)).nanos =
      min (o.retryDelay.nanos * min (2 ^ k) (2 ^ 32 - 1)) Duration.longest.nanos := by
  have factor : (if k + 1 - 1 < 32 then Nat.pow 2 (k + 1 - 1) else Number.maxWord32) =
      min (2 ^ k) (2 ^ 32 - 1) := by
    rw [Nat.add_sub_cancel]
    split
    · next small =>
      have below : 2 ^ k < 2 ^ 32 := Nat.pow_lt_pow_right (by decide) small
      exact (Nat.min_eq_left (Nat.le_sub_one_of_lt below)).symm
    · next large =>
      have above : 2 ^ 32 ≤ 2 ^ k := Nat.pow_le_pow_right (by decide) (Nat.le_of_not_lt large)
      show 2 ^ 32 - 1 = min (2 ^ k) (2 ^ 32 - 1)
      exact (Nat.min_eq_right (Nat.le_trans (Nat.sub_le _ _) above)).symm
  rw [backoff, factor, Duration.times]
  split
  · next fits => exact (Nat.min_eq_left fits).symm
  · next beyond => exact (Nat.min_eq_right (Nat.le_of_not_le beyond)).symm

namespace Batch

/-- An attempt that succeeded, or failed for good. -/
def IsFinal : Except Failure Unit → Prop
  | .ok _ => True
  | .error failure => failure.isPassing = false

instance : DecidablePred IsFinal
  | .ok _ => isTrue trivial
  | .error failure => inferInstanceAs (Decidable (failure.isPassing = false))

def failure? : Except Failure Unit → Option Failure
  | .ok _ => none
  | .error failure => some failure

/-- Retries end with the attempt of this number, counted from zero: the first one that is final, or the
last one that is allowed. -/
def LastAttempt (options : ExecutionOptions) (responses : Nat → Response) (last : Nat) : Prop :=
  IsLeast {k | IsFinal ((responses k).verdict options.timeout) ∨ k = options.maxRetries} last

theorem exists_lastAttempt (options : ExecutionOptions) (responses : Nat → Response) :
    ∃ last, LastAttempt options responses last := by
  classical
  have allowed : ∃ k, IsFinal ((responses k).verdict options.timeout) ∨ k = options.maxRetries :=
    ⟨options.maxRetries, .inr rfl⟩
  exact ⟨Nat.find allowed, Nat.find_spec allowed, fun k reached => Nat.find_min' allowed reached⟩

/-- The milliseconds that pass before the attempt of a number, if all earlier ones fail. -/
def spent (options : ExecutionOptions) (responses : Nat → Response) (k : Nat) : Nat :=
  ∑ i ∈ Finset.range k,
    ((responses i).millis options.timeout + (options.backoff (i + 1)).waitMillis)

theorem spent_succ (options : ExecutionOptions) (responses : Nat → Response) (k : Nat) :
    spent options responses (k + 1) = spent options responses k +
      ((responses k).millis options.timeout + (options.backoff (k + 1)).waitMillis) :=
  Finset.sum_range_succ _ k

/-- The instants of so many attempts. -/
def attempts (options : ExecutionOptions) (responses : Nat → Response) (start count : Nat) :
    List Nat :=
  (List.range count).map fun k => start + spent options responses k

theorem attempts_succ (options : ExecutionOptions) (responses : Nat → Response) (start count : Nat) :
    attempts options responses start (count + 1) =
      attempts options responses start count ++ [start + spent options responses count] := by
  simp only [attempts, List.range_succ, List.map_append, List.map_cons, List.map_nil]

variable {σ : Type} {troupe : Troupe σ}

/-- An attempt that is final, and the last one that is allowed, is the last one. -/
theorem LastAttempt.eq_of_final {options : ExecutionOptions} {responses : Nat → Response}
    {last k : Nat} (least : LastAttempt options responses last) (reached : k ≤ last)
    (final : IsFinal ((responses k).verdict options.timeout) ∨ k = options.maxRetries) : last = k :=
  Nat.le_antisymm (least.2 final) reached

theorem LastAttempt.lt_of_passing {options : ExecutionOptions} {responses : Nat → Response}
    {last k : Nat} (least : LastAttempt options responses last) (reached : k ≤ last)
    (more : k ≠ options.maxRetries)
    (passing : ¬ IsFinal ((responses k).verdict options.timeout)) : k < last := by
  refine Nat.lt_of_le_of_ne reached fun same => ?_
  rcases least.1 with final | allowed
  · exact passing (same ▸ final)
  · exact more (same.trans allowed)

section

variable {d : Device} {options : ExecutionOptions} {past : List Nat} {responses : Nat → Response}
variable {start last k : Nat} {s : σ}

theorem attempt_delivers_nth (scripted : troupe.Scripted) (command : Command)
    (played : ∀ k, responses k = troupe.response d.id (past.length + k))
    (called : troupe.Called d.id (past ++ attempts options responses start k) s) :
    (attempt troupe.toDeviceLink d command options.timeout).Delivers (troupe.terms {d.id} {d.id})
      (fun _ => True)
      (fun verdict t s' => verdict = (responses k).verdict options.timeout ∧
        t = start + spent options responses k + (responses k).millis options.timeout ∧
        troupe.Called d.id (past ++ attempts options responses start (k + 1)) s')
      (start + spent options responses k) s := by
  have tried := attempt_delivers scripted d command options.timeout
    (start + spent options responses k) called
  have count : (past ++ attempts options responses start k).length = past.length + k := by
    simp [attempts]
  rw [count, ← played, List.append_assoc, ← attempts_succ] at tried
  exact tried

/-- The attempts go on from one that is reached to the last one. -/
theorem retrying_delivers (scripted : troupe.Scripted) (command : Command)
    (played : ∀ k, responses k = troupe.response d.id (past.length + k))
    (least : LastAttempt options responses last) {remaining : Nat} (reached : k ≤ last)
    (budget : k + remaining = options.maxRetries)
    (called : troupe.Called d.id (past ++ attempts options responses start k) s) :
    (retrying options (attempt troupe.toDeviceLink d command options.timeout) remaining k).Delivers
      (troupe.terms {d.id} {d.id}) (fun _ => True)
      (fun outcome t s' => outcome = (failure? ((responses last).verdict options.timeout), last) ∧
        t = start + spent options responses last + (responses last).millis options.timeout ∧
        troupe.Called d.id (past ++ attempts options responses start (last + 1)) s')
      (start + spent options responses k) s := by
  -- The induction is on the retries that are left; `budget` tells them from those that were made.
  induction remaining generalizing k s with
  | zero =>
    obtain rfl := least.eq_of_final reached (.inr budget)
    refine (attempt_delivers_nth scripted command played called).bind ?_
    rintro verdict t s' ⟨same, rfl, called⟩
    cases verdict with
    | ok => exact .pure ⟨by rw [← same]; rfl, rfl, called⟩
    | error failure => exact .pure ⟨by rw [← same]; rfl, rfl, called⟩
  | succ remaining ih =>
    refine (attempt_delivers_nth scripted command played called).bind ?_
    rintro verdict t s' ⟨same, rfl, called⟩
    cases verdict with
    | ok =>
      obtain rfl := least.eq_of_final reached (.inl (by rw [← same]; trivial))
      exact .pure ⟨by rw [← same]; rfl, rfl, called⟩
    | error failure =>
      cases passing : failure.isPassing with
      | false =>
        obtain rfl := least.eq_of_final reached (.inl (by rw [← same]; exact passing))
        simp only [passing]
        exact .pure ⟨by rw [← same]; rfl, rfl, called⟩
      | true =>
        have further : k < last := by
          refine least.lt_of_passing reached (by omega) ?_
          rw [← same]
          exact fun final => Bool.noConfusion (passing.symm.trans final)
        simp only [passing]
        -- While the wait goes on others may go on, too, but not with this device.
        refine (Process.Delivers.sleep (options.backoff (k + 1)) trivial).bind ?_
        rintro _ t s'' ⟨rfl, spares⟩
        have next : start + spent options responses (k + 1) = start + spent options responses k +
            (responses k).millis options.timeout + (options.backoff (k + 1)).waitMillis := by
          rw [spent_succ, Nat.add_assoc, Nat.add_assoc]
        rw [← next]
        exact ih further (by omega) (called.spared (Set.mem_singleton d.id) spares)

end

/-! ### One action -/

/-- The result of an action with a valid command for a known device. -/
def triedResult (options : ExecutionOptions) (a : Action) (responses : Nat → Response) (last : Nat) :
    ActionResult where
  device := a.device
  kind := a.kind
  success := ((responses last).verdict options.timeout).isOk
  elapsed := spent options responses last + (responses last).millis options.timeout
  retries := last
  error := (failure? ((responses last).verdict options.timeout)).map Failure.message

/-- Why an action never comes to an attempt: its command is not valid, or its device is not known. -/
def refusal? (a : Action) (known : Bool) : Option Failure :=
  match a.command with
  | .error fault => some (.record fault)
  | .ok _ => if known then none else some (.notFound "Device" a.device.name)

/-- The result of an action that never comes to an attempt. -/
def refusedResult (a : Action) (failure : Failure) : ActionResult where
  device := a.device
  kind := a.kind
  success := false
  elapsed := 0
  retries := 0
  error := some failure.message

theorem isNone_failure? (verdict : Except Failure Unit) :
    (failure? verdict).isNone = verdict.isOk := by
  cases verdict with
  | ok => rfl
  | error => rfl

section

variable {options : ExecutionOptions} {a : Action} {past : List Nat} {responses : Nat → Response}
variable {now last : Nat} {s : σ}

theorem executeOne_delivers (scripted : troupe.Scripted)
    (accepted : refusal? a (troupe.lookup s a.device).isSome = none)
    (played : ∀ k, responses k = troupe.response a.device (past.length + k))
    (least : LastAttempt options responses last) (called : troupe.Called a.device past s) :
    (executeOne troupe.toDeviceLink options a).Delivers (troupe.terms {a.device} {a.device})
      (fun _ => True)
      (fun result t s' => result = triedResult options a responses last ∧
        t = now + (spent options responses last + (responses last).millis options.timeout) ∧
        troupe.Called a.device (past ++ attempts options responses now (last + 1)) s') now s := by
  unfold refusal? at accepted
  unfold executeOne
  refine Process.Delivers.clock.bind ?_
  rintro _ now s ⟨rfl, rfl, rfl⟩
  cases checked : a.command with
  | error fault =>
    rw [checked] at accepted
    cases accepted
  | ok command =>
    rw [checked] at accepted
    dsimp only at accepted ⊢
    refine (Process.Delivers.view _).bind ?_
    rintro _ now s ⟨rfl, rfl, rfl⟩
    cases found : troupe.lookup s a.device with
    | none => simp [found] at accepted
    | some d =>
      have name := scripted.id_of_lookup called.valid found
      rw [← name] at played called ⊢
      have begun : troupe.Called d.id (past ++ attempts options responses now 0) s := by
        simpa [attempts] using called
      have tried := retrying_delivers scripted command played least (Nat.zero_le last)
        (Nat.zero_add options.maxRetries) begun
      refine tried.bind ?_
      rintro _ _ _ ⟨rfl, rfl, called⟩
      refine Process.Delivers.clock.bind ?_
      rintro _ _ _ ⟨rfl, rfl, rfl⟩
      refine .pure ⟨?_, Nat.add_assoc _ _ _, called⟩
      rw [triedResult, isNone_failure?, Nat.add_assoc, Nat.add_sub_cancel_left, name]

/-- A refused action does nothing at all, whatever the devices are like. -/
theorem executeOne_delivers_refused {link : DeviceLink σ} {terms : Terms σ} {failure : Failure}
    (refused : refusal? a (link.lookup s a.device).isSome = some failure) :
    (executeOne link options a).Delivers terms (fun _ => True)
      (fun result t s' => result = refusedResult a failure ∧ t = now ∧ s' = s) now s := by
  unfold refusal? at refused
  unfold executeOne
  refine Process.Delivers.clock.bind ?_
  rintro _ now s ⟨rfl, rfl, rfl⟩
  cases checked : a.command with
  | error fault =>
    rw [checked] at refused
    obtain rfl := Option.some.inj refused
    refine Process.Delivers.clock.bind ?_
    rintro _ _ _ ⟨rfl, rfl, rfl⟩
    exact .pure ⟨by rw [Nat.sub_self]; rfl, rfl, rfl⟩
  | ok command =>
    rw [checked] at refused
    dsimp only at refused ⊢
    refine (Process.Delivers.view _).bind ?_
    rintro _ now s ⟨rfl, rfl, rfl⟩
    cases found : link.lookup s a.device with
    | some d => simp [found] at refused
    | none =>
      obtain rfl : Failure.notFound "Device" a.device.name = failure := by
        simpa [found] using refused
      refine Process.Delivers.clock.bind ?_
      rintro _ _ _ ⟨rfl, rfl, rfl⟩
      exact .pure ⟨by rw [Nat.sub_self]; rfl, rfl, rfl⟩

end

theorem concludes_refused {link : DeviceLink σ} {options : ExecutionOptions} {a : Action}
    {failure : Failure} {t : Timeline σ} (terms : Terms σ) (alone : t.Alone)
    (refused : refusal? a (link.lookup t.state a.device).isSome = some failure) :
    t.Concludes (executeOne link options a) (refusedResult a failure) t := by
  have delivers : (executeOne link options a).Delivers terms _ _ t.now t.state :=
    executeOne_delivers_refused refused
  obtain ⟨_, _, _, concludes, rfl, rfl, rfl⟩ := alone.concludes delivers
  exact concludes

/-- An action with a valid command for a known device is tried until an attempt succeeds, fails for good
or is the last one that is allowed. The attempts begin one after the other, with a wait in between
that doubles each time; no wait takes more than thirty years. A late answer is a passing failure. Any
other action is refused at once. -/
theorem executeOne_concludes (scripted : troupe.Scripted) (options : ExecutionOptions) (a : Action)
    {t : Timeline σ} (alone : t.Alone) (valid : troupe.Valid t.state) :
    (∀ command, a.command = .ok command → (troupe.lookup t.state a.device).isSome →
      let responses k := troupe.response a.device ((troupe.calls t.state a.device).length + k)
      ∃ last s', LastAttempt options responses last ∧
        t.Concludes (executeOne troupe.toDeviceLink options a) (triedResult options a responses last)
          { t with now := t.now + (triedResult options a responses last).elapsed, state := s' } ∧
        troupe.calls s' a.device = troupe.calls t.state a.device ++
          attempts options responses t.now (last + 1)) ∧
    (∀ k, (options.backoff (k + 1)).waitMillis =
      min ((min (options.retryDelay.nanos * min (2 ^ k) (2 ^ 32 - 1)) Duration.longest.nanos +
        999999) / 1000000) Duration.longestWait) ∧
    (∀ r : Response, options.timeout.millisUp < r.after →
      ¬ IsFinal (r.verdict options.timeout)) ∧
    (∀ fault, a.command = .error fault →
      t.Concludes (executeOne troupe.toDeviceLink options a) (refusedResult a (.record fault)) t) ∧
    (∀ command, a.command = .ok command → troupe.lookup t.state a.device = none →
      t.Concludes (executeOne troupe.toDeviceLink options a)
        (refusedResult a (.notFound "Device" a.device.name)) t) := by
  refine ⟨?_, ?_, ?_, ?_, ?_⟩
  · intro command checked known responses
    obtain ⟨last, least⟩ := exists_lastAttempt options responses
    have accepted : refusal? a (troupe.lookup t.state a.device).isSome = none := by
      rw [refusal?, checked, known]
      rfl
    obtain ⟨_, _, s', concludes, rfl, rfl, called⟩ := alone.concludes
      (executeOne_delivers scripted accepted (fun _ => rfl) least ⟨valid, rfl⟩)
    exact ⟨last, s', least, concludes, called.calls⟩
  · intro k
    rw [Duration.waitMillis, Duration.millisUp, ExecutionOptions.nanos_backoff]
  · intro r late final
    rw [Response.verdict, if_neg (Nat.not_le_of_lt late)] at final
    cases final
  · intro fault checked
    exact concludes_refused (troupe.terms ∅ ∅) alone (by rw [refusal?, checked])
  · intro command checked unknown
    exact concludes_refused (troupe.terms ∅ ∅) alone (by rw [refusal?, checked, unknown]; rfl)

/-! ### A lamp that is busy twice -/

def lightLamp : Action := ⟨⟨"lamp"⟩, .turnOn, none⟩

/-- The lamp is lit in the end, after two retries. -/
def litResult (elapsed : Nat) : ActionResult where
  device := ⟨"lamp"⟩
  kind := .turnOn
  success := true
  elapsed
  retries := 2
  error := none

/-- The third attempt succeeds, one second and two seconds after the ones before. -/
theorem executeOne_concludes_lamp :
    ∃ s', (Timeline.start Rehearsal.lampAndFan []).Concludes
        (executeOne Rehearsal.lampAndFanTroupe.toDeviceLink .standard lightLamp) (litResult 3000)
        { Timeline.start Rehearsal.lampAndFan [] with now := 3000, state := s' } ∧
      Rehearsal.calls s' ⟨"lamp"⟩ = [0, 1000, 3000] := by
  have retried := (executeOne_concludes Rehearsal.scripted_lampAndFan .standard lightLamp
    (t := .start Rehearsal.lampAndFan []) ⟨rfl, rfl⟩ Rehearsal.valid_lampAndFan).1 .turnOn rfl rfl
  obtain ⟨last, s', least, concludes, calls⟩ := retried
  have third : LastAttempt .standard
      (fun k => Rehearsal.lampAndFanTroupe.response ⟨"lamp"⟩ (0 + k)) 2 := by
    have early : ∀ k < 2, ¬ (IsFinal ((Rehearsal.lampAndFanTroupe.response ⟨"lamp"⟩ (0 + k)).verdict
        ExecutionOptions.standard.timeout) ∨ k = ExecutionOptions.standard.maxRetries) := by
      decide +kernel
    exact ⟨.inl (by decide +kernel), fun k reached =>
      Nat.le_of_not_lt fun small => early k small reached⟩
  obtain rfl := least.unique third
  have result : triedResult .standard lightLamp
      (fun k => Rehearsal.lampAndFanTroupe.response ⟨"lamp"⟩ (0 + k)) 2 = litResult 3000 := by
    decide +kernel
  have concludes : (Timeline.start Rehearsal.lampAndFan []).Concludes _ _ _ := concludes
  refine ⟨s', result ▸ concludes, calls.trans (by decide +kernel)⟩

/-- Waits of nineteen years and of thirty-eight: the second one is cut at thirty years. -/
def patient : ExecutionOptions :=
  { ExecutionOptions.standard with retryDelay := .ofMillis 600000000000 }

/-- The waits of a patient batch are not as long as they were to be. -/
theorem executeOne_cuts_waits :
    ∃ result t', (Timeline.start Rehearsal.lampAndFan []).Concludes
        (executeOne Rehearsal.lampAndFanTroupe.toDeviceLink patient lightLamp) result t' ∧
      result.retries = 2 ∧ result.elapsed = 1546080000000 ∧
      (∀ k < 3, (Rehearsal.lampAndFanTroupe.response ⟨"lamp"⟩ k).millis patient.timeout = 0) ∧
      result.elapsed ≠ (patient.backoff 1).millisUp + (patient.backoff 2).millisUp := by
  refine ⟨litResult 1546080000000, _, Timeline.Concludes.of_complete (n := 5) ?_, rfl, rfl, ?_, ?_⟩
  · decide +kernel
  · decide +kernel
  · decide +kernel

end Batch

end Hearth

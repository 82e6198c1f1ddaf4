import Hearth.Proofs.Execution.Calls
import Hearth.Proofs.Execution.Conduct
import Hearth.Proofs.Execution.Rollback

/-!
# Hearth.Proofs.Execution.Reversal

Which commands take a failed batch back.

## Main definitions

- `Batch.Undoes`: switchings are undone one after the other, with one call each.
- `DeviceLink.Gauge`: what a state tells of a device that is switched by nothing but commands.

## Main result

- `Batch.execute_reverses`: a failed batch that is to be undone takes back its switchings, from the last one
  to the first, and nothing else is ever taken back.

## Proof strategy

`undo_undoes` follows the undoing along its list and reads off each attempt which call it has made. In which
state a device is left does not depend on the batch any more, only on `Undoes`: the last word is that of
the switching undone last, which is the first one that succeeded (`lastWord_reverse`).
-/

namespace Hearth

variable {σ : Type}

namespace Batch

/-- The switchings that succeeded, in order. -/
def switched (carried : List (Action × ActionResult)) : List Action :=
  (carried.filter fun (a, r) => r.success && a.IsSwitch).map Prod.fst

/-- The switchings that have to be taken back, from the last one to the first. -/
def toUndo (options : ExecutionOptions) (actions : List Action) (results : List ActionResult) :
    List Action :=
  if options.rollback && !allSucceeded actions results then (switched (actions.zip results)).reverse
  else []

/-- Switchings are undone one after the other. A device that is not known any more is passed over;
any other is sent the inverse command once, and the next switching has its turn when the device has
answered or its time is up. Listed are the calls and the devices that accepted the command. -/
inductive Undoes (link : DeviceLink σ) (others : σ → σ → Prop) (timeout : Duration) :
    List Action → List Call → List DeviceId → Nat → σ → Nat → σ → Prop
  | nil {t : Nat} {s : σ} : Undoes link others timeout [] [] [] t s t s
  | gone {a : Action} {rest : List Action} {calls : List Call} {undone : List DeviceId} {t t' : Nat}
      {s s' : σ} (unknown : link.lookup s a.device = none)
      (later : Undoes link others timeout rest calls undone t s t' s') :
      Undoes link others timeout (a :: rest) calls undone t s t' s'
  | sent {a : Action} {rest : List Action} {calls : List Call} {undone : List DeviceId} {d : Device}
      {verdict : Except Failure Unit} {t t₁ t' : Nat} {s s₁ s' : σ}
      (known : link.lookup s a.device = some d)
      (course : (attempt link d (.ofSwitch (!a.switchesOn)) timeout).Reaches others t s (.done verdict)
        t₁ s₁)
      (later : Undoes link others timeout rest calls undone t₁ s₁ t' s') :
      Undoes link others timeout (a :: rest) (⟨t, d, .ofSwitch (!a.switchesOn)⟩ :: calls)
        (if verdict.isOk then a.device :: undone else undone) t s t' s'

variable {link : DeviceLink σ} {options : ExecutionOptions} {others : σ → σ → Prop}
variable {t t' : Nat} {s s' : σ} {log log' : List Call}

theorem resolve_ofSwitch (d : Device) (on : Bool) : resolve d (.ofSwitch on) = .ofSwitch on := by
  cases on <;> rfl

/-- An attempt to switch a device is one call. -/
theorem reaches_attempt {d : Device} {on : Bool} {timeout : Duration} {verdict : Except Failure Unit}
    (course : (attempt link.recorded d (.ofSwitch on) timeout).Reaches (Process.OffRecord others) t
      (s, log) (.done verdict) t' (s', log')) :
    log' = log ++ [⟨t, d, .ofSwitch on⟩] ∧
      (attempt link d (.ofSwitch on) timeout).Reaches others t s (.done verdict) t' s' := by
  have calls := (attempt_calls timeout t).stops ⟨rfl, rfl⟩ course
  rw [resolve_ofSwitch] at calls
  refine ⟨calls, ?_⟩
  obtain ⟨q, course, even⟩ := course.forget
    (alike_attempt Process.congruence_follows link.alike_recorded d (.ofSwitch on) timeout)
  rwa [(even.eq_done_iff verdict).1 rfl] at course

/-- What is undone are switchings that succeeded. -/
theorem undoOne_eq (link : DeviceLink σ) (options : ExecutionOptions) (a : Action) (success : Bool) :
    undoOne link options a success =
      if success && a.IsSwitch then do
        match ← Process.view fun s => link.lookup s a.device with
        | none => pure false
        | some d =>
          let answer ← attempt link d (.ofSwitch (!a.switchesOn)) options.timeout
          pure answer.isOk
      else pure false := by
  unfold undoOne
  cases success with
  | false => rfl
  | true =>
    by_cases isSwitch : a.IsSwitch
    · obtain ⟨kind, inverse, command⟩ := isSwitch.inverse?
      rw [if_pos rfl, inverse, if_pos (by simpa using isSwitch)]
      refine bind_congr fun found => ?_
      cases found with
      | none => rfl
      | some d => rw [← command]
    · have none : a.kind.inverse? = none := by
        cases kind : a.kind <;> simp_all [Action.IsSwitch, ActionKind.inverse?]
      simp [none, isSwitch]

theorem switched_cons (a : Action) (r : ActionResult) (rest : List (Action × ActionResult)) :
    switched ((a, r) :: rest) =
      if r.success && a.IsSwitch then a :: switched rest else switched rest := by
  cases success : r.success && a.IsSwitch <;> simp [switched, success]

theorem switched_reverse (carried : List (Action × ActionResult)) :
    switched carried.reverse = (switched carried).reverse := by
  simp only [switched, List.filter_reverse, List.map_reverse]

theorem undo_undoes {carried : List (Action × ActionResult)} {undone : List DeviceId}
    (course : (undo link.recorded options carried).Reaches (Process.OffRecord others) t (s, log)
      (.done undone) t' (s', log')) :
    ∃ calls, log' = log ++ calls ∧
      Undoes link others options.timeout (switched carried) calls undone t s t' s' := by
  induction carried generalizing t s log undone with
  | nil =>
    obtain ⟨rfl, rfl, same⟩ := course.of_pure
    cases same
    exact ⟨[], (List.append_nil _).symm, .nil⟩
  | cons entry rest ih =>
    obtain ⟨a, r⟩ := entry
    rw [undo_cons] at course
    obtain ⟨taken, t₁, ⟨s₁, log₁⟩, head, more⟩ := course.of_bind_done
    obtain ⟨later, _, _, following, last⟩ := more.of_bind_done
    obtain ⟨rfl, rfl, same⟩ := last.of_pure
    cases same
    obtain ⟨calls, rfl, undoes⟩ := ih following
    cases success : r.success && a.IsSwitch with
    | false =>
      rw [undoOne_eq, success] at head
      obtain ⟨rfl, rfl, same⟩ := head.of_pure
      cases same
      exact ⟨calls, rfl, by rwa [switched_cons, success]⟩
    | true =>
      -- A switching that succeeded is passed over if its device is gone, and else sent for once.
      rw [undoOne_eq, success, if_pos rfl] at head
      obtain ⟨known, _, _, viewed, tried⟩ := head.of_bind_done
      obtain ⟨rfl, rfl, rfl⟩ := viewed.of_step
      cases found : link.lookup s a.device with
      | none =>
        have found : link.recorded.lookup (s, log) a.device = none := found
        simp only [found] at tried
        obtain ⟨rfl, rfl, same⟩ := tried.of_pure
        cases same
        refine ⟨calls, rfl, ?_⟩
        rw [switched_cons, success]
        exact .gone found undoes
      | some d =>
        have found' : link.recorded.lookup (s, log) a.device = some d := found
        simp only [found'] at tried
        obtain ⟨verdict, t₂, ⟨s₂, log₂⟩, attempted, ended⟩ := tried.of_bind_done
        obtain ⟨rfl, rfl, same⟩ := ended.of_pure
        cases same
        obtain ⟨rfl, once⟩ := reaches_attempt attempted
        refine ⟨_, List.append_assoc _ _ _, ?_⟩
        rw [switched_cons, success]
        exact .sent found once undoes

end Batch

/-! ### The state that a device is left in -/

/-- What a state tells of a device that is switched by nothing but commands. `valid` is what has to be
known of a state for that. -/
structure DeviceLink.Gauge (link : DeviceLink σ) (others : σ → σ → Prop) (timeout : Duration)
    (id : DeviceId) where
  valid : σ → Prop
  reading : σ → Option Bool
  valid_others : ∀ {s s'}, others s s' → valid s → valid s'
  valid_send : ∀ d command, (link.send d command).Minds fun _ s s' => valid s → valid s'
  /-- A device that accepts the command is switched. -/
  hit : ∀ {s d on now verdict t s'}, valid s → link.lookup s id = some d →
    (Batch.attempt link d (.ofSwitch on) timeout).Reaches others now s (.done verdict) t s' →
    verdict.isOk = true → reading s' = some on
  /-- Another device has a switch of its own. -/
  miss : ∀ {s other d on now verdict t s'}, valid s → other ≠ id → link.lookup s other = some d →
    (Batch.attempt link d (.ofSwitch on) timeout).Reaches others now s (.done verdict) t s' →
    reading s' = reading s

namespace Batch

variable {link : DeviceLink σ} {options : ExecutionOptions} {others : σ → σ → Prop}
variable {timeout : Duration} {id : DeviceId} (gauge : link.Gauge others timeout id)

/-- A state remains valid whatever is made of commands. -/
theorem valid_of_reaches {α : Type} {p q : Process σ α} {now t : Nat} {s s' : σ}
    (minds : p.Minds fun _ s s' => gauge.valid s → gauge.valid s')
    (course : p.Reaches others now s q t s') (valid : gauge.valid s) : gauge.valid s' :=
  (minds.leads (fun _ _ _ kept => kept) fun _ _ => gauge.valid_others).always valid course

theorem congruence_valid : Process.Congruence fun _ (_ p : Process σ _) =>
    p.Minds fun _ s s' => gauge.valid s → gauge.valid s' :=
  Process.congruence_minds fun _ _ valid => valid

theorem alike_valid : link.Alike (fun _ (_ p : Process σ _) =>
    p.Minds fun _ s s' => gauge.valid s → gauge.valid s') link :=
  DeviceLink.alike_minds (fun _ _ valid => valid) gauge.valid_send

/-- The state of a device after some switchings were undone in order. The last one has the last word. -/
def lastWord (id : DeviceId) (switchings : List Action) (before : Option Bool) : Option Bool :=
  switchings.foldl (fun reading a => if a.device = id then some (!a.switchesOn) else reading) before

/-- From the last switching to the first, the last word is that of the first one. -/
theorem lastWord_reverse (id : DeviceId) (switchings : List Action) (before : Option Bool) :
    lastWord id switchings.reverse before =
      match switchings.find? fun a => a.device = id with
      | some a => some (!a.switchesOn)
      | none => before := by
  rw [lastWord, List.foldl_reverse]
  induction switchings with
  | nil => rfl
  | cons a rest ih =>
    rw [List.foldr_cons, List.find?_cons]
    by_cases same : a.device = id
    · simp [same]
    · simpa [same] using ih

section

variable {switchings : List Action} {calls : List Call} {undone : List DeviceId} {t t' : Nat}
variable {s s' : σ}

theorem Undoes.count_le (undoes : Undoes link others timeout switchings calls undone t s t' s')
    (id : DeviceId) : undone.count id ≤ switchings.countP (fun a => a.device = id) := by
  induction undoes with
  | nil => exact Nat.le_refl 0
  | gone _ _ ih => exact Nat.le_trans ih (by simp [List.countP_cons])
  | @sent a rest calls undone d verdict t t₁ t' s s₁ s' _ _ _ ih =>
    rw [List.countP_cons]
    cases verdict.isOk with
    | false => exact Nat.le_trans ih (Nat.le_add_right _ _)
    | true =>
      rw [if_pos rfl, List.count_cons]
      simpa using ih

/-- Where every switching of a device is undone, the device is left as the last of them has it. -/
theorem Undoes.reading (undoes : Undoes link others timeout switchings calls undone t s t' s')
    (valid : gauge.valid s) (all : undone.count id = switchings.countP (fun a => a.device = id)) :
    gauge.reading s' = lastWord id switchings (gauge.reading s) := by
  induction undoes with
  | nil => rfl
  | @gone a rest calls undone t t' s s' unknown later ih =>
    have few := later.count_le id
    rw [List.countP_cons] at all
    -- A device that is gone is not listed, so not all of its switchings would be undone.
    have other : a.device ≠ id := by
      intro same
      simp only [same, decide_true, ↓reduceIte] at all
      omega
    simp only [other, decide_false, Bool.false_eq_true, ↓reduceIte, Nat.add_zero] at all
    rw [lastWord, List.foldl_cons, if_neg other]
    exact ih valid all
  | @sent a rest calls undone d verdict t t₁ t' s s₁ s' known course later ih =>
    have few := later.count_le id
    have valid₁ : gauge.valid s₁ := valid_of_reaches gauge
      (alike_attempt (congruence_valid gauge) (alike_valid gauge) d _ timeout) course valid
    rw [List.countP_cons] at all
    rw [lastWord, List.foldl_cons]
    by_cases same : a.device = id
    · -- All of its switchings are undone, and so is this one.
      cases accepted : verdict.isOk with
      | false =>
        simp only [accepted, same, decide_true, ↓reduceIte, Bool.false_eq_true] at all
        omega
      | true =>
        simp only [accepted, same, decide_true, ↓reduceIte, List.count_cons_self,
          Nat.add_right_cancel_iff] at all
        rw [if_pos same, ← gauge.hit valid (same ▸ known) course accepted]
        exact ih valid₁ all
    · have rest : undone.count id = rest.countP (fun a => a.device = id) := by
        simp only [same, decide_false, Bool.false_eq_true, ↓reduceIte, Nat.add_zero] at all
        rw [← all]
        cases verdict.isOk with
        | false => rfl
        | true => rw [if_pos rfl, List.count_cons_of_ne same]
      rw [if_neg same, ← gauge.miss valid same known course]
      exact ih valid₁ rest

end

/-! ### Taking back a batch -/

/-- The actions for a device that succeeded, in order. -/
def successes (id : DeviceId) (carried : List (Action × ActionResult)) : List Action :=
  (carried.filter fun (a, r) => r.success && a.device = id).map Prod.fst

theorem filter_switched {id : DeviceId} {carried : List (Action × ActionResult)}
    (only : ∀ entry ∈ carried, entry.1.device = id → entry.1.IsSwitch) :
    (switched carried).filter (fun a => a.device = id) = successes id carried := by
  rw [switched, successes, List.filter_map, List.filter_filter]
  refine congrArg _ (List.filter_congr fun entry member => ?_)
  by_cases same : entry.1.device = id
  · simp [same, only entry member same]
  · simp [same]

section

variable {link : DeviceLink σ} {options : ExecutionOptions} {others : σ → σ → Prop}
variable {actions : List Action} {results : List ActionResult} {undone : List DeviceId} {t t' : Nat}
variable {s s' : σ} {log log' : List Call}

theorem takeBack_undoes
    (course : (takeBack link.recorded options actions results).Reaches (Process.OffRecord others) t
      (s, log) (.done undone) t' (s', log')) :
    ∃ calls, log' = log ++ calls ∧ Undoes link others options.timeout (toUndo options actions results)
      calls undone t s t' s' := by
  unfold takeBack at course
  unfold toUndo
  split at course
  · next undoing =>
    rw [if_pos undoing, ← switched_reverse]
    exact undo_undoes course
  · next nothing =>
    obtain ⟨rfl, rfl, same⟩ := course.of_pure
    cases same
    rw [if_neg nothing]
    exact ⟨[], (List.append_nil _).symm, .nil⟩

theorem Undoes.of_nil {timeout : Duration} {calls : List Call}
    (undoes : Undoes link others timeout [] calls undone t s t' s') : calls = [] ∧ undone = [] := by
  cases undoes
  exact ⟨rfl, rfl⟩

/-- Where all switchings of a device were undone, it is left in the state that is opposite to the first of
them. -/
theorem Undoes.reading_eq {id : DeviceId} (gauge : link.Gauge others options.timeout id)
    {carried : List (Action × ActionResult)} {calls : List Call} {first : Action}
    (undoes : Undoes link others options.timeout (switched carried).reverse calls undone t s t' s')
    (valid : gauge.valid s) (only : ∀ entry ∈ carried, entry.1.device = id → entry.1.IsSwitch)
    (isFirst : (successes id carried).head? = some first)
    (all : undone.count id = (successes id carried).length) :
    gauge.reading s' = some (!first.switchesOn) := by
  have own := filter_switched only
  have count : undone.count id = (switched carried).reverse.countP fun a => a.device = id := by
    rw [all, List.countP_reverse, List.countP_eq_length_filter, own]
  rw [← own, List.head?_filter] at isFirst
  rw [undoes.reading gauge valid count, lastWord_reverse, isFirst]

end

/-- A failed batch that is to be undone takes back its switchings, after everything else and from the last
one to the first, with one call each; any other batch takes back nothing. A device for which there were
only switchings, and all of whose successes were undone, is left in the state opposite to the first of
them. -/
theorem execute_reverses (link : DeviceLink σ) (options : ExecutionOptions) (actions : List Action)
    (others : σ → σ → Prop) :
    (execute link.recorded options actions).Records others (execute link options actions) [] ∧
    ∀ {now s result t s' calls},
      (execute link.recorded options actions).Reaches (Process.OffRecord others) now (s, [])
        (.done result) t (s', calls) →
      result.error = none →
      ∃ t₁ s₁ forward back,
        (carryOut link.recorded options actions).Reaches (Process.OffRecord others) now (s, [])
          (.done result.actions) t₁ (s₁, forward) ∧
        calls = forward ++ back ∧
        Undoes link others options.timeout (toUndo options actions result.actions) back
          result.rolledBack t₁ s₁ t s' ∧
        (options.rollback = false ∨ result.success = true → back = [] ∧ result.rolledBack = []) ∧
        ∀ {id} (gauge : link.Gauge others options.timeout id), gauge.valid s →
          options.rollback = true → result.success = false →
          (∀ a ∈ actions, a.device = id → a.IsSwitch) →
          ∀ first, (successes id (actions.zip result.actions)).head? = some first →
            result.rolledBack.count id = (successes id (actions.zip result.actions)).length →
            gauge.reading s' = some (!first.switchesOn) := by
  refine ⟨(follows_execute link options actions).records others [], ?_⟩
  intro now s result t s' calls course calm
  obtain ⟨outcome, inner, rfl⟩ | ⟨cause, inner, rfl⟩ := reaches_execute course
  · obtain ⟨t₁, ⟨s₁, forward⟩, carried, taken⟩ := reaches_orchestrate inner
    obtain ⟨back, same, undoes⟩ := takeBack_undoes taken
    refine ⟨t₁, s₁, forward, back, carried, same, undoes, ?_, ?_⟩
    · intro nothing
      have empty : toUndo options actions outcome.1 = [] := by
        rcases nothing with off | succeeded
        · simp [toUndo, off]
        · exact if_neg (by simp [show allSucceeded actions outcome.1 = true from succeeded])
      rw [empty] at undoes
      exact undoes.of_nil
    · intro id gauge valid undoing failed only first isFirst all
      have whole : toUndo options actions outcome.1 = (switched (actions.zip outcome.1)).reverse :=
        if_pos (by simp [undoing, show allSucceeded actions outcome.1 = false from failed])
      rw [whole] at undoes
      refine undoes.reading_eq gauge ?_ (fun entry member => only _ (List.of_mem_zip member).1) isFirst all
      -- What was done before has kept the state valid.
      obtain ⟨q, before, -⟩ := carried.forget
        (alike_carryOut Process.congruence_follows link.alike_recorded options actions)
      exact valid_of_reaches gauge
        (alike_carryOut (congruence_valid gauge) (alike_valid gauge) options actions) before valid
  · cases calm

end Batch

/-- The switches of a fleet can be told as long as the registry knows every device under its own name. -/
def HouseholdHost.gauge {host : HouseholdHost σ} {others : σ → σ → Prop} (spares : host.Spares others)
    (timeout : Duration) (id : DeviceId) : host.link.Gauge others timeout id where
  valid := host.Consistent
  reading s := host.switched? s id
  valid_others := spares.consistent
  valid_send d command := (host.minds_send d command).mono fun _ s s' ⟨fleet, same⟩ known id d found =>
    known id d (by rwa [same, host.lookup_fleet_set] at found)
  hit := by
    intro s d on now verdict t s' known found course accepted
    have shows := (Batch.attempt_ensures spares d on timeout).stands ⟨known, rfl⟩ course
    have switched : host.switched? s' = _ := shows.switched
    rw [switched, if_pos accepted, known id d found, Switches.set, if_pos rfl]
  miss := by
    intro s other d on now verdict t s' known apart found course
    have shows := (Batch.attempt_ensures spares d on timeout).stands ⟨known, rfl⟩ course
    have switched : host.switched? s' = _ := shows.switched
    rw [switched]
    split
    · rw [known other d found, Switches.set, if_neg (Ne.symm apart)]
    · rfl

namespace Batch

/-! ### A lamp and a fan that is not there -/

def lampTaken : Process.Progress (Household × List Call) BatchResult :=
  (execute wholeHouse.link.recorded undoingOptions lampThenFan).poll 0 (lampHouse true, [])

theorem reaches_lampTaken :
    (execute wholeHouse.link.recorded undoingOptions lampThenFan).Reaches (Process.OffRecord Eq) 0
      (lampHouse true, []) (.done lampResult) 0 lampTaken.state := by
  have left : lampTaken.left = .done lampResult := Process.eq_done (by decide +kernel)
  rw [← left]
  exact .first

/-- The lamp is switched on and off again, and that is all. -/
theorem execute_reverses_lamp :
    lampTaken.state.2.map (fun call => (call.device.id, call.command)) =
      [(⟨"lamp"⟩, .turnOn), (⟨"lamp"⟩, .turnOff)] ∧
    wholeHouse.switched? lampTaken.state.1 ⟨"lamp"⟩ = some false := by
  obtain ⟨_, _, _, _, -, -, -, -, readings⟩ := (execute_reverses wholeHouse.link undoingOptions
    lampThenFan Eq).2 reaches_lampTaken rfl
  refine ⟨by decide +kernel, ?_⟩
  exact readings (HouseholdHost.gauge spares_eq undoingOptions.timeout ⟨"lamp"⟩)
    (consistent_lampHouse true) rfl rfl (by decide) ⟨⟨"lamp"⟩, .turnOn, none⟩ rfl (by decide)

end Batch

end Hearth

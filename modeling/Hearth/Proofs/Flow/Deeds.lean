import Hearth.Proofs.Execution.Calls
import Hearth.Proofs.Execution.Conduct
import Hearth.Proofs.Flow.Visits
import Hearth.Proofs.Process.Halting

/-!
# Hearth.Proofs.Flow.Deeds

What a run does to the world around it: it has actions carried out, and it announces how it went.

## Main definitions

- `FlowHost.recorded`: surroundings that keep a record of all deeds and are otherwise the same.
- `FlowHost.Alike`: what two surroundings do is related.

## Main results

- `FlowHost.alike_traverse` and `FlowHost.alike_run`: two runs are alike if their surroundings are.
- `FlowHost.follows_run`: whatever is run can be run with a record.
- `FlowHost.reaches_run`: a run that is over has announced what it answers, once, at the instant of its
  end. All it did before that was to have actions carried out.
- `FlowHost.run_ends`: a run ends if the actions do.
-/

namespace Hearth

variable {σ σ' : Type}

inductive Deed
  | acted (time : Nat) (actions : List Action)
  | announced (time : Nat) (notice : Notice)
deriving Repr, Inhabited

namespace FlowHost

/-! ### Surroundings that are alike -/

/-- What is asked of two surroundings while a flow is walked through is related. -/
structure Alike (R : (α : Type) → Process σ' α → Process σ α → Prop) (host' : FlowHost σ')
    (host : FlowHost σ) : Prop where
  inputs : R FlowInputs (.step host'.inputs) (.step host.inputs)
  runActions : ∀ actions, R _ (host'.runActions actions) (host.runActions actions)

section

variable {R : (α : Type) → Process σ' α → Process σ α → Prop} {host' : FlowHost σ'} {host : FlowHost σ}
  (congruence : Process.Congruence R) (alike : host'.Alike R host)

include congruence alike

theorem alike_execute (n : FlowNode) (log : RunLog) :
    R _ (host'.execute n log) (host.execute n log) := by
  simp only [execute]
  cases n.role with
  | trigger => exact congruence.pure _
  | condition =>
    refine congruence.bind alike.inputs fun inputs => ?_
    cases n.holds inputs with
    | ok holds => exact congruence.pure _
    | error fault => exact congruence.pure _
  | action =>
    cases n.action with
    | error fault => exact congruence.pure _
    | ok a =>
      refine congruence.bind (alike.runActions [a]) fun answer => ?_
      cases answer with
      | ok => exact congruence.pure _
      | error failure => exact congruence.pure _
  | delay =>
    cases n.delay with
    | error fault => exact congruence.pure _
    | ok delay => exact congruence.bind (congruence.sleep delay) fun _ => congruence.pure _

theorem alike_attempt (probe : Probe) (start : Nat) (n : FlowNode) (depth : Nat) (log : RunLog) :
    R _ (host'.attempt probe start n depth log) (host.attempt probe start n depth log) :=
  congruence.bind congruence.now fun _ => congruence.bind (alike_execute congruence alike n _) fun _ =>
    congruence.bind congruence.now fun _ => congruence.pure _

theorem alike_visit (probe : Probe) (start : Nat) (n : FlowNode) (depth : Nat) (log : RunLog) :
    R _ (host'.visit probe start n depth log) (host.visit probe start n depth log) := by
  refine congruence.bind (alike_attempt congruence alike probe start n depth log) ?_
  rintro ⟨outcome, after⟩
  cases outcome with
  | ok branch => exact congruence.pure _
  | error fault => exact congruence.pure _

theorem alike_walk {f : Flow} (probe : Probe) (start : Nat) (w : Walk f) (log : RunLog) :
    R _ (host'.walk probe start w log) (host.walk probe start w log) := by
  fun_induction FlowHost.walk host probe start w log with
  | case1 w log front =>
    rw [walk_of_nil front]
    exact congruence.pure _
  | case2 w log n depth rest front seen ih =>
    rw [walk_of_cons front, if_pos seen]
    exact ih
  | case3 w log n depth rest front fresh long =>
    rw [walk_of_cons front, if_neg fresh, if_pos long]
    exact congruence.pure _
  | case4 w log n depth rest front fresh short ih =>
    rw [walk_of_cons front, if_neg fresh, if_neg short]
    exact congruence.bind (alike_visit congruence alike probe start n depth log) fun answer =>
      ih answer.1 answer.2

theorem alike_traverse (probe : Probe) (start : Nat) (f : Flow) :
    R _ (host'.traverse probe start f) (host.traverse probe start f) := by
  simp only [traverse]
  split
  · exact congruence.pure _
  · split
    · exact congruence.pure _
    · exact alike_walk congruence alike probe start _ _

theorem alike_run
    (published : ∀ notice, R Unit (.change (host'.publish notice)) (.change (host.publish notice)))
    (probe : Probe) (f : Flow) : R _ (host'.run probe f) (host.run probe f) :=
  congruence.bind congruence.now fun start =>
    congruence.bind (alike_traverse congruence alike probe start f) fun _ =>
      congruence.bind congruence.now fun _ => congruence.bind (published _) fun _ => congruence.pure _

end

/-! ### A record of deeds -/

/-- Does what other surroundings do and keeps a record of what they are asked to do. -/
def recorded (host : FlowHost σ) : FlowHost (σ × List Deed) where
  inputs now x := ((host.inputs now x.1).1, ((host.inputs now x.1).2, x.2))
  runActions actions := do
    Process.change fun now x => (x.1, x.2 ++ [.acted now actions])
    (host.runActions actions).offRecord
  publish notice now x := (host.publish notice now x.1, x.2 ++ [.announced now notice])

variable {host : FlowHost σ} {probe : Probe} {f : Flow}

theorem follows_run (host : FlowHost σ) (probe : Probe) (f : Flow) :
    (host.recorded.run probe f).Follows (host.run probe f) := by
  have alike : host.recorded.Alike
      (fun _ (p' : Process (σ × List Deed) _) (p : Process σ _) => p'.Follows p) host := by
    refine ⟨.step (fun _ _ => rfl) fun _ _ => rfl, fun actions => ?_⟩
    have noted : (Process.change fun now (x : σ × List Deed) =>
        (x.1, x.2 ++ [.acted now actions])).Follows (.done ()) := .note fun _ _ => rfl
    exact .bind (k := fun _ => host.runActions actions) noted fun _ =>
      Process.follows_offRecord (host.runActions actions)
  exact alike_run Process.congruence_follows alike
    (fun _ => .step (fun _ _ => rfl) fun _ _ => rfl) probe f

/-- The record is as it was, or one deed longer: actions were asked for. -/
def OnlyActs (now : Nat) (x y : σ × List Deed) : Prop :=
  y.2 = x.2 ∨ ∃ actions, y.2 = x.2 ++ [.acted now actions]

theorem minds_traverse (start : Nat) : (host.recorded.traverse probe start f).Minds OnlyActs := by
  have still (now : Nat) (x : σ × List Deed) : OnlyActs now x x := .inl rfl
  have alike : host.recorded.Alike (fun _ (_ p : Process (σ × List Deed) _) => p.Minds OnlyActs)
      host.recorded := by
    refine ⟨.step fun _ _ => .inl rfl, fun actions => ?_⟩
    refine (Process.Minds.change fun now x => .inr ⟨actions, rfl⟩).bind fun _ => ?_
    exact (Process.minds_offRecord (host.runActions actions)).mono fun _ _ _ same => .inl same
  exact alike_traverse (Process.congruence_minds still) alike probe start f

/-- While a flow is walked through, nothing is announced. -/
theorem traverse_deeds {others : σ → σ → Prop} {start now t : Nat} {s s' : σ}
    {deeds deeds' : List Deed} {q : Process (σ × List Deed) (Option FlowFault × RunLog)}
    (course : (host.recorded.traverse probe start f).Reaches (Process.OffRecord others) now (s, deeds) q t
      (s', deeds')) :
    ∃ acts : List (Nat × List Action), deeds' = deeds ++ acts.map fun a => .acted a.1 a.2 := by
  let More (x : σ × List Deed) : Prop :=
    ∃ acts : List (Nat × List Action), x.2 = deeds ++ acts.map fun a => .acted a.1 a.2
  -- Neither a step of the walk nor the others take anything off the record or announce anything.
  have leads : (host.recorded.traverse probe start f).Leads (Process.OffRecord others) (fun _ => More)
      (fun _ => More) (fun _ => More) fun _ _ => More := by
    refine (minds_traverse start).leads ?_ ?_
    · rintro now x y (same | ⟨actions, grown⟩) ⟨acts, earlier⟩
      · exact ⟨acts, same.trans earlier⟩
      · exact ⟨acts ++ [(now, actions)], by simp [grown, earlier]⟩
    · rintro x y changed ⟨acts, earlier⟩
      exact ⟨acts, changed.2.trans earlier⟩
  exact leads.always ⟨[], (List.append_nil deeds).symm⟩ course

/-! ### A run that is over -/

/-- A run that is over has walked through its flow and then announced the result, at one instant. -/
theorem reaches_run {others : σ → σ → Prop} {now t : Nat} {s s' : σ} {result : FlowResult}
    (course : (host.run probe f).Reaches others now s (.done result) t s') :
    ∃ fault log s₁,
      (host.traverse probe now f).Reaches others now s (.done (fault, log)) t s₁ ∧
      result = ⟨f.id, log, fault.map FlowFault.message, t - now⟩ ∧
      s' = host.publish (notice f result) t s₁ := by
  -- All but the walk are single steps, which take no time.
  obtain ⟨start, _, _, begun, running⟩ := course.of_bind_done
  obtain ⟨rfl, rfl, rfl⟩ := begun.of_step
  obtain ⟨⟨fault, log⟩, _, _, walked, ending⟩ := running.of_bind_done
  obtain ⟨ended, _, _, finished, closing⟩ := ending.of_bind_done
  obtain ⟨rfl, rfl, rfl⟩ := finished.of_step
  obtain ⟨_, _, _, published, last⟩ := closing.of_bind_done
  obtain ⟨-, rfl, rfl⟩ := published.of_step
  obtain ⟨rfl, rfl, rfl⟩ := last.of_pure
  exact ⟨fault, log, _, walked, rfl, rfl⟩

/-- Where every action comes to an end, so does every run. -/
theorem run_ends (calm : ∀ actions, (host.runActions actions).Ends fun _ => True) (probe : Probe)
    (f : Flow) : (host.run probe f).Ends fun _ => True := by
  have traversed (start : Nat) : (host.traverse probe start f).Ends fun _ => True := by
    simp only [traverse]
    split
    · exact .pure trivial
    · split
      · exact .pure trivial
      · exact walk_ends (P := fun _ _ => True) (fun _ _ _ => trivial)
          (fun _ _ _ _ => (visit_ends calm _ _ _).mono fun _ _ => trivial) (fun _ _ => trivial)
          (fun _ _ _ _ => trivial) _ _ trivial
  refine Process.Ends.now.bind fun start _ => (traversed start).bind fun answer _ => ?_
  refine Process.Ends.now.bind fun ended _ => ?_
  have published (result : FlowResult) :
      (Process.change (host.publish (notice f result))).Ends fun _ => True :=
    .step fun _ _ => trivial
  exact (published _).bind fun _ _ => .pure trivial

/-- A course of a run in surroundings in which nothing is known. -/
theorem exists_course_recorded_emptyHost (probe : Probe) (f : Flow) :
    ∃ result t deeds, (emptyHost.recorded.run probe f).Reaches (Process.OffRecord Eq) 0 ((), [])
      (.done result) t ((), deeds) := by
  have calm (actions : List Action) : (emptyHost.recorded.runActions actions).Ends fun _ => True := by
    have noted : (Process.change fun now (x : Unit × List Deed) =>
        (x.1, x.2 ++ [.acted now actions])).Ends fun _ => True := .step fun _ _ => trivial
    exact noted.bind fun _ _ => .pure trivial
  have idle (x : Unit × List Deed) : Process.OffRecord Eq x x := ⟨rfl, rfl⟩
  obtain ⟨result, t, ⟨_, deeds⟩, course, -⟩ := (run_ends calm probe f).exists_course idle 0 ((), [])
  exact ⟨result, t, deeds, course⟩

end FlowHost

end Hearth

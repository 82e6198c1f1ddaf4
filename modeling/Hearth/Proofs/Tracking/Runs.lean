import Hearth.Proofs.Process.Course
import Hearth.Proofs.Tracking.Watchers
import Hearth.Tracking.Monitor

/-!
# Hearth.Proofs.Tracking.Runs

The automations that a fix runs.

## Main definition

`TrackerHost.Fired`: automations have been run one after another, whether their runs failed or not.

## Main result

`TrackerHost.check_runs_heeded`: for every crossing that a fix shows, each automation that heeds it is
run once, and no other is.
-/

namespace Hearth

namespace TrackerHost

variable {σ : Type} (host : TrackerHost σ)

def triggered (a : Automation) (c : Transition) : Notice :=
  .about .automationTriggered a.id.text
    [("name", .text a.name), ("trigger", .text "geofence"), ("geofence_id", c.fence.toData),
      ("event", .text c.crossing.text)]

/-- What is announced when a run has come to its end. -/
def conclude (a : Automation) (outcome : Except Failure Unit) (now : Nat) (s : σ) : σ :=
  match outcome with
  | .ok () => s
  | .error failure =>
    host.publish (.about .automationFailed a.id.text
      [("name", .text a.name), ("error", .text failure.message)]) now s

/-- Automations have been run one after another between two states, each as soon as it was announced,
whatever became of the runs before it. -/
inductive Fired (others : σ → σ → Prop) : List (Automation × Transition) → Nat → σ → Nat → σ → Prop
  | none {t : Nat} {s : σ} : Fired others [] t s t s
  | run {a : Automation} {c : Transition} {rest : List (Automation × Transition)}
      {outcome : Except Failure Unit} {t t₁ t₂ : Nat} {s s₁ s₂ : σ}
      (ran : (host.run a).Reaches others t (host.publish (triggered a c) t s) (.done outcome) t₁ s₁)
      (later : Fired others rest t₁ (host.conclude a outcome t₁ s₁) t₂ s₂) :
      Fired others ((a, c) :: rest) t s t₂ s₂

variable {host} {others : σ → σ → Prop} {now t : Nat} {s s' : σ}

theorem Fired.append {runs more : List (Automation × Transition)} {t₁ : Nat} {s₁ : σ}
    (first : host.Fired others runs now s t₁ s₁) (later : host.Fired others more t₁ s₁ t s') :
    host.Fired others (runs ++ more) now s t s' := by
  induction first with
  | none => exact later
  | run ran _ ih => exact .run ran (ih later)

theorem fired_of_fire {a : Automation} {c : Transition}
    (course : (host.fire a c).Reaches others now s (.done ()) t s') :
    host.Fired others [(a, c)] now s t s' := by
  -- The announcement takes one step; the run may take long and fail; the conclusion never waits.
  obtain ⟨_, t₁, s₁, announced, course⟩ := course.of_bind_done
  obtain ⟨rfl, rfl, rfl⟩ := announced.of_step
  obtain ⟨outcome, t₂, s₂, ran, course⟩ := course.of_bind_done
  have concluded : t = t₂ ∧ s' = host.conclude a outcome t₂ s₂ := by
    cases outcome with
    | ok answer => exact course.of_pure.2
    | error failure => exact course.of_step.2
  obtain ⟨rfl, rfl⟩ := concluded
  exact .run ran .none

theorem fired_of_inOrder {runs : List (Automation × Transition)} {answers : List Unit}
    (course : (Process.inOrder (runs.map fun (a, c) => host.fire a c)).Reaches others now s
      (.done answers) t s') : host.Fired others runs now s t s' := by
  induction runs generalizing now s answers with
  | nil =>
    obtain ⟨-, rfl, rfl⟩ := course.of_pure
    exact .none
  | cons run rest ih =>
    obtain ⟨a, c⟩ := run
    obtain ⟨_, t₁, s₁, foremost, course⟩ := Process.Reaches.of_bind_done course
    obtain ⟨more, t₂, s₂, later, course⟩ := course.of_bind_done
    obtain ⟨-, rfl, rfl⟩ := course.of_pure
    exact (fired_of_fire foremost).append (ih later)

theorem ends_fire {a : Automation} (ends : (host.run a).Ends fun _ => True) (c : Transition) :
    (host.fire a c).Ends fun _ => True := by
  have announced : (Process.change (host.publish (triggered a c))).Ends fun _ => True :=
    .step fun _ _ => trivial
  refine announced.bind fun _ _ => ends.bind fun outcome _ => ?_
  cases outcome with
  | ok answer => exact Process.Ends.pure trivial
  | error failure => exact Process.Ends.step fun _ _ => trivial

/-- A fix that is checked runs, for every crossing that it shows, each automation that heeds the
crossing, as it was watched last, once; it runs nothing else. Neither a run that fails nor anything
that becomes of the announcements keeps another run from being made. A fix that is dispatched starts
the same runs side by side. -/
theorem check_runs_heeded {past : Chronicle}
    (chronicled : Tracker.Chronicled host.config (host.part.get s) past) (l : Location) :
    ∃ shown runs after, (host.part.get s).apply host.config l = (shown, runs, after) ∧
      (∀ id, runs.filter (fun run => run.1.id = id) =
        shown.filterMap fun c => (heeded id ⟨c.fence, c.crossing⟩ past).map fun a => (a, c)) ∧
      (∀ {others now answer t s'}, (host.check l).Reaches others now s (.done answer) t s' →
        answer = shown ∧
        host.Fired others runs now (host.announce shown now (host.part.set after s)) t s') ∧
      ((∀ a, (host.run a).Ends fun _ => True) → (host.check l).Ends fun _ => True) ∧
      (∀ now, host.dispatch l now s =
        (shown, host.announce shown now (host.part.set after s),
          runs.map fun (a, c) => host.fire a c)) ∧
      ∀ {others a c now s t s'}, (host.fire a c).Reaches others now s (.done ()) t s' →
        host.Fired others [(a, c)] now s t s' := by
  refine ⟨_, _, _, rfl, chronicled.filter_runs l, ?_, ?_, fun _ => rfl, fired_of_fire⟩
  · intro others now answer t s' course
    -- Before any run is made, the fix has been applied and its crossings announced.
    obtain ⟨_, t₁, s₁, applied, course⟩ := course.of_bind_done
    obtain ⟨rfl, rfl, rfl⟩ := applied.of_step
    obtain ⟨_, t₂, s₂, ran, course⟩ := course.of_bind_done
    obtain ⟨rfl, rfl, rfl⟩ := course.of_pure
    exact ⟨rfl, fired_of_inOrder ran⟩
  · intro ends
    have applied : (Process.step (host.apply l)).Ends fun _ => True := .step fun _ _ => trivial
    refine applied.bind fun answer _ => ?_
    refine (Process.Ends.inOrder ?_).bind fun _ _ => Process.Ends.pure trivial
    intro p member
    obtain ⟨⟨a, c⟩, -, rfl⟩ := List.mem_map.1 member
    exact ends_fire (ends a) c

/-- A house with nothing but a porch and a bell. -/
structure Doorway where
  tracker : Tracker
  monitor : Option Monitor
  positioning : Positioning
  rung : List AutomationId

/-- The bell makes a note of every run, and fails. -/
def doorway : TrackerHost Doorway where
  config := .standard
  part := { get := Doorway.tracker, set := fun tracker s => { s with tracker } }
  monitor := { get := Doorway.monitor, set := fun monitor s => { s with monitor } }
  positioning := { get := Doorway.positioning, set := fun positioning s => { s with positioning } }
  run a := do
    Process.change fun _ s => { s with rung := s.rung ++ [a.id] }
    return .error .permissionDenied
  publish _ _ s := s

def bell : Automation where
  id := ⟨⟨7⟩⟩
  name := "bell"
  enabled := true
  triggers := [.geofence Tracker.porch.id .enter, .geofence Tracker.porch.id .enter]
  actions := []

theorem check_runs_bell :
    ∃ (s : Doorway) (past : Chronicle),
      Tracker.Chronicled .standard s.tracker past ∧
      heeded bell.id ⟨Tracker.porch.id, .enter⟩ past = some bell ∧
      (∃ shown runs after, s.tracker.apply .standard Tracker.doorstep = (shown, runs, after) ∧
        runs.filter (fun run => run.1.id = bell.id) =
          shown.filterMap fun c =>
            (heeded bell.id ⟨c.fence, c.crossing⟩ past).map fun a => (a, c)) ∧
      (doorway.check Tracker.doorstep).Ends fun _ => True := by
  have begun : Tracker.Chronicled .standard .empty [] := .empty
  have watched := (begun.event (.insert Tracker.porch)).event (.watch bell)
  obtain ⟨shown, runs, after, applied, heeds, -, ends, -⟩ :=
    @check_runs_heeded _ doorway ⟨_, none, .create true, []⟩ _ watched Tracker.doorstep
  refine ⟨⟨_, none, .create true, []⟩, _, watched, rfl, ⟨shown, runs, after, applied, ?_⟩, ends ?_⟩
  · exact heeds bell.id
  · intro a
    have noted : (Process.change fun _ (s : Doorway) => { s with rung := s.rung ++ [a.id] }).Ends
        fun _ => True := .step fun _ _ => trivial
    exact noted.bind fun _ _ => .pure trivial

end TrackerHost

end Hearth

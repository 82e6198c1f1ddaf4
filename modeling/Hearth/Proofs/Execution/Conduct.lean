import Hearth.Household
import Hearth.Proofs.Execution.Parametric
import Hearth.Proofs.Process.Conduct

/-!
# Hearth.Proofs.Execution.Conduct

What carrying out a batch does to anything but the devices: nothing.

## Main results

`Batch.minds_run`: a batch does what its link permits.
`HouseholdHost.minds_run`: in a household it changes the fleet only.
-/

namespace Hearth

variable {σ : Type} {permitted : Nat → σ → σ → Prop}

/-- What is made of processes that mind what is permitted minds it, too. -/
theorem Process.congruence_minds (still : ∀ now s, permitted now s s) :
    Process.Congruence fun _ (_ p : Process σ _) => p.Minds permitted where
  pure _ := .pure _
  bind first rest := first.bind rest
  now := .now still
  sleep d := .sleep still d
  limited d _ _ minds := .limited still d minds
  rescue minds := minds.rescue
  both onLeft onRight := ⟨onLeft, onRight, fun _ _ => trivial⟩

variable {link : DeviceLink σ}

theorem DeviceLink.alike_minds (still : ∀ now s, permitted now s s)
    (send : ∀ d command, (link.send d command).Minds permitted) :
    link.Alike (fun _ (_ p : Process σ _) => p.Minds permitted) link where
  lookup _ := .view still _
  send := send

/-- Whatever a link permits when commands are sent, a batch does nothing else. -/
theorem Batch.minds_run (still : ∀ now s, permitted now s s)
    (send : ∀ d command, (link.send d command).Minds permitted) (options : ExecutionOptions)
    (actions : List Action) : (run link options actions).Minds permitted :=
  alike_run (Process.congruence_minds still) (DeviceLink.alike_minds still send) options actions

namespace HouseholdHost

variable {σ : Type} (host : HouseholdHost σ)

/-- Nothing is changed but the fleet. -/
def FleetOnly (_now : Nat) (s s' : σ) : Prop := ∃ fleet, s' = host.fleet.set fleet s

theorem fleetOnly_refl (now : Nat) (s : σ) : host.FleetOnly now s s :=
  ⟨host.fleet.get s, (host.fleet.set_get s).symm⟩

/-- A device is looked at, waited for, and switched; only the last touches the fleet. -/
theorem minds_send (d : Device) (command : Command) :
    (host.link.send d command).Minds host.FleetOnly := by
  have still := host.fleetOnly_refl
  refine (Process.Minds.now still).bind fun start => (Process.Minds.view still _).bind fun _ => ?_
  refine (Process.Minds.sleep still _).bind fun _ => ?_
  exact .step fun now s => ⟨_, rfl⟩

theorem minds_run (options : ExecutionOptions) (a : Automation) :
    (host.run options a).Minds host.FleetOnly :=
  Batch.minds_run host.fleetOnly_refl host.minds_send options a.actions

end HouseholdHost

end Hearth

import Hearth.Household

/-!
# Hearth.Proofs.Fleet.Switching

Which devices of a fleet are switched on, and what commands make of that.

## Main definitions

- `Fleet.switched?`: whether a device of the fleet is switched on, if it has a switch.
- `HouseholdHost.Spares`: others leave the switches of the fleet and the names in the registry alone.

## Main result

`Fleet.switched?_carryOut`: a device is switched exactly if it accepts the command.
-/

namespace Hearth

/-! ### Switching a device -/

/-- Whether an appliance is switched on. A sensor has no switch. -/
def Appliance.switched? (a : Appliance) : Option Bool :=
  match a.state with
  | .light on _ _ _ => some on
  | .switch on => some on
  | .sensor _ => none
  | .thermostat heating _ => some heating

def Command.ofSwitch (on : Bool) : Command := if on then .turnOn else .turnOff

/-- An action that does no more than switch a device on or off. -/
def Action.IsSwitch (a : Action) : Prop := a.kind = .turnOn ∨ a.kind = .turnOff

instance (a : Action) : Decidable a.IsSwitch :=
  inferInstanceAs (Decidable (a.kind = .turnOn ∨ a.kind = .turnOff))

/-- Whether an action that switches a device switches it on. -/
def Action.switchesOn (a : Action) : Bool := a.kind == .turnOn

theorem Action.IsSwitch.command_eq {a : Action} (isSwitch : a.IsSwitch) :
    a.command = .ok (.ofSwitch a.switchesOn) := by
  rcases isSwitch with kind | kind
  · simp only [command, switchesOn, kind]
    rfl
  · simp only [command, switchesOn, kind]
    rfl

theorem Action.IsSwitch.inverse? {a : Action} (isSwitch : a.IsSwitch) :
    ∃ kind, a.kind.inverse? = some kind ∧
      (if kind = .turnOn then Command.turnOn else .turnOff) = .ofSwitch (!a.switchesOn) := by
  rcases isSwitch with kind | kind
  · exact ⟨.turnOff, by rw [kind]; rfl, by simp [switchesOn, kind, Command.ofSwitch]⟩
  · exact ⟨.turnOn, by rw [kind]; rfl, by simp [switchesOn, kind, Command.ofSwitch]⟩

theorem Appliance.switched?_apply {a b : Appliance} {on : Bool}
    (applied : a.apply (.ofSwitch on) = .ok b) : b.switched? = some on := by
  obtain ⟨id, name, state⟩ := a
  cases on
  all_goals
    cases state
    case sensor => cases applied
    all_goals
      cases applied
      rfl

/-- The switches of the devices, where they are known. -/
abbrev Switches : Type := DeviceId → Option Bool

def Switches.set (v : Switches) (id : DeviceId) (on : Bool) : Switches :=
  fun other => if other = id then some on else v other

def Switches.after (v : Switches) (switched : List (DeviceId × Bool)) : Switches :=
  switched.foldl (fun v (id, on) => v.set id on) v

namespace Fleet

def switched? (f : Fleet) : Switches := fun id => (f.get? id).bind Appliance.switched?

/-- A command that is not accepted leaves the fleet as it is. -/
theorem switched?_carryOut (f : Fleet) (now : Instant) (elapsed : Nat) (id : DeviceId) (on : Bool)
    (timeout : Duration) :
    (f.carryOut now elapsed id (.ofSwitch on)).2.switched? =
      if (Batch.verdict timeout (some (f.carryOut now elapsed id (.ofSwitch on)).1)).isOk then
        f.switched?.set id on
      else f.switched? := by
  unfold carryOut
  split
  · rfl
  · obtain ⟨known, found⟩ : ∃ known, f.get? id = known := ⟨_, rfl⟩
    simp only [found]
    cases known with
    | none => rfl
    | some a =>
      have name : a.id = id := by simpa using List.find?_some found
      obtain ⟨answer, applied⟩ : ∃ answer, a.apply (.ofSwitch on) = answer := ⟨_, rfl⟩
      simp only [applied]
      cases answer with
      | error reason => rfl
      | ok b =>
        funext other
        have sameId : b.id = id := (Appliance.id_of_apply applied).trans name
        show ((f.add b).get? other).bind _ = _
        rw [get?_add, sameId]
        simp only [Batch.verdict, ↓reduceIte, Except.isOk, Except.toBool, Switches.set, switched?]
        split
        · exact Appliance.switched?_apply applied
        · rfl

end Fleet

namespace HouseholdHost

variable {σ : Type}

def switched? (host : HouseholdHost σ) (s : σ) : Switches := (host.fleet.get s).switched?

/-- The registry knows every device under its own name. -/
def Consistent (host : HouseholdHost σ) (s : σ) : Prop :=
  ∀ id d, host.lookup s id = some d → d.id = id

/-- Others change neither the switches of the fleet nor the names in the registry. -/
structure Spares (host : HouseholdHost σ) (others : σ → σ → Prop) : Prop where
  switched : ∀ {s s'}, others s s' → host.switched? s' = host.switched? s
  consistent : ∀ {s s'}, others s s' → host.Consistent s → host.Consistent s'

structure Shows (host : HouseholdHost σ) (v : Switches) (s : σ) : Prop where
  consistent : host.Consistent s
  switched : host.switched? s = v

theorem Spares.shows {host : HouseholdHost σ} {others : σ → σ → Prop} (spares : host.Spares others)
    {v : Switches} (s s' : σ) (changed : others s s') (shows : host.Shows v s) : host.Shows v s' where
  consistent := spares.consistent changed shows.consistent
  switched := (spares.switched changed).trans shows.switched

theorem lookup_fleet_set (host : HouseholdHost σ) (f : Fleet) (s : σ) :
    host.lookup (host.fleet.set f s) = host.lookup s := by
  funext id
  simp only [lookup, registry, fleet, Field.comp, host.part.get_set]
  rfl

end HouseholdHost

end Hearth

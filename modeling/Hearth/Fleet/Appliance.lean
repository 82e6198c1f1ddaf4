import Hearth.Action
import Hearth.Data.Real
import Hearth.Device

/-!
# Hearth.Fleet.Appliance

Simulated devices and what they do with a command. A device that refuses a command says why and
stays as it is.
-/

namespace Hearth

inductive ApplianceState
  | light (on : Bool) (brightness : Nat) (color : Option String) (kelvin : Option Nat)
  | switch (on : Bool)
  | sensor (reading : Float)
  /-- The setpoint is in degrees. -/
  | thermostat (heating : Bool) (setpoint : Nat)
deriving Repr, Inhabited

inductive ApplianceFault
  | unknownType
  | unreadable
deriving DecidableEq, Repr

structure Appliance where
  id : DeviceId
  name : String
  state : ApplianceState
deriving Repr, Inhabited

namespace Appliance

def light (id name : String) : Appliance := ⟨⟨id⟩, name, .light false 100 none none⟩

def switch (id name : String) : Appliance := ⟨⟨id⟩, name, .switch false⟩

def sensor (id name : String) (reading : Float) : Appliance := ⟨⟨id⟩, name, .sensor reading⟩

def thermostat (id name : String) (setpoint : Nat) : Appliance :=
  ⟨⟨id⟩, name, .thermostat false setpoint⟩

def kind (a : Appliance) : DeviceKind :=
  match a.state with
  | .light _ _ _ _ => .light
  | .switch _ => .switch
  | .sensor _ => .sensor
  | .thermostat _ _ => .thermostat

def value (a : Appliance) : DeviceValue :=
  match a.state with
  | .light on _ _ _ => .bool on
  | .switch on => .bool on
  | .sensor reading => .number reading
  | .thermostat _ setpoint => .number (Float.ofNat setpoint)

def device (a : Appliance) (now : Instant) : Device :=
  { id := a.id, name := a.name, kind := a.kind, online := true, value := a.value, updatedAt := now }

/-- The state after a command, or the reason why it is refused. Setting a property of a light
switches it on, but a brightness of zero switches it off. The temperature of a light is that of its
colour in Kelvin, the temperature of a thermostat its setpoint. -/
def stateAfter (a : Appliance) (command : Command) : Except String ApplianceState :=
  match a.state, command with
  | .light _ brightness color kelvin, .turnOn => .ok (.light true brightness color kelvin)
  | .light _ brightness color kelvin, .turnOff => .ok (.light false brightness color kelvin)
  | .light on brightness color kelvin, .toggle => .ok (.light (!on) brightness color kelvin)
  | .light _ _ color kelvin, .setBrightness percent =>
    .ok (.light (percent > 0) percent color kelvin)
  | .light _ brightness _ kelvin, .setColor hex => .ok (.light true brightness (some hex) kelvin)
  | .light _ brightness color _, .setTemperature kelvin =>
    if 1000 ≤ kelvin ∧ kelvin ≤ 10000 then .ok (.light true brightness color (some kelvin))
    else .error s!"colour temperature {kelvin}K is out of range"
  | .switch _, .turnOn => .ok (.switch true)
  | .switch _, .turnOff => .ok (.switch false)
  | .switch on, .toggle => .ok (.switch (!on))
  | .switch _, _ => .error (a.name ++ " only switches on and off")
  | .sensor _, _ => .error (a.name ++ " is a read-only sensor")
  | .thermostat _ setpoint, .turnOn => .ok (.thermostat true setpoint)
  | .thermostat _ setpoint, .turnOff => .ok (.thermostat false setpoint)
  | .thermostat heating setpoint, .toggle => .ok (.thermostat (!heating) setpoint)
  | .thermostat _ _, .setTemperature degrees =>
    if 5 ≤ degrees ∧ degrees ≤ 30 then .ok (.thermostat true degrees)
    else .error s!"setpoint {degrees} is outside 5..=30"
  | .thermostat _ _, _ => .error (a.name ++ " has no light")

def apply (a : Appliance) (command : Command) : Except String Appliance :=
  (a.stateAfter command).map fun state => { a with state }

theorem id_of_apply {a b : Appliance} {command : Command} (applied : a.apply command = .ok b) :
    b.id = a.id := by
  unfold apply at applied
  cases state : a.stateAfter command with
  | error reason => simp [state, Except.map] at applied
  | ok next =>
    simp only [state, Except.map, Except.ok.injEq] at applied
    rw [← applied]

/-- The device that the engine sees, and the state behind it. -/
def toData (a : Appliance) : Data :=
  let state : List (String × Data) :=
    match a.state with
    | .light on brightness color kelvin =>
      [("on", .bool on), ("brightness", .nat brightness), ("color", .ofText? color),
        ("kelvin", .ofOption .nat kelvin)]
    | .switch on => [("on", .bool on)]
    | .sensor reading => [("reading", .finite reading)]
    | .thermostat heating setpoint => [("heating", .bool heating), ("setpoint", .nat setpoint)]
  .record ([("id", a.id.toData), ("name", .text a.name), ("kind", .text a.kind.text),
    ("online", .bool true), ("value", a.value.toData)] ++ state)

/-- Reads an appliance, which is switched off. A sensor needs its reading and a thermostat its
setpoint. -/
def ofData (d : Data) : Except ApplianceFault Appliance :=
  let id := d.textAt "id"
  let name := d.textAt "name"
  match d.textAt "type" with
  | "light" => .ok (light id name)
  | "switch" => .ok (switch id name)
  | "sensor" =>
    match (d.entry "reading").anyReal? with
    | some reading => .ok (sensor id name reading)
    | none => .error .unreadable
  | "thermostat" =>
    match (d.entry "setpoint").natUpTo? Number.maxWord32 with
    | some setpoint => .ok (thermostat id name setpoint)
    | none => .error .unreadable
  | _ => .error .unknownType

end Appliance

end Hearth

import Hearth.Proofs.Execution.Parametric
import Hearth.Proofs.Process.Record

/-!
# Hearth.Proofs.Execution.Calls

The calls that a batch makes to its devices.

## Main definitions

- `DeviceLink.recorded`: a link that keeps a record of all calls and is otherwise the same.
- `Batch.Serves`: calls that send one command to one device as it was known before.

## Main results

- `Batch.follows_executeOne` and `Batch.follows_execute`: whatever is done over a link can be done with a
  record.
- `Batch.executeOne_calls`: all calls of an action are the same.

## Proof strategy

The device is looked up once, so the invariant of the attempts can name it: so many calls have been made,
each with what was known of the device then (`Repeated`). An attempt makes one call before anything else,
and it remains made if the attempt is cut short.
-/

namespace Hearth

/-- A command as it was sent, with what was known of the device. -/
structure Call where
  time : Nat
  device : Device
  command : Command
deriving Repr, Inhabited

variable {σ ρ : Type}

/-- Does what another link does and keeps a record of the calls. -/
def DeviceLink.recorded (link : DeviceLink σ) : DeviceLink (σ × List Call) where
  lookup x id := link.lookup x.1 id
  send d command := do
    Process.change fun now x => (x.1, x.2 ++ [⟨now, d, command⟩])
    (link.send d command).offRecord

theorem Process.congruence_follows :
    Process.Congruence fun _ (p' : Process (σ × ρ) _) (p : Process σ _) => p'.Follows p where
  pure a := .done a
  bind first rest := .bind first rest
  now := .step (fun _ _ => rfl) fun _ _ => rfl
  sleep _ := .bind (.step (fun _ _ => rfl) fun _ _ => rfl) fun _ => .waitUntil _
  limited _ _ _ inside := .bind (.step (fun _ _ => rfl) fun _ _ => rfl) fun _ => .within _ inside
  rescue inside := .guarded inside
  both onLeft onRight := .both onLeft onRight

theorem DeviceLink.alike_recorded (link : DeviceLink σ) :
    link.recorded.Alike (fun _ (p' : Process (σ × List Call) _) (p : Process σ _) => p'.Follows p)
      link where
  lookup _ := .step (fun _ _ => rfl) fun _ _ => rfl
  send d command :=
    have noted : (Process.change fun now (x : σ × List Call) =>
        (x.1, x.2 ++ [⟨now, d, command⟩])).Follows (.done ()) := .note fun _ _ => rfl
    .bind (k := fun _ => link.send d command) noted fun _ =>
      Process.follows_offRecord (link.send d command)

namespace Batch

variable {link : DeviceLink σ} {others : σ → σ → Prop} {log : List Call} {d : Device}
variable {command : Command}

theorem follows_executeOne (link : DeviceLink σ) (options : ExecutionOptions) (a : Action) :
    (executeOne link.recorded options a).Follows (executeOne link options a) :=
  alike_executeOne Process.congruence_follows link.alike_recorded options a

theorem follows_execute (link : DeviceLink σ) (options : ExecutionOptions) (actions : List Action) :
    (execute link.recorded options actions).Follows (execute link options actions) :=
  alike_execute Process.congruence_follows link.alike_recorded options actions

/-! ### One command -/

/-- A call is recorded before anything comes of it. -/
theorem send_calls (start : Nat) :
    (link.recorded.send d command).Leads (Process.OffRecord others)
      (fun _ x => x.2 = log ++ [⟨start, d, command⟩]) (fun _ x => x.2 = log ++ [⟨start, d, command⟩])
      (fun t x => t = start ∧ x.2 = log) (fun _ _ x => x.2 = log ++ [⟨start, d, command⟩]) := by
  apply Process.Leads.bind (Q := fun _ _ x => x.2 = log ++ [⟨start, d, command⟩])
  · refine .step ?_
    rintro now x ⟨rfl, rfl⟩
    rfl
  · intro _
    exact (Process.minds_offRecord (link.send d command)).leads (fun _ _ _ same held => same.trans held)
      fun _ _ changed held => changed.2.trans held

theorem attempt_calls (timeout : Duration) (start : Nat) :
    (attempt link.recorded d command timeout).Leads (Process.OffRecord others)
      (fun _ x => x.2 = log ++ [⟨start, d, resolve d command⟩])
      (fun _ x => x.2 = log ++ [⟨start, d, resolve d command⟩])
      (fun t x => t = start ∧ x.2 = log)
      (fun _ _ x => x.2 = log ++ [⟨start, d, resolve d command⟩]) := by
  refine ((send_calls start).limited timeout).bind fun answer => .pure ?_
  intro t x held
  cases answer <;> exact held

/-- So many calls have been made since, all of them the same. -/
def Repeated (log : List Call) (d : Device) (command : Command) (count : Nat)
    (x : σ × List Call) : Prop :=
  ∃ calls : List Call, x.2 = log ++ calls ∧ calls.length = count ∧
    ∀ call ∈ calls, call.device = d ∧ call.command = command

theorem attempt_repeats (timeout : Duration) (count : Nat) :
    (attempt link.recorded d command timeout).Leads (Process.OffRecord others)
      (fun _ => Repeated log d (resolve d command) (count + 1))
      (fun _ => Repeated log d (resolve d command) (count + 1))
      (fun _ => Repeated log d (resolve d command) count)
      (fun _ _ => Repeated log d (resolve d command) (count + 1)) := by
  -- The calls so far and the instant are known when the attempt begins.
  let Start (i : Nat × List Call) (t : Nat) (x : σ × List Call) : Prop :=
    (t = i.1 ∧ x.2 = log ++ i.2) ∧ i.2.length = count ∧
      ∀ call ∈ i.2, call.device = d ∧ call.command = resolve d command
  have each (i : Nat × List Call) :
      (attempt link.recorded d command timeout).Leads (Process.OffRecord others)
        (fun _ => Repeated log d (resolve d command) (count + 1))
        (fun _ => Repeated log d (resolve d command) (count + 1)) (Start i)
        (fun _ _ => Repeated log d (resolve d command) (count + 1)) := by
    refine .given (fun _ _ begun => begun.2) fun earlier => ?_
    have one (x : σ × List Call) (held : x.2 = log ++ i.2 ++ [⟨i.1, d, resolve d command⟩]) :
        Repeated log d (resolve d command) (count + 1) x := by
      refine ⟨i.2 ++ [⟨i.1, d, resolve d command⟩], held.trans (List.append_assoc _ _ _), ?_, ?_⟩
      · rw [List.length_append, earlier.1, List.length_singleton]
      · rintro call member
        rcases List.mem_append.1 member with before | last
        · exact earlier.2 call before
        · rw [List.mem_singleton.1 last]
          exact ⟨rfl, rfl⟩
    exact (attempt_calls timeout i.1).mono (fun _ _ begun => begun.1) (fun _ => one) (fun _ => one)
      fun _ _ => one
  refine (Process.Leads.any each).pre ?_
  rintro t x ⟨calls, same, length, alike⟩
  exact ⟨(t, calls), ⟨rfl, same⟩, length, alike⟩

/-- A command was tried at least once. -/
def Tried (log : List Call) (d : Device) (command : Command) (x : σ × List Call) : Prop :=
  ∃ count, Repeated log d command (count + 1) x

theorem retrying_repeats (options : ExecutionOptions) (remaining retries : Nat) :
    (retrying options (attempt link.recorded d command options.timeout) remaining retries).Leads
      (Process.OffRecord others) (fun _ => Tried log d (resolve d command))
      (fun _ => Tried log d (resolve d command))
      (fun _ => Repeated log d (resolve d command) retries)
      (fun outcome _ => Repeated log d (resolve d command) (outcome.2 + 1)) := by
  have once (retries : Nat) :
      (attempt link.recorded d command options.timeout).Leads (Process.OffRecord others)
        (fun _ => Tried log d (resolve d command)) (fun _ => Tried log d (resolve d command))
        (fun _ => Repeated log d (resolve d command) retries)
        (fun _ _ => Repeated log d (resolve d command) (retries + 1)) :=
    (attempt_repeats options.timeout retries).mono (fun _ _ begun => begun) (fun _ _ held => ⟨_, held⟩)
      (fun _ _ held => ⟨_, held⟩) fun _ _ _ held => held
  induction remaining generalizing retries with
  | zero =>
    refine (once retries).bind fun answer => ?_
    cases answer with
    | ok => exact .pure fun _ _ held => held
    | error failure => exact .pure fun _ _ held => held
  | succ remaining ih =>
    refine (once retries).bind fun answer => ?_
    cases answer with
    | ok => exact .pure fun _ _ held => held
    | error failure =>
      by_cases passing : failure.isPassing = true
      · simp only [passing]
        -- The wait leaves the record as it is.
        have rests : (Process.sleep (options.backoff (retries + 1)) : Process (σ × List Call) Unit).Leads
            (Process.OffRecord others) (fun _ => Tried log d (resolve d command))
            (fun _ => Tried log d (resolve d command))
            (fun _ => Repeated log d (resolve d command) (retries + 1))
            (fun _ _ => Repeated log d (resolve d command) (retries + 1)) := by
          refine (Process.Leads.sleep _ ?_).mono (fun _ _ begun => begun) (fun _ _ held => held)
            (fun _ _ held => ⟨_, held⟩) fun _ _ _ held => held
          rintro _ _ x y ⟨-, same⟩ ⟨calls, earlier⟩
          exact ⟨calls, same ▸ earlier⟩
        exact rests.bind fun _ => ih (retries + 1)
      · simp only [passing]
        exact .pure fun _ _ held => held

/-! ### One action -/

/-- The command of an action and the device that it is for, as far as both are known. -/
def target? (link : DeviceLink σ) (a : Action) (s : σ) : Option (Device × Command) :=
  match a.command with
  | .error _ => none
  | .ok command => (link.lookup s a.device).map fun d => (d, resolve d command)

/-- The calls that an action makes for its target, if it has one: at least one, and all of them alike. -/
def Serves (calls : List Call) : Option (Device × Command) → Prop
  | none => calls = []
  | some (d, command) => calls ≠ [] ∧ ∀ call ∈ calls, call.device = d ∧ call.command = command

/-- The calls of an action that has come to a result. -/
structure Served (target : Option (Device × Command)) (a : Action) (result : ActionResult)
    (calls : List Call) : Prop where
  device : result.device = a.device
  kind : result.kind = a.kind
  serves : Serves calls target
  count : calls.length = if target.isSome then result.retries + 1 else 0

/-- An action makes the same call again and again, with what was known of its device when it began. -/
theorem pursue_calls (options : ExecutionOptions) (a : Action) (target : Option (Device × Command)) :
    (pursue link.recorded options a).Leads (Process.OffRecord others)
      (fun _ x => ∃ calls, x.2 = log ++ calls ∧ Serves calls target)
      (fun _ x => ∃ calls, x.2 = log ++ calls ∧ Serves calls target)
      (fun _ x => x.2 = log ∧ target? link a x.1 = target)
      (fun outcome _ x => ∃ calls, x.2 = log ++ calls ∧ Serves calls target ∧
        calls.length = if target.isSome then outcome.2 + 1 else 0) := by
  unfold pursue target?
  cases a.command with
  | error fault =>
    refine .pure ?_
    rintro _ x ⟨same, rfl⟩
    exact ⟨[], same.trans (List.append_nil log).symm, rfl, rfl⟩
  | ok command =>
    apply Process.Leads.bind (Q := fun found _ x =>
      x.2 = log ∧ found.map (fun d => (d, resolve d command)) = target)
    · exact .step fun _ _ begun => begun
    intro found
    cases found with
    | none =>
      refine .pure ?_
      rintro _ x ⟨same, rfl⟩
      exact ⟨[], same.trans (List.append_nil log).symm, rfl, rfl⟩
    | some d =>
      refine .given (fun _ _ begun => begun.2) fun known => ?_
      obtain rfl := known
      have serves {x : σ × List Call} {count : Nat}
          (repeated : Repeated log d (resolve d command) (count + 1) x) :
          ∃ calls, x.2 = log ++ calls ∧ Serves calls (some (d, resolve d command)) ∧
            calls.length = count + 1 := by
        obtain ⟨calls, same, length, alike⟩ := repeated
        exact ⟨calls, same, ⟨List.ne_nil_of_length_eq_add_one length, alike⟩, length⟩
      have tried (x : σ × List Call) (tried : Tried log d (resolve d command) x) :
          ∃ calls, x.2 = log ++ calls ∧ Serves calls (some (d, resolve d command)) := by
        obtain ⟨_, repeated⟩ := tried
        obtain ⟨calls, same, served, -⟩ := serves repeated
        exact ⟨calls, same, served⟩
      refine (retrying_repeats options options.maxRetries 0).mono ?_ (fun _ => tried) (fun _ => tried)
        fun outcome _ x => serves
      rintro _ x ⟨same, -⟩
      exact ⟨[], same.trans (List.append_nil log).symm, rfl, List.forall_mem_nil _⟩

theorem executeOne_calls (options : ExecutionOptions) (a : Action)
    (target : Option (Device × Command)) :
    (executeOne link.recorded options a).Leads (Process.OffRecord others)
      (fun _ x => ∃ calls, x.2 = log ++ calls ∧ Serves calls target)
      (fun _ x => ∃ calls, x.2 = log ++ calls ∧ Serves calls target)
      (fun _ x => x.2 = log ∧ target? link a x.1 = target)
      (fun result _ x => ∃ calls, x.2 = log ++ calls ∧ Served target a result calls) := by
  rw [executeOne_eq]
  refine Process.Leads.now.bind fun start => (pursue_calls options a target).bind fun outcome => ?_
  refine Process.Leads.now.bind fun finish => .pure ?_
  rintro _ x ⟨calls, same, served, count⟩
  exact ⟨calls, same, rfl, rfl, served, count⟩

/-- However far an action has come, it has made one and the same call. -/
theorem serves_of_reaches {options : ExecutionOptions} {a : Action} {now t : Nat} {s s' : σ}
    {q : Process (σ × List Call) ActionResult} {log' : List Call}
    (course : (executeOne link.recorded options a).Reaches (Process.OffRecord others) now (s, log) q t
      (s', log')) :
    ∃ calls, log' = log ++ calls ∧ Serves calls (target? link a s) := by
  have ended (result : ActionResult) (_ : Nat) (x : σ × List Call) :
      (∃ calls, x.2 = log ++ calls ∧ Served (target? link a s) a result calls) →
      ∃ calls, x.2 = log ++ calls ∧ Serves calls (target? link a s) :=
    fun ⟨calls, same, served⟩ => ⟨calls, same, served.serves⟩
  exact ((executeOne_calls options a (target? link a s)).mono (fun _ _ => id) (fun _ _ => id)
    (fun _ _ => id) ended).always ⟨rfl, rfl⟩ course

end Batch

end Hearth

import Hearth.Proofs.Execution.Stages

/-!
# Hearth.Proofs.Execution.Parametric

Two batches over two links are alike if the links are, in whatever way processes may be alike.

## Main definitions

- `Process.Congruence`: a relation between processes that carries over to what is made of them.
- `DeviceLink.Alike`: what two links do is related.

## Main result

`Batch.alike_execute`: what two batches do over links that are alike is related, too.
-/

namespace Hearth

variable {σ σ' : Type}

/-- Processes that are made in the same way of related processes are related. -/
structure Process.Congruence (R : (α : Type) → Process σ' α → Process σ α → Prop) : Prop where
  pure : ∀ {α : Type} (a : α), R α (pure a) (pure a)
  bind : ∀ {α β : Type} {p' : Process σ' α} {p : Process σ α} {k' : α → Process σ' β}
    {k : α → Process σ β}, R α p' p → (∀ a, R β (k' a) (k a)) → R β (p' >>= k') (p >>= k)
  now : R Nat .now .now
  sleep : ∀ d, R Unit (.sleep d) (.sleep d)
  limited : ∀ {α : Type} (d : Duration) {p' : Process σ' α} {p : Process σ α}, R α p' p →
    R (Option α) (.limited d p') (.limited d p)
  rescue : ∀ {α : Type} {p' : Process σ' α} {p : Process σ α}, R α p' p →
    R (Except Crash α) (.rescue p') (.rescue p)
  both : ∀ {α β : Type} {left' : Process σ' α} {left : Process σ α} {right' : Process σ' β}
    {right : Process σ β}, R α left' left → R β right' right →
    R (α × β) (.both left' right' fun a b => .done (a, b)) (.both left right fun a b => .done (a, b))

variable {R : (α : Type) → Process σ' α → Process σ α → Prop}

theorem Process.Congruence.together {α ι : Type} (congruence : Congruence R)
    {f' : ι → Process σ' α} {f : ι → Process σ α} (each : ∀ i, R α (f' i) (f i)) (is : List ι) :
    R (List α) (together (is.map f')) (together (is.map f)) := by
  induction is with
  | nil => exact congruence.pure []
  | cons i rest ih =>
    exact congruence.bind (k := fun x => Pure.pure (x.1 :: x.2)) (congruence.both (each i) ih)
      fun x => congruence.pure (x.1 :: x.2)

/-- Looking up a device and sending a command are related in two links. -/
structure DeviceLink.Alike (R : (α : Type) → Process σ' α → Process σ α → Prop)
    (link' : DeviceLink σ') (link : DeviceLink σ) : Prop where
  lookup : ∀ id, R (Option Device) (.view fun s => link'.lookup s id) (.view fun s => link.lookup s id)
  send : ∀ d command, R _ (link'.send d command) (link.send d command)

namespace Batch

variable {link' : DeviceLink σ'} {link : DeviceLink σ}

theorem alike_attempt (congruence : Process.Congruence R) (alike : link'.Alike R link) (d : Device)
    (command : Command) (timeout : Duration) :
    R _ (attempt link' d command timeout) (attempt link d command timeout) :=
  congruence.bind (congruence.limited timeout (alike.send d _)) fun _ => congruence.pure _

theorem alike_retrying (congruence : Process.Congruence R) (options : ExecutionOptions)
    {attempt' : Process σ' (Except Failure Unit)} {attempt : Process σ (Except Failure Unit)}
    (once : R _ attempt' attempt) (remaining retries : Nat) :
    R _ (retrying options attempt' remaining retries) (retrying options attempt remaining retries) := by
  induction remaining generalizing retries with
  | zero =>
    refine congruence.bind once fun answer => ?_
    cases answer with
    | ok _ => exact congruence.pure _
    | error failure => exact congruence.pure _
  | succ remaining ih =>
    refine congruence.bind once fun answer => ?_
    cases answer with
    | ok _ => exact congruence.pure _
    | error failure =>
      dsimp only
      split
      · exact congruence.bind (congruence.sleep _) fun _ => ih _
      · exact congruence.pure _

theorem alike_pursue (congruence : Process.Congruence R) (alike : link'.Alike R link)
    (options : ExecutionOptions) (a : Action) :
    R _ (pursue link' options a) (pursue link options a) := by
  unfold pursue
  split
  · exact congruence.pure _
  · refine congruence.bind (alike.lookup _) fun found => ?_
    cases found with
    | none => exact congruence.pure _
    | some d =>
      exact alike_retrying congruence options (alike_attempt congruence alike d _ _) _ 0

theorem alike_executeOne (congruence : Process.Congruence R) (alike : link'.Alike R link)
    (options : ExecutionOptions) (a : Action) :
    R _ (executeOne link' options a) (executeOne link options a) := by
  rw [executeOne_eq, executeOne_eq]
  exact congruence.bind congruence.now fun _ =>
    congruence.bind (alike_pursue congruence alike options a) fun _ =>
      congruence.bind congruence.now fun _ => congruence.pure _

theorem alike_executeInOrder (congruence : Process.Congruence R) (alike : link'.Alike R link)
    (options : ExecutionOptions) (throughout : Bool) (actions : List Action) :
    R _ (executeInOrder link' options throughout actions)
      (executeInOrder link options throughout actions) := by
  induction actions with
  | nil => exact congruence.pure _
  | cons a rest ih =>
    refine congruence.bind (alike_executeOne congruence alike options a) fun result => ?_
    split
    · exact congruence.bind ih fun _ => congruence.pure _
    · exact congruence.pure _

theorem alike_undoOne (congruence : Process.Congruence R) (alike : link'.Alike R link)
    (options : ExecutionOptions) (a : Action) (success : Bool) :
    R _ (undoOne link' options a success) (undoOne link options a success) := by
  unfold undoOne
  split
  · exact congruence.pure _
  · refine congruence.bind (alike.lookup _) fun found => ?_
    cases found with
    | none => exact congruence.pure _
    | some d =>
      exact congruence.bind (alike_attempt congruence alike d _ _) fun _ => congruence.pure _

theorem alike_undo (congruence : Process.Congruence R) (alike : link'.Alike R link)
    (options : ExecutionOptions) (carried : List (Action × ActionResult)) :
    R _ (undo link' options carried) (undo link options carried) := by
  induction carried with
  | nil => exact congruence.pure _
  | cons first rest ih =>
    obtain ⟨a, result⟩ := first
    rw [undo_cons, undo_cons]
    exact congruence.bind (alike_undoOne congruence alike options a result.success) fun _ =>
      congruence.bind ih fun _ => congruence.pure _

theorem alike_carryOut (congruence : Process.Congruence R) (alike : link'.Alike R link)
    (options : ExecutionOptions) (actions : List Action) :
    R _ (carryOut link' options actions) (carryOut link options actions) := by
  unfold carryOut
  split
  · exact congruence.together (alike_executeOne congruence alike options) actions
  · exact alike_executeInOrder congruence alike options _ actions

theorem alike_takeBack (congruence : Process.Congruence R) (alike : link'.Alike R link)
    (options : ExecutionOptions) (actions : List Action) (results : List ActionResult) :
    R _ (takeBack link' options actions results) (takeBack link options actions results) := by
  unfold takeBack
  split
  · exact alike_undo congruence alike options _
  · exact congruence.pure _

theorem alike_orchestrate (congruence : Process.Congruence R) (alike : link'.Alike R link)
    (options : ExecutionOptions) (actions : List Action) :
    R _ (orchestrate link' options actions) (orchestrate link options actions) := by
  rw [orchestrate_eq, orchestrate_eq]
  exact congruence.bind (alike_carryOut congruence alike options actions) fun results =>
    congruence.bind (alike_takeBack congruence alike options actions results) fun _ =>
      congruence.pure _

/-- A batch does over its link what it does over any other that is like it. -/
theorem alike_execute (congruence : Process.Congruence R) (alike : link'.Alike R link)
    (options : ExecutionOptions) (actions : List Action) :
    R _ (execute link' options actions) (execute link options actions) := by
  refine congruence.bind congruence.now fun start => ?_
  refine congruence.bind (congruence.rescue (alike_orchestrate congruence alike options actions))
    fun outcome => congruence.bind congruence.now fun finish => ?_
  cases outcome with
  | ok results => exact congruence.pure _
  | error cause => exact congruence.pure _

theorem alike_run (congruence : Process.Congruence R) (alike : link'.Alike R link)
    (options : ExecutionOptions) (actions : List Action) :
    R _ (run link' options actions) (run link options actions) := by
  refine congruence.bind (alike_execute congruence alike options actions) fun result => ?_
  split
  · exact congruence.pure _
  · exact congruence.pure _

end Batch

end Hearth

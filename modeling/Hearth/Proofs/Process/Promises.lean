import Hearth.Proofs.Process.Course
import Mathlib.Data.List.Forall2

/-!
# Hearth.Proofs.Process.Promises

What can be said of a process whatever course it takes.

## Main definitions

- `Process.Answers`: what a process answers if it ends, whatever others do.
- `Process.Leads`: begun at an instant and in a state of which `P` holds, a process stops where `C`
  holds if it crashes, where `W` holds if it waits, and where `Q` holds of its answer if it ends.
- `Process.Ensures`: the same without instants, of a process that never crashes.

## Main results

- `Process.Answers.together`: what processes answer side by side.
- `Process.Leads.bind` and `Process.Ensures.bind`: what one process after the other leads to.
-/

namespace Hearth.Process

variable {σ α β : Type}

/-! ### What a process answers -/

/-- Whatever others do to the state, a process that ends answers a value of which `Q` holds. -/
structure Answers (p : Process σ α) (Q : α → Prop) : Prop where
  answer : ∀ {others : σ → σ → Prop} {now s a t s'}, Reaches others p now s (.done a) t s' → Q a

section

variable {Q : α → Prop} {R : β → Prop}

theorem Answers.any (p : Process σ α) : p.Answers fun _ => True := ⟨fun _ => trivial⟩

theorem Answers.pure {a : α} (holds : Q a) : (Pure.pure a : Process σ α).Answers Q := by
  constructor
  intro others now s b t s' course
  obtain ⟨rfl, -⟩ := course.of_pure
  exact holds

theorem Answers.bind {p : Process σ α} {k : α → Process σ β} (first : p.Answers Q)
    (rest : ∀ a, Q a → (k a).Answers R) : (p >>= k).Answers R := by
  constructor
  intro others now s b t s' course
  obtain ⟨a, _, _, finished, course⟩ := course.of_bind_done
  exact (rest a (first.answer finished)).answer course

/-- What is answered side by side. -/
theorem Answers.both {left : Process σ α} {right : Process σ β} (first : left.Answers Q)
    (second : right.Answers R) :
    (Process.both left right fun a b => .done (a, b)).Answers fun x => Q x.1 ∧ R x.2 := by
  constructor
  intro others now s a t s' course
  rcases course.of_both with ⟨cause, crashed⟩ | ⟨s₀, left', right', ended, first', second'⟩
  · cases crashed
  · obtain ⟨rfl, rfl⟩ := joined_eq_done ended.symm
    obtain ⟨_, _, _, first'⟩ := first'
    obtain ⟨_, _, _, second'⟩ := second'
    exact ⟨first.answer first', second.answer second'⟩

/-- Processes side by side answer as many values as there are processes, in order. -/
theorem Answers.together {ι : Type} {is : List ι} {f : ι → Process σ α} {Q : ι → α → Prop}
    (each : ∀ i ∈ is, (f i).Answers (Q i)) :
    (Process.together (is.map f)).Answers fun as => List.Forall₂ Q is as := by
  induction is with
  | nil => exact .pure .nil
  | cons i rest ih =>
    obtain ⟨first, others⟩ := List.forall_mem_cons.1 each
    have collected (x : α × List α) (holds : Q i x.1 ∧ List.Forall₂ Q rest x.2) :
        (Pure.pure (x.1 :: x.2) : Process σ (List α)).Answers fun as => List.Forall₂ Q (i :: rest) as :=
      .pure (.cons holds.1 holds.2)
    exact (first.both (ih others)).bind collected

end

/-! ### What a process leads to -/

variable {others : σ → σ → Prop}

/-- What holds at the instant and in the state in which a process stops: `C` if it has crashed, `Q` if it
is done, `W` if it waits. -/
def Stops (C W : Nat → σ → Prop) (Q : α → Nat → σ → Prop) : Process σ α → Nat → σ → Prop
  | .done a => Q a
  | .crash _ => C
  | _ => W

structure Leads (others : σ → σ → Prop) (C W P : Nat → σ → Prop) (p : Process σ α)
    (Q : α → Nat → σ → Prop) : Prop where
  stops : ∀ {now s}, P now s → ∀ {q t s'}, Reaches others p now s q t s' → Stops C W Q q t s'

section

variable {C W P : Nat → σ → Prop} {Q : α → Nat → σ → Prop} {R : β → Nat → σ → Prop}

/-- Weaker promises follow from stronger ones. -/
theorem Leads.mono {p : Process σ α} {C' W' P' : Nat → σ → Prop} {Q' : α → Nat → σ → Prop}
    (leads : p.Leads others C W P Q) (begun : ∀ t s, P' t s → P t s) (crashed : ∀ t s, C t s → C' t s)
    (kept : ∀ t s, W t s → W' t s) (ended : ∀ a t s, Q a t s → Q' a t s) :
    p.Leads others C' W' P' Q' := by
  constructor
  intro now s holds q t s' course
  have stops := leads.stops (begun now s holds) course
  cases q
  case done a => exact ended a t s' stops
  case crash cause => exact crashed t s' stops
  all_goals exact kept t s' stops

theorem Leads.pre {p : Process σ α} {P' : Nat → σ → Prop} (leads : p.Leads others C W P Q)
    (begun : ∀ t s, P' t s → P t s) : p.Leads others C W P' Q :=
  leads.mono begun (fun _ _ => id) (fun _ _ => id) fun _ _ _ => id

/-- A fact that the state at the beginning tells can be made use of. -/
theorem Leads.given {p : Process σ α} {fact : Prop} (told : ∀ t s, P t s → fact)
    (leads : fact → p.Leads others C W P Q) : p.Leads others C W P Q :=
  ⟨fun begun => (leads (told _ _ begun)).stops begun⟩

/-- Whatever can be chosen at the beginning, the promise is met. -/
theorem Leads.any {ι : Type} {p : Process σ α} {P : ι → Nat → σ → Prop}
    (each : ∀ i, p.Leads others C W (P i) Q) : p.Leads others C W (fun t s => ∃ i, P i t s) Q :=
  ⟨fun ⟨i, begun⟩ => (each i).stops begun⟩

/-- What is led to in any case holds wherever the process stops. -/
theorem Leads.always {p : Process σ α} (leads : p.Leads others W W P fun _ => W) {now t : Nat}
    {s s' : σ} {q : Process σ α} (begun : P now s) (course : p.Reaches others now s q t s') :
    W t s' := by
  have stops := leads.stops begun course
  cases q <;> exact stops

theorem Leads.bind {p : Process σ α} {k : α → Process σ β} (first : p.Leads others C W P Q)
    (rest : ∀ a, (k a).Leads others C W (Q a) R) : (p >>= k).Leads others C W P R := by
  constructor
  intro now s begun q t s' course
  rcases Reaches.of_bind course with ⟨p', early, unfinished, rfl⟩ | ⟨a, t₁, s₁, finished, late⟩
  · -- On its first part, the sequence stops where that part stops.
    have stops := first.stops begun early
    cases p'
    case done a => exact absurd rfl (unfinished a)
    all_goals exact stops
  · -- Nobody comes in between: the rest begins in the state in which the first part has ended.
    exact (rest a).stops (first.stops begun finished) late

theorem Leads.pure {a : α} (holds : ∀ t s, P t s → Q a t s) :
    (Pure.pure a : Process σ α).Leads others C W P Q := by
  constructor
  intro now s begun q t s' course
  obtain ⟨rfl, rfl⟩ := course.eq_first rfl
  obtain rfl := course.now_eq_first rfl
  exact holds _ s' begun

theorem Leads.step {f : Nat → σ → α × σ} (holds : ∀ now s, P now s → Q (f now s).1 now (f now s).2) :
    (Process.step f).Leads others C W P Q := by
  constructor
  intro now s begun q t s' course
  obtain ⟨rfl, rfl⟩ := course.eq_first rfl
  obtain rfl := course.now_eq_first rfl
  exact holds _ s begun

theorem Leads.now : (Process.now : Process σ Nat).Leads others C W P fun _ => P :=
  .step fun _ _ begun => begun

/-- A wait goes on until its instant. What nobody else changes is as it was. -/
theorem Leads.waitUntil_timed {instant : Nat} (kept : ∀ t t' s s', others s s' → P t s → P t' s') :
    (Process.waitUntil instant .done).Leads others C (fun t s => t < instant ∧ P t s) P
      fun _ t s => instant ≤ t ∧ P t s := by
  constructor
  intro now s begun q t s' course
  have still : q = waited instant t ∧ P t s' := by
    induction course with
    | first =>
      rw [poll_waitUntil]
      exact ⟨rfl, begun⟩
    | again _ waits _ changed ih =>
      obtain ⟨rfl, holds⟩ := ih
      rw [waited_eq waits, poll_waitUntil]
      exact ⟨rfl, kept _ _ _ _ changed holds⟩
  obtain ⟨rfl, holds⟩ := still
  unfold waited
  split
  · next late => exact ⟨late, holds⟩
  · next early => exact ⟨Nat.lt_of_not_le early, holds⟩

theorem Leads.waitUntil {instant : Nat} (kept : ∀ t t' s s', others s s' → P t s → P t' s') :
    (Process.waitUntil instant .done).Leads others C P P fun _ => P :=
  (Leads.waitUntil_timed kept).mono (fun _ _ => id) (fun _ _ => id) (fun _ _ held => held.2)
    fun _ _ _ held => held.2

theorem Leads.sleep (d : Duration) (kept : ∀ t t' s s', others s s' → P t s → P t' s') :
    (Process.sleep d).Leads others C P P fun _ => P :=
  Leads.now.bind fun _ => .waitUntil kept

/-- Where a process is dropped, its time is up, and the state is as that process leaves it when it
waits. -/
theorem Leads.within {body : Process σ α} (instant : Nat) (inside : body.Leads others C W P Q) :
    (Process.within instant body .done).Leads others C W P fun answer t s =>
      match answer with
      | some a => Q a t s
      | none => instant ≤ t ∧ W t s := by
  constructor
  intro now s begun q t s' course
  obtain ⟨body', inner, rfl⟩ := course.of_within
  have stops := inside.stops begun inner
  cases body'
  case done a => exact stops
  case crash cause => exact stops
  all_goals
    -- At its deadline the body has been carried on once more, and waits.
    simp only [raced]
    split
    · next late => exact ⟨late, stops⟩
    · exact stops

theorem Leads.limited {body : Process σ α} (d : Duration) (inside : body.Leads others C W P Q) :
    (Process.limited d body).Leads others C W P fun answer t s =>
      match answer with
      | some a => Q a t s
      | none => W t s := by
  refine Leads.now.bind fun start => (inside.within _).mono (fun _ _ => id) (fun _ _ => id)
    (fun _ _ => id) fun answer _ _ ended => ?_
  cases answer with
  | some a => exact ended
  | none => exact ended.2

/-- Beside a process that is over, another one does what it does alone. -/
theorem Leads.both_done {p : Process σ α} {b : β} (leads : p.Leads others C W P Q) :
    (Process.both p (.done b) fun a b => .done (a, b)).Leads others C W P fun x t s =>
      Q x.1 t s ∧ x.2 = b := by
  constructor
  intro now s begun q t s' course
  obtain ⟨left, inner, rfl⟩ := course.of_both_done
  have stops := leads.stops begun inner
  cases left
  case done a => exact ⟨stops, rfl⟩
  all_goals exact stops

/-- A crash that is caught is an answer. -/
theorem Leads.rescue {body : Process σ α} (inside : body.Leads others C W P Q) {C' : Nat → σ → Prop} :
    (Process.rescue body).Leads others C' W P fun outcome t s =>
      match outcome with
      | .ok a => Q a t s
      | .error _ => C t s := by
  constructor
  intro now s begun q t s' course
  obtain ⟨body', inner, rfl⟩ := course.of_guarded
  have stops := inside.stops begun inner
  cases body'
  all_goals exact stops

end

/-! ### What a process ensures -/

/-- Whether a process that has got this far meets its promises. -/
def Stands (W : σ → Prop) (Q : α → σ → Prop) : Process σ α → σ → Prop
  | .done a => Q a
  | .crash _ => fun _ => False
  | _ => W

structure Ensures (others : σ → σ → Prop) (W P : σ → Prop) (p : Process σ α) (Q : α → σ → Prop) :
    Prop where
  stands : ∀ {now s}, P s → ∀ {q t s'}, Reaches others p now s q t s' → Stands W Q q s'

variable {W P : σ → Prop} {Q : α → σ → Prop} {R : β → σ → Prop}

/-- To ensure something is to lead to it at every instant, and never to crash. -/
theorem ensures_iff {p : Process σ α} :
    p.Ensures others W P Q ↔
      p.Leads others (fun _ _ => False) (fun _ => W) (fun _ => P) fun a _ => Q a := by
  have same (q : Process σ α) (t : Nat) (s : σ) :
      Stands W Q q s ↔ Stops (fun _ _ => False) (fun _ => W) (fun a _ => Q a) q t s := by
    cases q <;> rfl
  constructor
  · exact fun ensures => ⟨fun begun _ _ _ course => (same _ _ _).1 (ensures.stands begun course)⟩
  · exact fun leads => ⟨fun begun _ _ _ course => (same _ _ _).2 (leads.stops begun course)⟩

/-- Weaker promises follow from stronger ones. -/
theorem Ensures.mono {p : Process σ α} {W' P' : σ → Prop} {Q' : α → σ → Prop}
    (ensures : p.Ensures others W P Q) (begun : ∀ s, P' s → P s) (kept : ∀ s, W s → W' s)
    (ended : ∀ a s, Q a s → Q' a s) : p.Ensures others W' P' Q' :=
  ensures_iff.2 ((ensures_iff.1 ensures).mono (fun _ => begun) (fun _ _ => id) (fun _ => kept)
    fun a _ => ended a)

/-- A fact that the state at the beginning tells can be made use of. -/
theorem Ensures.given {p : Process σ α} {fact : Prop} (told : ∀ s, P s → fact)
    (ensures : fact → p.Ensures others W P Q) : p.Ensures others W P Q :=
  ⟨fun begun => (ensures (told _ begun)).stands begun⟩

theorem Ensures.pre {p : Process σ α} {P' : σ → Prop} (ensures : p.Ensures others W P Q)
    (begun : ∀ s, P' s → P s) : p.Ensures others W P' Q :=
  ensures.mono begun (fun _ kept => kept) fun _ _ ended => ended

theorem Ensures.forget {p : Process σ α} (ensures : p.Ensures others W P Q) :
    p.Ensures others (fun _ => True) P Q :=
  ensures.mono (fun _ begun => begun) (fun _ _ => trivial) fun _ _ ended => ended

theorem Ensures.bind {p : Process σ α} {k : α → Process σ β} (first : p.Ensures others W P Q)
    (rest : ∀ a, (k a).Ensures others W (Q a) R) : (p >>= k).Ensures others W P R :=
  ensures_iff.2 ((ensures_iff.1 first).bind fun a => ensures_iff.1 (rest a))

theorem Ensures.pure {a : α} (holds : ∀ s, P s → Q a s) :
    (Pure.pure a : Process σ α).Ensures others W P Q :=
  ensures_iff.2 (.pure fun _ => holds)

theorem Ensures.step {f : Nat → σ → α × σ} (holds : ∀ now s, P s → Q (f now s).1 (f now s).2) :
    (Process.step f).Ensures others W P Q :=
  ensures_iff.2 (.step holds)

theorem Ensures.now : (Process.now : Process σ Nat).Ensures others W P fun _ => P :=
  ensures_iff.2 .now

theorem Ensures.view {f : σ → α} :
    (Process.view f).Ensures others W P fun a s => P s ∧ a = f s :=
  .step fun _ _ begun => ⟨begun, rfl⟩

/-- What nobody else changes is as it was after a wait. -/
theorem Ensures.sleep (d : Duration) (kept : ∀ s s', others s s' → P s → P s') :
    (Process.sleep d).Ensures others P P fun _ => P :=
  ensures_iff.2 (.sleep d fun _ _ => kept)

/-- Where a process is dropped, the state is as that process leaves it when it waits. -/
theorem Ensures.limited {body : Process σ α} (d : Duration) (inside : body.Ensures others W P Q) :
    (Process.limited d body).Ensures others W P fun answer s =>
      match answer with
      | some a => Q a s
      | none => W s :=
  ensures_iff.2 (((ensures_iff.1 inside).limited d).mono (fun _ _ => id) (fun _ _ => id)
    (fun _ _ => id) fun answer _ _ ended => by cases answer <;> exact ended)

/-- Nothing is to be caught of a process that never crashes. -/
theorem Ensures.rescue {body : Process σ α} (inside : body.Ensures others W P Q) :
    (Process.rescue body).Ensures others W P fun outcome s => ∃ a, outcome = .ok a ∧ Q a s := by
  refine ensures_iff.2 ((ensures_iff.1 inside).rescue.mono (fun _ _ => id) (fun _ _ => id)
    (fun _ _ => id) fun outcome _ _ ended => ?_)
  cases outcome with
  | ok a => exact ⟨a, rfl, ended⟩
  | error cause => exact ended.elim

end Hearth.Process

import Mathlib.Logic.Relation
import Hearth.Process.Basic

/-!
# Hearth.Proofs.Process.Conduct

Processes that change the state in permitted ways only, however long they take.

## Main definition

`Process.Minds`: whatever a process does to the state is permitted, and so is whatever the processes
do that it starts.

## Main result

`Process.Minds.poll`: a process that is carried on makes permitted changes, one after another, and what
is left of it still minds what is permitted.
-/

namespace Hearth.Process

variable {σ α β γ : Type}

/-- Whatever the process does to the state at an instant is permitted then. -/
def Minds {α : Type} (permitted : Nat → σ → σ → Prop) (p : Process σ α) : Prop :=
  match p with
  | .done _ => True
  | .crash _ => True
  | .act step next => (∀ now s, permitted now s (step now s).2) ∧ ∀ b, (next b).Minds permitted
  | .waitUntil _ next => ∀ u, (next u).Minds permitted
  | .within _ body next => body.Minds permitted ∧ ∀ b, (next b).Minds permitted
  | .guarded body next => body.Minds permitted ∧ ∀ b, (next b).Minds permitted
  | .both left right next =>
    left.Minds permitted ∧ right.Minds permitted ∧ ∀ b c, (next b c).Minds permitted
  | .fork child next => child.Minds permitted ∧ ∀ u, (next u).Minds permitted

variable {permitted : Nat → σ → σ → Prop}

theorem Minds.bind {p : Process σ α} {k : α → Process σ β} (first : p.Minds permitted)
    (rest : ∀ a, (k a).Minds permitted) : (p >>= k).Minds permitted := by
  rw [bind_eq]
  induction p with
  | done a => exact rest a
  | crash cause => exact trivial
  | act step next ih => exact ⟨first.1, fun b => ih b (first.2 b) rest⟩
  | waitUntil instant next ih => exact fun u => ih u (first u) rest
  | within instant body next _ ih => exact ⟨first.1, fun b => ih b (first.2 b) rest⟩
  | guarded body next _ ih => exact ⟨first.1, fun b => ih b (first.2 b) rest⟩
  | both left right next _ _ ih => exact ⟨first.1, first.2.1, fun b c => ih b c (first.2.2 b c) rest⟩
  | fork child next _ ih => exact ⟨first.1, fun u => ih u (first.2 u) rest⟩

theorem Minds.pure (a : α) : (Pure.pure a : Process σ α).Minds permitted := trivial

theorem Minds.change {f : Nat → σ → σ} (minds : ∀ now s, permitted now s (f now s)) :
    (Process.change f).Minds permitted :=
  ⟨minds, fun _ => trivial⟩

theorem Minds.step {f : Nat → σ → α × σ} (minds : ∀ now s, permitted now s (f now s).2) :
    (Process.step f).Minds permitted :=
  ⟨minds, fun _ => trivial⟩

theorem Minds.view (still : ∀ now s, permitted now s s) (f : σ → α) :
    (Process.view f).Minds permitted :=
  ⟨still, fun _ => trivial⟩

theorem Minds.now (still : ∀ now s, permitted now s s) :
    (Process.now : Process σ Nat).Minds permitted :=
  ⟨still, fun _ => trivial⟩

theorem Minds.sleep (still : ∀ now s, permitted now s s) (d : Duration) :
    (Process.sleep d : Process σ Unit).Minds permitted :=
  (Minds.now still).bind fun _ _ => trivial

theorem Minds.limited (still : ∀ now s, permitted now s s) (d : Duration) {body : Process σ α}
    (minds : body.Minds permitted) : (Process.limited d body).Minds permitted :=
  (Minds.now still).bind fun _ => ⟨minds, fun _ => trivial⟩

theorem Minds.rescue {body : Process σ α} (minds : body.Minds permitted) :
    (Process.rescue body).Minds permitted :=
  ⟨minds, fun _ => trivial⟩

theorem Minds.mono {p : Process σ α} {more : Nat → σ → σ → Prop} (minds : p.Minds permitted)
    (weaker : ∀ now s s', permitted now s s' → more now s s') : p.Minds more := by
  induction p with
  | done a => exact trivial
  | crash cause => exact trivial
  | act step next ih => exact ⟨fun now s => weaker _ _ _ (minds.1 now s), fun b => ih b (minds.2 b)⟩
  | waitUntil instant next ih => exact fun u => ih u (minds u)
  | within instant body next ihBody ih => exact ⟨ihBody minds.1, fun b => ih b (minds.2 b)⟩
  | guarded body next ihBody ih => exact ⟨ihBody minds.1, fun b => ih b (minds.2 b)⟩
  | both left right next ihLeft ihRight ih =>
    exact ⟨ihLeft minds.1, ihRight minds.2.1, fun b c => ih b c (minds.2.2 b c)⟩
  | fork child next ihChild ih => exact ⟨ihChild minds.1, fun u => ih u (minds.2 u)⟩

/-- How a process has got on that minds what is permitted. -/
structure Progress.Minded (permitted : Nat → σ → σ → Prop) (now : Nat) (s : σ)
    (r : Progress σ α) : Prop where
  changed : Relation.ReflTransGen (permitted now) s r.state
  left : r.left.Minds permitted
  started : ∀ child ∈ r.started, child.Minds permitted

theorem Progress.Minded.after {now : Nat} {s s' : σ} {r : Progress σ α}
    (minded : r.Minded permitted now s') (changed : Relation.ReflTransGen (permitted now) s s')
    {earlier : List (Process σ Unit)} (started : ∀ child ∈ earlier, child.Minds permitted) :
    (r.after earlier).Minded permitted now s := by
  refine ⟨changed.trans minded.changed, minded.left, ?_⟩
  intro child member
  rcases List.mem_append.1 member with before | later
  · exact started child before
  · exact minded.started child later

theorem Minds.poll {p : Process σ α} (minds : p.Minds permitted) (now : Nat) (s : σ) :
    (p.poll now s).Minded permitted now s := by
  induction p generalizing s with
  | done a => exact ⟨.refl, trivial, by simp [Process.poll]⟩
  | crash cause => exact ⟨.refl, trivial, by simp [Process.poll]⟩
  | act step next ih =>
    rw [Process.poll]
    have later := ih (step now s).1 (minds.2 _) (step now s).2
    exact { later with changed := .head (minds.1 now s) later.changed }
  | waitUntil instant next ih =>
    rw [Process.poll]
    split
    · exact ih () (minds ()) s
    · exact ⟨.refl, minds, by simp⟩
  | within instant body next ihBody ih =>
    have inner := ihBody minds.1 s
    rw [Process.poll]
    split
    · exact (ih _ (minds.2 _) _).after inner.changed inner.started
    · exact ⟨inner.changed, trivial, inner.started⟩
    · -- A body that has to wait is dropped if its time is up; what it has done so far stays done.
      split
      · exact (ih _ (minds.2 _) _).after inner.changed inner.started
      · exact ⟨inner.changed, ⟨inner.left, minds.2⟩, inner.started⟩
  | guarded body next ihBody ih =>
    have inner := ihBody minds.1 s
    rw [Process.poll]
    split
    · exact (ih _ (minds.2 _) _).after inner.changed inner.started
    · exact (ih _ (minds.2 _) _).after inner.changed inner.started
    · exact ⟨inner.changed, ⟨inner.left, minds.2⟩, inner.started⟩
  | both left right next ihLeft ihRight ih =>
    -- The right side begins in the state that the left one has left behind.
    have first := ihLeft minds.1 s
    have second := (ihRight minds.2.1 (left.poll now s).state).after first.changed first.started
    rw [Process.poll]
    dsimp only
    split
    · exact ⟨first.changed, trivial, first.started⟩
    · split
      · exact ⟨second.changed, trivial, second.started⟩
      · exact (ih _ _ (minds.2.2 _ _) _).after second.changed second.started
      · exact ⟨second.changed, ⟨first.left, second.left, minds.2.2⟩, second.started⟩
  | fork child next _ ih =>
    rw [Process.poll]
    refine (ih () (minds.2 ()) s).after .refl ?_
    intro started member
    rw [List.mem_singleton] at member
    exact member ▸ minds.1

end Hearth.Process

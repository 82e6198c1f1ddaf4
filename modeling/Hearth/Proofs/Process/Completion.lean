import Hearth.Process.Basic

/-!
# Hearth.Proofs.Process.Completion

Processes that come to an end with an answer, whatever goes on around them.

## Main definitions

`Process.Ends p Q`: however `p` is carried on from one of its deadlines to the next, and whatever
the others do to the shared state in between, `p` comes to an end, does not crash, and answers a value
of which `Q` holds.

## Main result

`Process.Ends.bind`: processes that end, one after the other, end.
-/

namespace Hearth.Process

variable {σ α β : Type}

/-! ### Carrying on a sequence -/

/-- How a sequence gets on, `r'`, where its first part alone gets as far as `r`: on with the rest of it
if that part is done, and no further otherwise. -/
inductive Progress.Continues (k : α → Process σ β) (now : Nat) (r : Progress σ α)
    (r' : Progress σ β) : Prop
  | on {a : α} (ended : r.left = .done a) (same : r' = ((k a).poll now r.state).after r.started)
  | short (more : ∀ a, r.left ≠ .done a) (same : r' = ⟨r.left.bind k, r.state, r.started⟩)

theorem Progress.Continues.after {k : α → Process σ β} {now : Nat} {r : Progress σ α}
    {r' : Progress σ β} (continues : Continues k now r r') (earlier : List (Process σ Unit)) :
    Continues k now (r.after earlier) (r'.after earlier) := by
  cases continues with
  | @on a ended same =>
    refine .on ended ?_
    rw [same]
    simp only [Progress.after, List.append_assoc]
  | short more same =>
    refine .short more ?_
    rw [same]
    rfl

theorem poll_bind (p : Process σ α) (k : α → Process σ β) (now : Nat) (s : σ) :
    Progress.Continues k now (p.poll now s) ((p.bind k).poll now s) := by
  induction p generalizing s with
  | done a => exact .on rfl rfl
  | crash cause => exact .short (fun _ ended => by cases ended) rfl
  | act step next ih =>
    simp only [bind, poll]
    exact ih _ k _
  | waitUntil instant next ih =>
    simp only [bind, poll]
    split
    · exact ih () k s
    · exact .short (fun _ ended => by cases ended) rfl
  | within instant body next _ ih =>
    simp only [bind, poll]
    -- A body that has to wait loses the race once its instant has come.
    cases (body.poll now s).left
    case done b => exact (ih (some b) k _).after _
    case crash cause => exact .short (fun _ ended => by cases ended) rfl
    all_goals
      dsimp only
      split
      · exact (ih none k _).after _
      · exact .short (fun _ ended => by cases ended) rfl
  | guarded body next _ ih =>
    simp only [bind, poll]
    cases (body.poll now s).left
    case done b => exact (ih (.ok b) k _).after _
    case crash cause => exact (ih (.error cause) k _).after _
    all_goals exact .short (fun _ ended => by cases ended) rfl
  | both left right next _ _ ih =>
    simp only [bind, poll]
    -- What follows is reached only when both sides are done.
    cases (left.poll now s).left
    case crash cause => exact .short (fun _ ended => by cases ended) rfl
    case done b =>
      cases rightPart : (right.poll now (left.poll now s).state).left
      case done c =>
        simp only [Progress.after, rightPart]
        exact (ih b c k _).after _
      all_goals
        simp only [Progress.after, rightPart]
        exact .short (fun _ ended => by cases ended) rfl
    all_goals
      dsimp only
      cases rightPart : (right.poll now (left.poll now s).state).left
      all_goals
        simp only [Progress.after, rightPart]
        exact .short (fun _ ended => by cases ended) rfl
  | fork child next _ ih =>
    simp only [bind, poll]
    exact (ih () k s).after _

/-- What is left of a sequence is what is left of its first part, or of the rest of it. -/
theorem left_poll_bind (p : Process σ α) (k : α → Process σ β) (now : Nat) (s : σ) :
    (∃ a s', (p.poll now s).left = .done a ∧
      ((p.bind k).poll now s).left = ((k a).poll now s').left) ∨
    ((∀ a, (p.poll now s).left ≠ .done a) ∧
      ((p.bind k).poll now s).left = (p.poll now s).left.bind k) := by
  cases poll_bind p k now s with
  | @on a ended same =>
    refine .inl ⟨a, (p.poll now s).state, ended, ?_⟩
    rw [same]
    rfl
  | short more same => exact .inr ⟨more, congrArg Progress.left same⟩

theorem deadline?_bind {p : Process σ α} (unfinished : ∀ a, p ≠ .done a) (k : α → Process σ β) :
    (p.bind k).deadline? = p.deadline? := by
  cases p with
  | done a => exact absurd rfl (unfinished a)
  | _ => rfl

theorem isDue_bind {p : Process σ α} (unfinished : ∀ a, p ≠ .done a) (k : α → Process σ β)
    (now : Nat) : (p.bind k).isDue now = p.isDue now := by
  simp only [isDue, deadline?_bind unfinished k]

/-! ### Coming to an end -/

/-- A process that has got as far as it can at some instant comes to an end with an answer of which
`Q` holds, provided that it is carried on whenever it is due. Carried on before, it does not move. -/
inductive Settles (Q : α → Prop) : Process σ α → Prop
  | done {a : α} (holds : Q a) : Settles Q (.done a)
  | wait {p : Process σ α} (waits : p.deadline?.isSome = true)
      (still : ∀ now s, p.isDue now = false → (p.poll now s).left = p)
      (carried : ∀ now s, p.isDue now = true → Settles Q (p.poll now s).left) : Settles Q p

/-- A process comes to an end with an answer of which `Q` holds, whenever it is begun. -/
def Ends (p : Process σ α) (Q : α → Prop) : Prop :=
  ∀ now s, (p.poll now s).left.Settles Q

variable {Q : α → Prop} {R : β → Prop}

theorem Settles.bind {p : Process σ α} {k : α → Process σ β} (first : p.Settles Q)
    (unfinished : ∀ a, p ≠ .done a) (rest : ∀ a, Q a → (k a).Ends R) : (p.bind k).Settles R := by
  induction first with
  | done holds => exact absurd rfl (unfinished _)
  | @wait p waits still carried ih =>
    refine .wait ?_ ?_ ?_
    · rw [deadline?_bind unfinished]
      exact waits
    · intro now s early
      rw [isDue_bind unfinished] at early
      rcases left_poll_bind p k now s with ⟨a, _, finished, _⟩ | ⟨_, left⟩
      · exact absurd ((still now s early).symm.trans finished) (unfinished a)
      · rw [left, still now s early]
    · intro now s due
      rw [isDue_bind unfinished] at due
      rcases left_poll_bind p k now s with ⟨a, s', finished, left⟩ | ⟨more, left⟩
      · rw [left]
        have answered := carried now s due
        rw [finished] at answered
        cases answered with
        | done holds => exact rest a holds now s'
        | wait waits => cases waits
      · rw [left]
        exact ih now s due more

theorem Ends.bind {p : Process σ α} {k : α → Process σ β} (first : p.Ends Q)
    (rest : ∀ a, Q a → (k a).Ends R) : (p >>= k).Ends R := by
  intro now s
  rw [bind_eq]
  rcases left_poll_bind p k now s with ⟨a, s', finished, left⟩ | ⟨more, left⟩
  · rw [left]
    have answered := first now s
    rw [finished] at answered
    cases answered with
    | done holds => exact rest a holds now s'
    | wait waits => cases waits
  · rw [left]
    exact (first now s).bind more rest

theorem Ends.pure {a : α} (holds : Q a) : (Pure.pure a : Process σ α).Ends Q :=
  fun _ _ => .done holds

theorem Ends.mono {p : Process σ α} {Q' : α → Prop} (ends : p.Ends Q)
    (weaker : ∀ a, Q a → Q' a) : p.Ends Q' := by
  have again := ends.bind (k := Pure.pure) fun a holds => Ends.pure (weaker a holds)
  rwa [bind_pure] at again

/-- Looking at the time and the state, and changing the state, takes no time. -/
theorem Ends.step {f : Nat → σ → α × σ} (holds : ∀ now s, Q (f now s).1) :
    (Process.step f).Ends Q :=
  fun now s => .done (holds now s)

theorem Ends.now : (Process.now : Process σ Nat).Ends fun _ => True :=
  fun _ _ => .done trivial

theorem Ends.waitUntil {instant : Nat} {next : Unit → Process σ α} (ends : (next ()).Ends Q) :
    (Process.waitUntil instant next).Ends Q := by
  intro now s
  simp only [poll]
  split
  · exact ends now s
  · refine .wait rfl ?_ ?_
    · intro later s early
      have stays : ¬ instant ≤ later := by simpa [isDue, deadline?] using early
      simp only [poll, stays, ↓reduceIte]
    · intro later s due
      have reached : instant ≤ later := by simpa [isDue, deadline?] using due
      simp only [poll, reached, ↓reduceIte]
      exact ends later s

theorem Ends.inOrder {ps : List (Process σ α)} (ends : ∀ p ∈ ps, p.Ends fun _ => True) :
    (Process.inOrder ps).Ends fun _ => True := by
  induction ps with
  | nil => exact Ends.pure trivial
  | cons p rest ih =>
    obtain ⟨first, others⟩ := List.forall_mem_cons.1 ends
    exact first.bind fun _ _ => (ih others).bind fun _ _ => Ends.pure trivial

theorem Ends.sleep (d : Duration) : (Process.sleep d : Process σ Unit).Ends fun _ => True :=
  Ends.now.bind fun _ _ => Ends.waitUntil (Ends.pure trivial)

end Hearth.Process

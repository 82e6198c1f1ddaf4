import Hearth.Proofs.Process.Conduct
import Hearth.Proofs.Process.Promises

/-!
# Hearth.Proofs.Process.Record

Processes that keep a record of what they do. The record is a second part of the state that the process
writes and never reads, so a process with a record takes the same course as one without.

## Main definitions

- `Process.offRecord`: a process that leaves the record alone.
- `Process.Follows`: a process does what another one does, and may keep a record of it.
- `Process.Records`: two processes take the same courses, one of them with a record.

## Main results

- `Process.Follows.reaches` and `Process.Reaches.forget`: every course of a process has a record, and what
  is recorded did happen.

## Proof strategy

What is left of a process that follows another one follows what is left of that one (`Follows.poll`), by
induction on why it follows. Along a course nothing more is needed than that: others do not touch the
record, and whether a process waits does not depend on it.
-/

namespace Hearth.Process

variable {σ ρ α β γ : Type}

/-! ### Off the record -/

/-- A process that knows nothing of the record. -/
def offRecord {α : Type} (p : Process σ α) : Process (σ × ρ) α :=
  match p with
  | .done a => .done a
  | .crash cause => .crash cause
  | .act step next =>
    .act (fun now x => ((step now x.1).1, ((step now x.1).2, x.2))) fun b => (next b).offRecord
  | .waitUntil instant next => .waitUntil instant fun u => (next u).offRecord
  | .within instant body next => .within instant body.offRecord fun b => (next b).offRecord
  | .guarded body next => .guarded body.offRecord fun b => (next b).offRecord
  | .both left right next => .both left.offRecord right.offRecord fun b c => (next b c).offRecord
  | .fork child next => .fork child.offRecord fun u => (next u).offRecord

/-- What others do, who know nothing of the record. -/
def OffRecord (others : σ → σ → Prop) (x y : σ × ρ) : Prop := others x.1 y.1 ∧ y.2 = x.2

theorem minds_offRecord (p : Process σ α) :
    (p.offRecord : Process (σ × ρ) α).Minds fun _ x y => y.2 = x.2 := by
  induction p with
  | done a => exact trivial
  | crash cause => exact trivial
  | act step next ih => exact ⟨fun _ _ => rfl, ih⟩
  | waitUntil instant next ih => exact ih
  | within instant body next ihBody ih => exact ⟨ihBody, ih⟩
  | guarded body next ihBody ih => exact ⟨ihBody, ih⟩
  | both left right next ihLeft ihRight ih => exact ⟨ihLeft, ihRight, ih⟩
  | fork child next ihChild ih => exact ⟨ihChild, ih⟩

/-- What a process keeps that minds what is permitted, it keeps to the end, if the others keep it, too. -/
theorem Minds.leads {permitted : Nat → σ → σ → Prop} {others : σ → σ → Prop} {p : Process σ α}
    {F : σ → Prop} (minds : p.Minds permitted) (bySelf : ∀ now s s', permitted now s s' → F s → F s')
    (byOthers : ∀ s s', others s s' → F s → F s') :
    p.Leads others (fun _ => F) (fun _ => F) (fun _ => F) fun _ _ => F := by
  constructor
  intro now s begun q t s' course
  -- What is left of the process minds the same, so both are carried along the course.
  have carried {q : Process σ α} {t : Nat} {s : σ} (minds : q.Minds permitted) (holds : F s) :
      (q.poll t s).left.Minds permitted ∧ F (q.poll t s).state := by
    obtain ⟨changed, left, -⟩ := minds.poll t s
    refine ⟨left, ?_⟩
    generalize (q.poll t s).state = s' at changed
    induction changed with
    | refl => exact holds
    | tail _ changed ih => exact bySelf _ _ _ changed ih
  have kept : q.Minds permitted ∧ F s' := by
    induction course with
    | first => exact carried minds begun
    | again _ _ _ changed ih => exact carried ih.1 (byOthers _ _ changed ih.2)
  cases q <;> exact kept.2

/-! ### Keeping a record -/

/-- `p'` does what `p` does, and takes note of it whenever it likes. -/
inductive Follows : {α : Type} → Process (σ × ρ) α → Process σ α → Prop
  | done {α : Type} (a : α) : Follows (.done a) (.done a)
  | crash {α : Type} (cause : Crash) : Follows (.crash cause : Process _ α) (.crash cause)
  | step {α : Type} {f' : Nat → σ × ρ → α × (σ × ρ)} {f : Nat → σ → α × σ}
      (answers : ∀ now x, (f' now x).1 = (f now x.1).1)
      (changes : ∀ now x, (f' now x).2.1 = (f now x.1).2) : Follows (.step f') (.step f)
  | note {f : Nat → σ × ρ → σ × ρ} (still : ∀ now x, (f now x).1 = x.1) :
      Follows (.change f) (.done ())
  | waitUntil (instant : Nat) : Follows (.waitUntil instant .done) (.waitUntil instant .done)
  | within {α : Type} {body' : Process (σ × ρ) α} {body : Process σ α} (instant : Nat)
      (inside : Follows body' body) : Follows (.within instant body' .done) (.within instant body .done)
  | guarded {α : Type} {body' : Process (σ × ρ) α} {body : Process σ α}
      (inside : Follows body' body) : Follows (.guarded body' .done) (.guarded body .done)
  | both {α β : Type} {left' : Process (σ × ρ) α} {left : Process σ α} {right' : Process (σ × ρ) β}
      {right : Process σ β} (onLeft : Follows left' left) (onRight : Follows right' right) :
      Follows (.both left' right' fun a b => .done (a, b)) (.both left right fun a b => .done (a, b))
  | fork {child' : Process (σ × ρ) Unit} {child : Process σ Unit} (aside : Follows child' child) :
      Follows (.fork child' .done) (.fork child .done)
  | bind {α β : Type} {p' : Process (σ × ρ) α} {p : Process σ α} {k' : α → Process (σ × ρ) β}
      {k : α → Process σ β} (first : Follows p' p) (rest : ∀ a, Follows (k' a) (k a)) :
      Follows (p'.bind k') (p.bind k)

theorem follows_offRecord (p : Process σ α) : (p.offRecord : Process (σ × ρ) α).Follows p := by
  induction p with
  | done a => exact .done a
  | crash cause => exact .crash cause
  | act step next ih =>
    have here : Follows (.step fun now (x : σ × ρ) => ((step now x.1).1, ((step now x.1).2, x.2)))
        (.step step) := .step (fun _ _ => rfl) fun _ _ => rfl
    exact .bind here ih
  | waitUntil instant next ih => exact .bind (.waitUntil instant) ih
  | within instant body next ihBody ih => exact .bind (.within instant ihBody) ih
  | guarded body next ihBody ih => exact .bind (.guarded ihBody) ih
  | both left right next ihLeft ihRight ih =>
    have rest (x : _ × _) : (next x.1 x.2).offRecord.Follows (next x.1 x.2) := ih x.1 x.2
    exact .bind (.both ihLeft ihRight) rest
  | fork child next ihChild ih => exact .bind (.fork ihChild) ih

theorem Follows.attempt {f' : Nat → σ × ρ → Option α × (σ × ρ)} {f : Nat → σ → Option α × σ}
    (answers : ∀ now x, (f' now x).1 = (f now x.1).1)
    (changes : ∀ now x, (f' now x).2.1 = (f now x.1).2) : Follows (.attempt f') (.attempt f) :=
  .bind (.step answers changes) fun
    | some answer => .done answer
    | none => .crash ⟨none⟩

/-- What is left of a process that was carried on along with the one that it follows. -/
inductive Even : Process (σ × ρ) α → Process σ α → Prop
  | done (a : α) : Even (.done a) (.done a)
  | crash (cause : Crash) : Even (.crash cause) (.crash cause)
  | waits {p' : Process (σ × ρ) α} {p : Process σ α} (follows : p'.Follows p)
      (waits' : p'.answer? = none) (waits : p.answer? = none) : Even p' p

section

variable {p' : Process (σ × ρ) α} {p : Process σ α}

theorem Even.follows (even : Even p' p) : p'.Follows p := by
  cases even with
  | done a => exact .done a
  | crash cause => exact .crash cause
  | waits follows => exact follows

theorem Even.answer? (even : Even p' p) : p'.answer? = p.answer? := by
  cases even with
  | done a => rfl
  | crash cause => rfl
  | waits _ waits' waits => exact waits'.trans waits.symm

theorem Even.eq_done_iff (even : Even p' p) (a : α) : p' = .done a ↔ p = .done a := by
  cases even with
  | done b => simp only [Process.done.injEq]
  | crash cause => exact ⟨nofun, nofun⟩
  | waits _ waits' waits =>
    constructor
    · rintro rfl
      cases waits'
    · rintro rfl
      cases waits

theorem Even.eq_crash_iff (even : Even p' p) (cause : Crash) :
    p' = .crash cause ↔ p = .crash cause := by
  cases even with
  | done b => exact ⟨nofun, nofun⟩
  | crash cause => simp only [Process.crash.injEq]
  | waits _ waits' waits =>
    exact ⟨fun same => absurd same (ne_crash_of_waits waits' cause),
      fun same => absurd same (ne_crash_of_waits waits cause)⟩

theorem Even.waited (instant now : Nat) :
    Even (waited instant now : Process (σ × ρ) Unit) (waited instant now) := by
  unfold Process.waited
  split
  · exact .done ()
  · exact .waits (.waitUntil instant) rfl rfl

theorem Even.raced (even : Even p' p) (instant now : Nat) :
    Even (raced instant now p') (raced instant now p) := by
  cases even with
  | done a => exact .done (some a)
  | crash cause => exact .crash cause
  | waits follows waits' waits =>
    rw [raced_of_waits waits', raced_of_waits waits]
    split
    · exact .done none
    · exact .waits (.within instant follows) rfl rfl

theorem Even.caught (even : Even p' p) : Even (caught p') (caught p) := by
  cases even with
  | done a =>
    show Even (.done (Except.ok a)) (.done (Except.ok a))
    exact .done _
  | crash cause =>
    show Even (.done (Except.error cause)) (.done (Except.error cause))
    exact .done _
  | waits follows waits' waits =>
    rw [caught_of_waits waits', caught_of_waits waits]
    exact .waits (.guarded follows) rfl rfl

theorem Even.joined {q' : Process (σ × ρ) β} {q : Process σ β} (onLeft : Even p' p)
    (onRight : Even q' q) (calm : ∀ cause, p ≠ .crash cause) : Even (joined p' q') (joined p q) := by
  have calm' (cause : Crash) : p' ≠ .crash cause := (onLeft.eq_crash_iff cause).not.2 (calm cause)
  have beside := Follows.both onLeft.follows onRight.follows
  cases onRight with
  | crash cause =>
    rw [joined_crash calm', joined_crash calm]
    exact .crash cause
  | waits _ waits' waits =>
    rw [joined_of_waits calm' (ne_crash_of_waits waits') (.inr waits'),
      joined_of_waits calm (ne_crash_of_waits waits) (.inr waits)]
    exact .waits beside rfl rfl
  | done b =>
    cases onLeft with
    | done a =>
      show Even (.done (a, b)) (.done (a, b))
      exact .done _
    | crash cause => exact absurd rfl (calm cause)
    | waits _ waits' waits =>
      rw [joined_of_waits calm' (done_ne_crash b) (.inl waits'),
        joined_of_waits calm (done_ne_crash b) (.inl waits)]
      exact .waits beside rfl rfl

theorem Even.bind (even : Even p' p) (unfinished : ∀ a, p ≠ .done a) {k' : α → Process (σ × ρ) β}
    {k : α → Process σ β} (rest : ∀ a, (k' a).Follows (k a)) : Even (p'.bind k') (p.bind k) := by
  cases even with
  | done a => exact absurd rfl (unfinished a)
  | crash cause => exact .crash cause
  | waits follows waits' waits =>
    exact .waits (.bind follows rest) (answer?_bind_of_waits waits' k') (answer?_bind_of_waits waits k)

end

/-- Both have got equally far. -/
structure Abreast (r' : Progress (σ × ρ) α) (r : Progress σ α) : Prop where
  state : r'.state.1 = r.state
  left : Even r'.left r.left

theorem Follows.poll {p' : Process (σ × ρ) α} {p : Process σ α} (follows : p'.Follows p) (now : Nat)
    (x : σ × ρ) : Abreast (p'.poll now x) (p.poll now x.1) := by
  induction follows generalizing x with
  | done a => exact ⟨rfl, .done a⟩
  | crash cause => exact ⟨rfl, .crash cause⟩
  | @step α f' f answers changes =>
    refine ⟨changes now x, ?_⟩
    show Even (.done (f' now x).1) (.done (f now x.1).1)
    rw [answers]
    exact .done _
  | note still => exact ⟨still now x, .done ()⟩
  | waitUntil instant =>
    rw [poll_waitUntil, poll_waitUntil]
    exact ⟨rfl, .waited instant now⟩
  | within instant _ ih =>
    rw [poll_within, poll_within]
    exact ⟨(ih x).state, (ih x).left.raced instant now⟩
  | guarded _ ih =>
    rw [poll_guarded, poll_guarded]
    exact ⟨(ih x).state, (ih x).left.caught⟩
  | @both α β left' left right' right _ _ ihLeft ihRight =>
    -- The right side is carried on unless the left one has crashed.
    have first := ihLeft x
    have second := ihRight (left'.poll now x).state
    rw [first.state] at second
    rcases poll_both_cases left right now x.1 with ⟨cause, crashed, same⟩ | ⟨calm, same⟩
    · rw [same, poll_both_crash right' ((first.left.eq_crash_iff cause).2 crashed)]
      exact ⟨first.state, .crash cause⟩
    · rw [same, poll_both right' fun cause => (first.left.eq_crash_iff cause).not.2 (calm cause)]
      exact ⟨second.state, first.left.joined second.left calm⟩
  | fork _ _ => exact ⟨rfl, .done ()⟩
  | @bind α β p' p k' k _ rest ih ihRest =>
    have first := ih x
    -- Either both first parts have ended, with one answer, or neither has.
    cases poll_bind p k now x.1 with
    | @on a ended same =>
      cases poll_bind p' k' now x with
      | @on a' ended' same' =>
        obtain rfl := Process.done.inj (ended'.symm.trans ((first.left.eq_done_iff a).2 ended))
        have second := ihRest a' (p'.poll now x).state
        rw [first.state] at second
        rw [same, same']
        exact ⟨second.state, second.left⟩
      | short more _ => exact absurd ((first.left.eq_done_iff a).2 ended) (more a)
    | short more same =>
      cases poll_bind p' k' now x with
      | @on a ended _ => exact absurd ((first.left.eq_done_iff a).1 ended) (more a)
      | short _ same' =>
        rw [same, same']
        exact ⟨first.state, first.left.bind more rest⟩

/-! ### Courses -/

section

variable {others : σ → σ → Prop} {now t : Nat} {p' : Process (σ × ρ) α} {p : Process σ α}

/-- Whatever course a process takes, the one that follows it takes the same and has a record of it. -/
theorem Follows.reaches {q : Process σ α} {s s' : σ} (follows : p'.Follows p)
    (course : Reaches others p now s q t s') (r : ρ) :
    ∃ q' r', Reaches (OffRecord others) p' now (s, r) q' t (s', r') ∧ Even q' q := by
  induction course with
  | first =>
    obtain ⟨state, left⟩ := follows.poll now (s, r)
    refine ⟨_, ((p'.poll now (s, r)).state).2, ?_, left⟩
    rw [← state]
    exact .first
  | @again q t t' s' s'' _ waits later changed ih =>
    obtain ⟨q', r', course, even⟩ := ih
    obtain ⟨state, left⟩ := even.follows.poll t' (s'', r')
    refine ⟨_, ((q'.poll t' (s'', r')).state).2, ?_, left⟩
    rw [← state]
    exact .again course (even.answer?.trans waits) later ⟨changed, rfl⟩

/-- A course with a record is a course without one. -/
theorem Reaches.forget {q' : Process (σ × ρ) α} {x x' : σ × ρ} (follows : p'.Follows p)
    (course : Reaches (OffRecord others) p' now x q' t x') :
    ∃ q, Reaches others p now x.1 q t x'.1 ∧ Even q' q := by
  induction course with
  | first =>
    obtain ⟨state, left⟩ := follows.poll now x
    refine ⟨_, ?_, left⟩
    rw [state]
    exact .first
  | @again q' t t' x' x'' _ waits later changed ih =>
    obtain ⟨q, course, even⟩ := ih
    obtain ⟨state, left⟩ := even.follows.poll t' x''
    refine ⟨_, ?_, left⟩
    rw [state]
    exact .again course (even.answer?.symm.trans waits) later changed.1

end

/-- Whatever course one process may take, the other may take with a record that begins with `r`, and it
may take no other. -/
def Records (others : σ → σ → Prop) (p' : Process (σ × ρ) α) (p : Process σ α) (r : ρ) : Prop :=
  ∀ now s t s' outcome, (∃ q, Reaches others p now s q t s' ∧ q.answer? = outcome) ↔
    ∃ q r', Reaches (OffRecord others) p' now (s, r) q t (s', r') ∧ q.answer? = outcome

theorem Follows.records {p' : Process (σ × ρ) α} {p : Process σ α} (follows : p'.Follows p)
    (others : σ → σ → Prop) (r : ρ) : p'.Records others p r := by
  intro now s t s' outcome
  constructor
  · rintro ⟨q, course, answered⟩
    obtain ⟨q', r', course', even⟩ := follows.reaches course r
    exact ⟨q', r', course', even.answer?.trans answered⟩
  · rintro ⟨q', r', course', answered⟩
    obtain ⟨q, course, even⟩ := course'.forget follows
    exact ⟨q, course, even.answer?.symm.trans answered⟩

end Hearth.Process

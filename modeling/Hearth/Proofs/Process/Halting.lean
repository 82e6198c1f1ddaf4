import Hearth.Proofs.Process.Course

/-!
# Hearth.Proofs.Process.Halting

Every process comes to an end.

## Main definition

`Process.Halts`: carried on whenever it is due, a process comes to an end or crashes.

## Main results

- `Process.halts_poll`: what is left of a process at any instant halts.
- `Process.Ends.rescue`: a process that is guarded ends.
- `Process.Ends.exists_course`: a process that ends has a course to its answer.

## Proof strategy

The induction is on the process, whose continuations are smaller than it is. For each construct, what is
left of it halts if what is left of its parts does. Two processes side by side take an induction in an
induction: whenever they are carried on, the left one gets further, or it stays and the right one does.
-/

namespace Hearth.Process

variable {σ α β γ : Type}

/-- A process that has got as far as it can at some instant comes to an end or crashes, provided that it
is carried on whenever it is due. Carried on before, it does not move. -/
inductive Halts : Process σ α → Prop
  | stop {p : Process σ α} {outcome : Except Crash α} (ended : p.answer? = some outcome) : Halts p
  | wait {p : Process σ α} (waits : p.deadline?.isSome = true)
      (still : ∀ now s, p.isDue now = false → (p.poll now s).left = p)
      (carried : ∀ now s, p.isDue now = true → Halts (p.poll now s).left) : Halts p

theorem answer?_of_deadline? {p : Process σ α} (waits : p.deadline?.isSome = true) :
    p.answer? = none := by
  cases p with
  | done a => cases waits
  | crash cause => cases waits
  | _ => rfl

theorem isDue_within (instant : Nat) (body : Process σ β) (next : Option β → Process σ α) (now : Nat) :
    (Process.within instant body next).isDue now = (decide (instant ≤ now) || body.isDue now) := by
  simp only [isDue, deadline?]
  cases body.deadline? with
  | none => simp only [earlier, Bool.or_false]
  | some due =>
    simp only [earlier, ← Bool.decide_or]
    exact decide_eq_decide.2 (by omega)

theorem isDue_both (left : Process σ β) (right : Process σ γ) (next : β → γ → Process σ α) (now : Nat) :
    (Process.both left right next).isDue now = (left.isDue now || right.isDue now) := by
  simp only [isDue, deadline?]
  cases left.deadline? with
  | none => simp only [earlier, Bool.false_or]
  | some due =>
    cases right.deadline? with
    | none => simp only [earlier, Bool.or_false]
    | some due' =>
      simp only [earlier, ← Bool.decide_or]
      exact decide_eq_decide.2 (by omega)

theorem Halts.bind {p : Process σ α} {k : α → Process σ β} (halts : p.Halts)
    (unfinished : ∀ a, p ≠ .done a) (rest : ∀ a now s, ((k a).poll now s).left.Halts) :
    (p.bind k).Halts := by
  induction halts with
  | @stop p outcome ended =>
    cases p with
    | done a => exact absurd rfl (unfinished a)
    | crash cause => exact .stop rfl
    | _ => cases ended
  | @wait p waits still carried ih =>
    refine .wait ?_ ?_ ?_
    · rw [deadline?_bind unfinished]
      exact waits
    · intro now s early
      rw [isDue_bind unfinished] at early
      rcases left_poll_bind p k now s with ⟨a, _, finished, _⟩ | ⟨_, left⟩
      · exact absurd ((still now s early).symm.trans finished) (unfinished a)
      · rw [left, still now s early]
    · intro now s due
      rw [isDue_bind unfinished] at due
      rcases left_poll_bind p k now s with ⟨a, s', _, left⟩ | ⟨more, left⟩
      · rw [left]
        exact rest a now s'
      · rw [left]
        exact ih now s due more

theorem Halts.raced {body : Process σ β} (halts : body.Halts) (instant now : Nat) :
    (raced instant now body).Halts := by
  induction halts generalizing now with
  | @stop body outcome ended =>
    cases body with
    | done b => exact .stop rfl
    | crash cause => exact .stop rfl
    | _ => cases ended
  | @wait body waits still carried ih =>
    have more := answer?_of_deadline? waits
    rw [raced_of_waits more]
    split
    · exact .stop rfl
    · refine .wait ?_ ?_ ?_
      · cases due : body.deadline? <;> simp [deadline?, earlier, due]
      · intro now s early
        rw [isDue_within, Bool.or_eq_false_iff] at early
        rw [poll_within, still now s early.2, raced_of_waits more,
          if_neg (of_decide_eq_false early.1)]
      · intro now s due
        rw [poll_within]
        cases inside : body.isDue now with
        | true => exact ih now s inside now
        | false =>
          -- The instant of the race has come before the body is due.
          rw [isDue_within, inside, Bool.or_false] at due
          rw [still now s inside, raced_of_waits more, if_pos (of_decide_eq_true due)]
          exact .stop rfl

theorem Halts.caught {body : Process σ β} (halts : body.Halts) :
    (caught body).Settles fun _ => True := by
  induction halts with
  | @stop body outcome ended =>
    cases body with
    | done b => exact .done trivial
    | crash cause => exact .done trivial
    | _ => cases ended
  | @wait body waits still carried ih =>
    rw [caught_of_waits (answer?_of_deadline? waits)]
    refine .wait waits ?_ ?_
    · intro now s early
      rw [poll_guarded, still now s early, caught_of_waits (answer?_of_deadline? waits)]
    · intro now s due
      rw [poll_guarded]
      exact ih now s due

theorem Settles.halts {p : Process σ α} {Q : α → Prop} (settles : p.Settles Q) : p.Halts := by
  induction settles with
  | done => exact .stop rfl
  | wait waits still _ ih => exact .wait waits still ih

/-- A process that comes to an end has a course to its answer, at which others leave the state alone. -/
theorem Ends.exists_course {p : Process σ α} {Q : α → Prop} {others : σ → σ → Prop}
    (idle : ∀ s, others s s) (ends : p.Ends Q) (now : Nat) (s : σ) :
    ∃ a t s', Reaches others p now s (.done a) t s' ∧ Q a := by
  -- From each wait on, the process is carried on when it is due.
  have onward {q : Process σ α} (settles : q.Settles Q) :
      ∀ {t s'}, Reaches others p now s q t s' → ∃ a t s', Reaches others p now s (.done a) t s' ∧ Q a := by
    induction settles with
    | done holds => exact fun course => ⟨_, _, _, course, holds⟩
    | @wait q waits still carried ih =>
      intro t s' course
      obtain ⟨instant, deadline⟩ := Option.isSome_iff_exists.1 waits
      have due : q.isDue (max t instant) = true := by
        rw [isDue, deadline]
        exact decide_eq_true (Nat.le_max_right t instant)
      exact ih _ s' due (.again course (answer?_of_deadline? waits) (Nat.le_max_left t instant) (idle s'))
  exact onward (ends now s) .first

theorem Halts.still {p : Process σ α} (halts : p.Halts) {now : Nat} (early : p.isDue now = false)
    (s : σ) : (p.poll now s).left = p := by
  cases halts with
  | stop ended => exact left_poll_of_answer? ended now s
  | wait _ still => exact still now s early

theorem Halts.poll {p : Process σ α} (halts : p.Halts) (now : Nat) (s : σ) :
    (p.poll now s).left.Halts := by
  cases due : p.isDue now with
  | false =>
    rw [halts.still due]
    exact halts
  | true =>
    cases halts with
    | stop ended =>
      rw [left_poll_of_answer? ended]
      exact .stop ended
    | wait _ _ carried => exact carried now s due

theorem Halts.isSome_deadline? {p : Process σ α} (halts : p.Halts) (waits : p.answer? = none) :
    p.deadline?.isSome = true := by
  cases halts with
  | stop ended => exact absurd (waits.symm.trans ended) nofun
  | wait waits => exact waits

section

variable {left : Process σ β} {right : Process σ γ}

/-- Two processes of which one waits halt side by side if what is left of them does so. -/
theorem Halts.both (onLeft : left.Halts) (onRight : right.Halts)
    (calm : ∀ cause, left ≠ .crash cause) (calm' : ∀ cause, right ≠ .crash cause)
    (waits : left.answer? = none ∨ right.answer? = none)
    (carried : ∀ now s s', left.isDue now = true ∨ right.isDue now = true →
      (joined (left.poll now s).left (right.poll now s').left).Halts) :
    (Process.both left right fun b c => .done (b, c)).Halts := by
  refine .wait ?_ ?_ ?_
  · rw [deadline?]
    rcases waits with waits | waits
    · obtain ⟨due, same⟩ := Option.isSome_iff_exists.1 (onLeft.isSome_deadline? waits)
      cases other : right.deadline? <;> simp [earlier, same]
    · obtain ⟨due, same⟩ := Option.isSome_iff_exists.1 (onRight.isSome_deadline? waits)
      cases other : left.deadline? <;> simp [earlier, same]
  · intro now s early
    rw [isDue_both, Bool.or_eq_false_iff] at early
    rw [left_poll_both, onLeft.still early.1, onRight.still early.2, joined_of_waits calm calm' waits]
  · intro now s due
    rw [isDue_both, Bool.or_eq_true] at due
    rw [left_poll_both]
    exact carried now s _ due

theorem Halts.joined (onLeft : left.Halts) (onRight : right.Halts) : (joined left right).Halts := by
  -- Each time the left side gets further, or it rests and the right side does.
  induction onLeft generalizing right with
  | @stop left outcome ended =>
    match outcome, left, ended with
    | .error _, .crash _, _ => exact .stop rfl
    | .ok _, .done b, _ =>
      induction onRight with
      | @stop right outcome ended =>
        match outcome, right, ended with
        | .error _, .crash _, _ => exact .stop rfl
        | .ok _, .done c, _ => exact .stop rfl
      | @wait right waits still carried ih =>
        have more := answer?_of_deadline? waits
        rw [joined_of_waits (done_ne_crash b) (ne_crash_of_waits more) (.inr more)]
        refine Halts.both (.stop rfl) (.wait waits still carried) (done_ne_crash b)
          (ne_crash_of_waits more) (.inr more) fun now s s' due => ?_
        rcases due with due | due
        · cases due
        · exact ih now s' due
  | @wait left waits still carried ih =>
    have more := answer?_of_deadline? waits
    have onLeft : left.Halts := .wait waits still carried
    induction onRight with
    | @stop right outcome ended =>
      match outcome, right, ended with
      | .error cause, .crash _, _ =>
        rw [joined_crash (ne_crash_of_waits more)]
        exact .stop rfl
      | .ok _, .done c, _ =>
        rw [joined_of_waits (ne_crash_of_waits more) (done_ne_crash c) (.inl more)]
        refine onLeft.both (.stop rfl) (ne_crash_of_waits more) (done_ne_crash c) (.inl more)
          fun now s s' due => ?_
        rcases due with due | due
        · exact ih now s due (.stop rfl)
        · cases due
    | @wait right waits' still' carried' ih' =>
      have more' := answer?_of_deadline? waits'
      have onRight : right.Halts := .wait waits' still' carried'
      rw [joined_of_waits (ne_crash_of_waits more) (ne_crash_of_waits more') (.inl more)]
      refine onLeft.both onRight (ne_crash_of_waits more) (ne_crash_of_waits more') (.inl more)
        fun now s s' due => ?_
      cases first : left.isDue now with
      | true => exact ih now s first (onRight.poll now s')
      | false =>
        rw [first, or_iff_right Bool.false_ne_true] at due
        rw [still now s first]
        exact ih' now s' due

end

theorem Halts.waited (instant now : Nat) : (waited instant now : Process σ Unit).Halts := by
  unfold Process.waited
  split
  · exact .stop rfl
  · refine .wait rfl ?_ ?_
    · intro later s early
      rw [poll_waitUntil, Process.waited, if_neg]
      simpa [isDue, deadline?] using early
    · intro later s due
      rw [poll_waitUntil, Process.waited, if_pos]
      · exact .stop rfl
      · simpa [isDue, deadline?] using due

/-- A sequence halts if what is left of its first part does, and so does the rest whenever it is begun. -/
theorem halts_poll_bind {p : Process σ β} {k : β → Process σ α} {now : Nat} {s : σ}
    (first : (p.poll now s).left.Halts) (rest : ∀ b now s, ((k b).poll now s).left.Halts) :
    ((p.bind k).poll now s).left.Halts := by
  rcases left_poll_bind p k now s with ⟨b, s', _, left⟩ | ⟨more, left⟩
  · rw [left]
    exact rest b now s'
  · rw [left]
    exact first.bind more rest

/-- Whatever others do to the state, a process comes to an end or crashes. -/
theorem halts_poll (p : Process σ α) (now : Nat) (s : σ) : (p.poll now s).left.Halts := by
  -- Each construct is its bare self, and what comes next after that.
  induction p generalizing now s with
  | done a => exact .stop rfl
  | crash cause => exact .stop rfl
  | act step next ih => exact ih _ now _
  | waitUntil instant next ih =>
    refine halts_poll_bind (p := .waitUntil instant .done) ?_ ih
    rw [poll_waitUntil]
    exact .waited instant now
  | within instant body next ihBody ih =>
    refine halts_poll_bind (p := .within instant body .done) ?_ ih
    rw [poll_within]
    exact (ihBody now s).raced instant now
  | guarded body next ihBody ih =>
    refine halts_poll_bind (p := .guarded body .done) ?_ ih
    rw [poll_guarded]
    exact (ihBody now s).caught.halts
  | both left right next ihLeft ihRight ih =>
    refine halts_poll_bind (p := .both left right fun b c => .done (b, c))
      (k := fun x => next x.1 x.2) ?_ fun x => ih x.1 x.2
    rw [left_poll_both]
    exact (ihLeft now s).joined (ihRight now _)
  | fork child next _ ih => exact ih () now s

/-- A process of which every crash is caught ends. -/
theorem Ends.rescue (body : Process σ α) : (Process.rescue body).Ends fun _ => True := by
  intro now s
  rw [Process.rescue, poll_guarded]
  exact (halts_poll body now s).caught

end Hearth.Process

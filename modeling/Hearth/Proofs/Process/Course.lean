import Hearth.Process.Timeline
import Hearth.Proofs.Process.Completion

/-!
# Hearth.Proofs.Process.Course

What a process does in its course, while others change the state whenever it waits.

## Main definition

`Process.Reaches`: what is left of a process, and the state, after it has been carried on any number
of times.

## Main results

- `Process.Reaches.of_bind`, `.of_within`, `.of_guarded` and `.of_both`: the course of a process that is
  made of others.
- `Process.reaches_map_iff`: what is made of the answer has no influence on the course.
- `Timeline.reaches_of_complete`: what a timeline completes has run such a course.
-/

namespace Hearth.Process

variable {σ α β γ : Type}

/-! ### The course of a process -/

/-- A process begun at `now` in the state `s` has been carried on for the last time at `t`. `others` are
the changes that others may make to the state while the process waits. -/
inductive Reaches (others : σ → σ → Prop) (p : Process σ α) (now : Nat) (s : σ) :
    Process σ α → Nat → σ → Prop
  | first : Reaches others p now s (p.poll now s).left now (p.poll now s).state
  | again {q : Process σ α} {t t' : Nat} {s' s'' : σ} (earlier : Reaches others p now s q t s')
      (waits : q.answer? = none) (later : t ≤ t') (changed : others s' s'') :
      Reaches others p now s (q.poll t' s'').left t' (q.poll t' s'').state

section

variable {others : σ → σ → Prop} {now t : Nat} {s s' : σ}

theorem answer?_bind {p : Process σ α} (unfinished : ∀ a, p ≠ .done a) (k : α → Process σ β)
    (waits : (p.bind k).answer? = none) : p.answer? = none := by
  cases p with
  | done a => exact absurd rfl (unfinished a)
  | crash cause => cases waits
  | _ => rfl

theorem answer?_bind_of_waits {p : Process σ α} (waits : p.answer? = none) (k : α → Process σ β) :
    (p.bind k).answer? = none := by
  cases p <;> cases waits <;> rfl

theorem ne_crash_of_waits {p : Process σ α} (waits : p.answer? = none) (cause : Crash) :
    p ≠ .crash cause := by
  rintro rfl
  cases waits

theorem eq_done {p : Process σ α} {a : α} (answered : p.answer?.bind Except.toOption = some a) :
    p = .done a := by
  cases p with
  | done b => exact congrArg Process.done (Option.some.inj answered)
  | _ => cases answered

theorem exists_done {p : Process σ α} (answered : (p.answer?.bind Except.toOption).isSome = true) :
    ∃ a, p = .done a :=
  (Option.isSome_iff_exists.1 answered).imp fun _ same => eq_done same

theorem done_ne_crash (a : α) (cause : Crash) : (Process.done a : Process σ α) ≠ .crash cause := nofun

/-- A process that is over the first time that it is carried on has run its course. -/
theorem Reaches.of_poll {p : Process σ α} {g : α → γ} {c : γ}
    (ran : (p.poll now s).left.answer?.map (Except.map g) = some (.ok c)) :
    ∃ a, Reaches others p now s (.done a) now (p.poll now s).state ∧ g a = c := by
  cases left : (p.poll now s).left with
  | done a =>
    rw [left] at ran
    exact ⟨a, left ▸ .first, Except.ok.inj (Option.some.inj ran)⟩
  | crash cause =>
    rw [left] at ran
    cases ran
  | _ =>
    rw [left] at ran
    cases ran

/-- A sequence is on its first part, or past it. -/
theorem Reaches.of_bind {p : Process σ α} {k : α → Process σ β} {q : Process σ β}
    (course : Reaches others (p.bind k) now s q t s') :
    (∃ p', Reaches others p now s p' t s' ∧ (∀ a, p' ≠ .done a) ∧ q = p'.bind k) ∨
    ∃ a t₁ s₁, Reaches others p now s (.done a) t₁ s₁ ∧ Reaches others (k a) t₁ s₁ q t s' := by
  -- The induction is on how often the sequence was carried on. Each time its first part waits again, or
  -- ends and the rest takes over at the same instant.
  induction course with
  | first =>
    cases poll_bind p k now s with
    | @on a ended same =>
      have finished : Reaches others p now s (p.poll now s).left now (p.poll now s).state := .first
      rw [ended] at finished
      rw [same]
      exact .inr ⟨a, now, _, finished, .first⟩
    | short more same =>
      rw [same]
      exact .inl ⟨_, .first, more, rfl⟩
  | @again q t t' s' s'' _ waits later changed ih =>
    rcases ih with ⟨p', course, unfinished, rfl⟩ | ⟨a, t₁, s₁, finished, course⟩
    · have next := Reaches.again course (answer?_bind unfinished k waits) later changed
      cases poll_bind p' k t' s'' with
      | @on a ended same =>
        rw [ended] at next
        rw [same]
        exact .inr ⟨a, t', _, next, .first⟩
      | short more same =>
        rw [same]
        exact .inl ⟨_, next, more, rfl⟩
    · exact .inr ⟨a, t₁, s₁, finished, .again course waits later changed⟩

/-- A process that is over after its first step does nothing more. -/
theorem Reaches.eq_first {p q : Process σ α} {outcome : Except Crash α}
    (course : Reaches others p now s q t s') (ended : (p.poll now s).left.answer? = some outcome) :
    q = (p.poll now s).left ∧ s' = (p.poll now s).state := by
  induction course with
  | first => exact ⟨rfl, rfl⟩
  | again _ waits _ _ ih =>
    rw [ih.1, ended] at waits
    cases waits

theorem Reaches.now_eq_first {p q : Process σ α} {outcome : Except Crash α}
    (course : Reaches others p now s q t s') (ended : (p.poll now s).left.answer? = some outcome) :
    t = now := by
  cases course with
  | first => rfl
  | again earlier waits later changed =>
    rw [(earlier.eq_first ended).1, ended] at waits
    cases waits

theorem Reaches.of_step {f : Nat → σ → α × σ} {a : α}
    (course : Reaches others (.step f) now s (.done a) t s') :
    a = (f now s).1 ∧ t = now ∧ s' = (f now s).2 := by
  obtain ⟨answer, state⟩ := course.eq_first rfl
  exact ⟨Process.done.inj answer, course.now_eq_first rfl, state⟩

theorem Reaches.of_pure {a b : α} (course : Reaches others (.done a) now s (.done b) t s') :
    b = a ∧ t = now ∧ s' = s := by
  obtain ⟨answer, state⟩ := course.eq_first rfl
  exact ⟨Process.done.inj answer, course.now_eq_first rfl, state⟩

/-- A sequence that is over has run its first part to the end and then the rest. -/
theorem Reaches.of_bind_done {p : Process σ α} {k : α → Process σ β} {b : β}
    (course : Reaches others (p >>= k) now s (.done b) t s') :
    ∃ a t₁ s₁, Reaches others p now s (.done a) t₁ s₁ ∧
      Reaches others (k a) t₁ s₁ (.done b) t s' := by
  rcases Reaches.of_bind course with ⟨p', -, unfinished, same⟩ | ended
  · cases p' with
    | done a => exact absurd rfl (unfinished a)
    | _ => cases same
  · exact ended

/-- To change the answer of a process is to change nothing else about it. -/
theorem poll_map (g : α → β) (p : Process σ α) (now : Nat) (s : σ) :
    (g <$> p).poll now s = ⟨g <$> (p.poll now s).left, (p.poll now s).state, (p.poll now s).started⟩ := by
  rw [map_eq_pure_bind, bind_eq]
  cases poll_bind p (fun a => Pure.pure (g a)) now s with
  | @on a ended same =>
    rw [same, ended]
    show (⟨.done (g a), _, _ ++ []⟩ : Progress σ β) = _
    rw [List.append_nil]
    rfl
  | short more same =>
    rw [same, map_eq_pure_bind, bind_eq]

theorem answer?_map (g : α → β) (p : Process σ α) :
    (g <$> p).answer? = p.answer?.map (Except.map g) := by
  cases p <;> rfl

theorem Reaches.map {p q : Process σ α} (course : Reaches others p now s q t s') (g : α → β) :
    Reaches others (g <$> p) now s (g <$> q) t s' := by
  have start (p : Process σ α) (now : Nat) (s : σ) :
      ((g <$> p).poll now s).left = g <$> (p.poll now s).left ∧
        ((g <$> p).poll now s).state = (p.poll now s).state := by
    rw [poll_map]
    exact ⟨rfl, rfl⟩
  induction course with
  | first =>
    rw [← (start p now s).1, ← (start p now s).2]
    exact .first
  | again _ waits later changed ih =>
    rw [← (start _ _ _).1, ← (start _ _ _).2]
    exact .again ih (by rw [answer?_map, waits]; rfl) later changed

theorem Reaches.of_map {p : Process σ α} {g : α → β} {q : Process σ β}
    (course : Reaches others (g <$> p) now s q t s') :
    ∃ q', Reaches others p now s q' t s' ∧ q = g <$> q' := by
  induction course with
  | first =>
    rw [poll_map]
    exact ⟨_, .first, rfl⟩
  | again _ waits later changed ih =>
    obtain ⟨q', course, rfl⟩ := ih
    rw [poll_map]
    refine ⟨_, .again course ?_ later changed, rfl⟩
    rw [answer?_map] at waits
    exact Option.map_eq_none_iff.1 waits

/-- Whatever is made of the answer, a process takes the same courses. -/
theorem reaches_map_iff (p : Process σ α) (g : α → β) (outcome : Option (Except Crash β)) :
    (∃ q, Reaches others (g <$> p) now s q t s' ∧ q.answer? = outcome) ↔
      ∃ q, Reaches others p now s q t s' ∧ q.answer?.map (Except.map g) = outcome := by
  constructor
  · rintro ⟨q, course, rfl⟩
    obtain ⟨q', course', rfl⟩ := course.of_map
    exact ⟨q', course', (answer?_map g q').symm⟩
  · rintro ⟨q, course, rfl⟩
    exact ⟨g <$> q, course.map g, answer?_map g q⟩

/-- The first wait of a course can be split off. -/
theorem Reaches.resume {p q : Process σ α} {t' : Nat} {s'' : σ}
    (waits : (p.poll now s).left.answer? = none) (later : now ≤ t)
    (changed : others (p.poll now s).state s')
    (rest : Reaches others (p.poll now s).left t s' q t' s'') : Reaches others p now s q t' s'' := by
  induction rest with
  | first => exact .again .first waits later changed
  | again _ waitsAgain laterStill changedAgain ih => exact .again ih waitsAgain laterStill changedAgain

/-! ### Waits, races and guards -/

/-- What is left of a wait at an instant. -/
def waited (instant now : Nat) : Process σ Unit :=
  if instant ≤ now then .done () else .waitUntil instant .done

theorem poll_waitUntil (instant now : Nat) (s : σ) :
    (Process.waitUntil instant .done).poll now s = ⟨waited instant now, s, []⟩ := by
  simp only [poll, waited]
  split
  · rfl
  · rfl

theorem waited_eq {instant now : Nat} (waits : (waited instant now : Process σ Unit).answer? = none) :
    (waited instant now : Process σ Unit) = .waitUntil instant .done := by
  unfold waited at waits ⊢
  split at waits
  · cases waits
  · next early => exact if_neg early

/-- What is left of a race at an instant, given what is left of its body. -/
def raced (instant now : Nat) : Process σ β → Process σ (Option β)
  | .done b => .done (some b)
  | .crash cause => .crash cause
  | left => if instant ≤ now then .done none else .within instant left .done

theorem poll_within (instant : Nat) (body : Process σ β) (now : Nat) (s : σ) :
    (Process.within instant body .done).poll now s =
      ⟨raced instant now (body.poll now s).left, (body.poll now s).state,
        (body.poll now s).started⟩ := by
  simp only [poll]
  cases (body.poll now s).left
  case done b => simp only [Progress.after, raced, List.append_nil]
  case crash cause => rfl
  all_goals
    simp only [raced]
    split
    · simp only [Progress.after, List.append_nil]
    · rfl

theorem raced_of_waits {body : Process σ β} (waits : body.answer? = none) (instant now : Nat) :
    raced instant now body = if instant ≤ now then .done none else .within instant body .done := by
  cases body <;> cases waits <;> rfl

theorem raced_eq {instant now : Nat} {body : Process σ β}
    (waits : (raced instant now body).answer? = none) :
    body.answer? = none ∧ raced instant now body = .within instant body .done := by
  cases body
  case done b => cases waits
  case crash cause => cases waits
  all_goals
    simp only [raced] at waits ⊢
    split at waits
    · cases waits
    · next early => exact ⟨rfl, if_neg early⟩

theorem Reaches.of_within {instant : Nat} {body : Process σ β} {q : Process σ (Option β)}
    (course : Reaches others (.within instant body .done) now s q t s') :
    ∃ body', Reaches others body now s body' t s' ∧ q = raced instant t body' := by
  induction course with
  | first =>
    rw [poll_within]
    exact ⟨_, .first, rfl⟩
  | again _ waits later changed ih =>
    obtain ⟨body', course, rfl⟩ := ih
    have ⟨bodyWaits, same⟩ := raced_eq waits
    rw [same, poll_within]
    exact ⟨_, .again course bodyWaits later changed, rfl⟩

/-- What is left of a guard, given what is left of its body. -/
def caught : Process σ β → Process σ (Except Crash β)
  | .done b => .done (.ok b)
  | .crash cause => .done (.error cause)
  | left => .guarded left .done

theorem poll_guarded (body : Process σ β) (now : Nat) (s : σ) :
    (Process.guarded body .done).poll now s =
      ⟨caught (body.poll now s).left, (body.poll now s).state, (body.poll now s).started⟩ := by
  simp only [poll]
  cases (body.poll now s).left
  case done b => simp only [Progress.after, caught, List.append_nil]
  case crash cause => simp only [Progress.after, caught, List.append_nil]
  all_goals rfl

theorem caught_of_waits {body : Process σ β} (waits : body.answer? = none) :
    caught body = .guarded body .done := by
  cases body <;> cases waits <;> rfl

theorem caught_eq {body : Process σ β} (waits : (caught body).answer? = none) :
    body.answer? = none ∧ caught body = .guarded body .done := by
  cases body
  case done b => cases waits
  case crash cause => cases waits
  all_goals exact ⟨rfl, rfl⟩

theorem Reaches.of_guarded {body : Process σ β} {q : Process σ (Except Crash β)}
    (course : Reaches others (.guarded body .done) now s q t s') :
    ∃ body', Reaches others body now s body' t s' ∧ q = caught body' := by
  induction course with
  | first =>
    rw [poll_guarded]
    exact ⟨_, .first, rfl⟩
  | again _ waits later changed ih =>
    obtain ⟨body', course, rfl⟩ := ih
    have ⟨bodyWaits, same⟩ := caught_eq waits
    rw [same, poll_guarded]
    exact ⟨_, .again course bodyWaits later changed, rfl⟩

/-! ### Side by side -/

/-- What is left of two processes side by side, given what is left of each. -/
def joined : Process σ β → Process σ γ → Process σ (β × γ)
  | .crash cause, _ => .crash cause
  | _, .crash cause => .crash cause
  | .done b, .done c => .done (b, c)
  | left, right => .both left right fun b c => .done (b, c)

/-- A crash on the left keeps the right from being carried on. -/
theorem poll_both_crash {left : Process σ β} {cause : Crash} (right : Process σ γ)
    (crashed : (left.poll now s).left = .crash cause) :
    (Process.both left right fun b c => .done (b, c)).poll now s =
      ⟨.crash cause, (left.poll now s).state, (left.poll now s).started⟩ := by
  simp only [poll, crashed]

theorem poll_both {left : Process σ β} (right : Process σ γ)
    (calm : ∀ cause, (left.poll now s).left ≠ .crash cause) :
    (Process.both left right fun b c => .done (b, c)).poll now s =
      ⟨joined (left.poll now s).left (right.poll now (left.poll now s).state).left,
        (right.poll now (left.poll now s).state).state,
        (left.poll now s).started ++ (right.poll now (left.poll now s).state).started⟩ := by
  simp only [poll]
  generalize right.poll now (left.poll now s).state = r
  obtain ⟨rightPart, s₂, started⟩ := r
  cases leftPart : (left.poll now s).left
  case crash cause => exact absurd leftPart (calm cause)
  case done b =>
    cases rightPart
    case done c => simp only [Progress.after, joined, List.append_nil]
    all_goals rfl
  all_goals
    cases rightPart
    all_goals rfl

/-- Two processes side by side get as far as each of them does, unless the left one crashes. -/
theorem poll_both_cases (left : Process σ β) (right : Process σ γ) (now : Nat) (s : σ) :
    (∃ cause, (left.poll now s).left = .crash cause ∧
      (Process.both left right fun b c => .done (b, c)).poll now s =
        ⟨.crash cause, (left.poll now s).state, (left.poll now s).started⟩) ∨
    (∀ cause, (left.poll now s).left ≠ .crash cause) ∧
      (Process.both left right fun b c => .done (b, c)).poll now s =
        ⟨joined (left.poll now s).left (right.poll now (left.poll now s).state).left,
          (right.poll now (left.poll now s).state).state,
          (left.poll now s).started ++ (right.poll now (left.poll now s).state).started⟩ := by
  by_cases crashed : ∃ cause, (left.poll now s).left = .crash cause
  · obtain ⟨cause, crashed⟩ := crashed
    exact .inl ⟨cause, crashed, poll_both_crash right crashed⟩
  · have calm (cause : Crash) (same : (left.poll now s).left = .crash cause) : False :=
      crashed ⟨cause, same⟩
    exact .inr ⟨calm, poll_both right calm⟩

theorem left_poll_both (left : Process σ β) (right : Process σ γ) (now : Nat) (s : σ) :
    ((Process.both left right fun b c => .done (b, c)).poll now s).left =
      joined (left.poll now s).left (right.poll now (left.poll now s).state).left := by
  rcases poll_both_cases left right now s with ⟨cause, crashed, same⟩ | ⟨_, same⟩
  · rw [same, crashed]
    rfl
  · rw [same]

theorem joined_eq {left : Process σ β} {right : Process σ γ} (waits : (joined left right).answer? = none) :
    joined left right = .both left right fun b c => .done (b, c) := by
  cases left
  case crash cause => cases waits
  case done b =>
    cases right
    case done c => cases waits
    case crash cause => cases waits
    all_goals rfl
  all_goals
    cases right
    case crash cause => cases waits
    all_goals rfl

theorem joined_eq_done {left : Process σ β} {right : Process σ γ} {x : β × γ}
    (ended : joined left right = .done x) : left = .done x.1 ∧ right = .done x.2 := by
  cases left
  case done b =>
    cases right
    case done c =>
      cases ended
      exact ⟨rfl, rfl⟩
    all_goals cases ended
  case crash cause => cases ended
  all_goals
    cases right
    all_goals cases ended

theorem joined_of_waits {left : Process σ β} {right : Process σ γ}
    (calm : ∀ cause, left ≠ .crash cause) (calm' : ∀ cause, right ≠ .crash cause)
    (waits : left.answer? = none ∨ right.answer? = none) :
    joined left right = .both left right fun b c => .done (b, c) := by
  cases left
  case crash cause => exact absurd rfl (calm cause)
  case done b =>
    cases right
    case crash cause => exact absurd rfl (calm' cause)
    case done c => rcases waits with waits | waits <;> cases waits
    all_goals rfl
  all_goals
    cases right
    case crash cause => exact absurd rfl (calm' cause)
    all_goals rfl

theorem joined_crash {left : Process σ β} (calm : ∀ cause, left ≠ .crash cause) (cause : Crash) :
    joined left (.crash cause : Process σ γ) = .crash cause := by
  cases left with
  | crash cause => exact absurd rfl (calm cause)
  | _ => rfl

theorem left_poll_of_answer? {p : Process σ α} {outcome : Except Crash α}
    (ended : p.answer? = some outcome) (t : Nat) (s : σ) : (p.poll t s).left = p := by
  cases p with
  | done a => rfl
  | crash cause => rfl
  | _ => cases ended

/-- A side that is over leaves the other one alone. -/
theorem Reaches.of_both_done {left : Process σ β} {c : γ} {q : Process σ (β × γ)}
    (course : Reaches others (.both left (.done c) fun b c => .done (b, c)) now s q t s') :
    ∃ left', Reaches others left now s left' t s' ∧ q = joined left' (.done c) := by
  have alone (left : Process σ β) (now : Nat) (s : σ) :
      ((Process.both left (.done c) fun b c => .done (b, c)).poll now s).state =
        (left.poll now s).state := by
    rcases poll_both_cases left (.done c : Process σ γ) now s with ⟨_, _, same⟩ | ⟨_, same⟩
    · rw [same]
    · rw [same]
      rfl
  induction course with
  | first =>
    rw [left_poll_both, alone]
    exact ⟨_, .first, rfl⟩
  | again _ waits later changed ih =>
    obtain ⟨left', course, rfl⟩ := ih
    have leftWaits : left'.answer? = none := by
      cases left' with
      | done b => cases waits
      | crash cause => cases waits
      | _ => rfl
    rw [joined_eq waits, left_poll_both, alone]
    exact ⟨_, .again course leftWaits later changed, rfl⟩

/-- By some instant a process has got so far, whatever others have done to the state meanwhile. -/
def Gets (p : Process σ α) (now : Nat) (s : σ) (q : Process σ α) (t : Nat) : Prop :=
  ∃ t' ≤ t, ∃ s', Reaches (fun _ _ => True) p now s q t' s'

theorem Gets.poll {p q : Process σ α} {t' : Nat} (gets : Gets p now s q t) (later : t ≤ t') (s' : σ) :
    Gets p now s (q.poll t' s').left t' := by
  obtain ⟨t₁, before, s₁, course⟩ := gets
  cases answered : q.answer? with
  | none => exact ⟨t', Nat.le_refl t', _, .again course answered (Nat.le_trans before later) trivial⟩
  | some outcome =>
    rw [left_poll_of_answer? answered]
    exact ⟨t₁, Nat.le_trans before later, s₁, course⟩

theorem Reaches.of_both {left : Process σ β} {right : Process σ γ} {q : Process σ (β × γ)}
    (course : Reaches others (.both left right fun b c => .done (b, c)) now s q t s') :
    (∃ cause, q = .crash cause) ∨ ∃ s₀ left' right', q = joined left' right' ∧
      Gets left now s left' t ∧ Gets right now s₀ right' t := by
  -- The right side is begun in the state that the left one has left behind.
  have carried {left' : Process σ β} {right' : Process σ γ} {s₀ s₁ : σ} {t' : Nat}
      (first : Gets left now s (left'.poll t' s₁).left t')
      (second : Gets right now s₀ (right'.poll t' (left'.poll t' s₁).state).left t') :
      let r := (Process.both left' right' fun b c => .done (b, c)).poll t' s₁
      (∃ cause, r.left = .crash cause) ∨ ∃ s₀ left'' right'', r.left = joined left'' right'' ∧
        Gets left now s left'' t' ∧ Gets right now s₀ right'' t' := by
    rcases poll_both_cases left' right' t' s₁ with ⟨cause, _, same⟩ | ⟨_, same⟩
    · exact .inl ⟨cause, congrArg Progress.left same⟩
    · exact .inr ⟨_, _, _, congrArg Progress.left same, first, second⟩
  induction course with
  | first =>
    exact carried ⟨now, Nat.le_refl now, _, .first⟩ ⟨now, Nat.le_refl now, _, .first⟩
  | again _ waits later changed ih =>
    rcases ih with ⟨cause, rfl⟩ | ⟨s₀, left', right', rfl, first, second⟩
    · cases waits
    · rw [joined_eq waits]
      exact carried (first.poll later _) (second.poll later _)

end

end Hearth.Process

namespace Hearth.Timeline

variable {σ α : Type}

theorem now_runServices (t : Timeline σ) : t.runServices.now = t.now := by
  unfold runServices
  generalize t.services = services
  induction services generalizing t with
  | nil => rfl
  | cons service rest ih =>
    rw [List.foldl_cons, ih]
    dsimp only
    split
    · rfl
    · rfl

theorem now_settle (t : Timeline σ) (rounds : Nat) : (t.settle rounds).now = t.now := by
  induction rounds generalizing t with
  | zero => rfl
  | succ rounds ih =>
    unfold settle
    split
    · rfl
    · rw [ih, now_runServices]
      rfl

/-- What the others make of a state at one instant. -/
def Settled (s s' : σ) : Prop :=
  ∃ t : Timeline σ, t.state = s ∧ (t.settle roundLimit).state = s'

/-- A process that a timeline carries to its end has run its course, with the others settling in each
wait. -/
theorem reaches_of_complete {p : Process σ α} {instants : Nat} {t t' : Timeline σ}
    {answer : Except Crash α} (completed : t.complete p instants = (some answer, t')) :
    ∃ q now s, p.Reaches Settled t.now t.state q now s ∧ q.answer? = some answer ∧
      Settled s t'.state := by
  induction instants generalizing p t with
  | zero => cases completed
  | succ instants ih =>
    unfold complete at completed
    let polled : Timeline σ :=
      { t with
        state := (p.poll t.now t.state).state
        jobs := t.jobs ++ (p.poll t.now t.state).started }
    have settled : Settled (p.poll t.now t.state).state (polled.settle roundLimit).state :=
      ⟨polled, rfl, rfl⟩
    have still : (polled.settle roundLimit).now = t.now := now_settle polled roundLimit
    dsimp only at completed
    cases left : (p.poll t.now t.state).left.answer? with
    | some ending =>
      rw [left] at completed
      obtain ⟨rfl, rfl⟩ : ending = answer ∧ polled.settle roundLimit = t' := by
        simpa using completed
      exact ⟨_, _, _, .first, left, settled⟩
    | none =>
      rw [left] at completed
      dsimp only at completed
      split at completed
      · cases completed
      · next instant _ =>
        obtain ⟨q, now, s, course, ended, last⟩ := ih completed
        refine ⟨q, now, s, .resume left ?_ settled course, ended, last⟩
        calc t.now
            = (polled.settle roundLimit).now := still.symm
          _ ≤ max (polled.settle roundLimit).now instant := Nat.le_max_left _ _

end Hearth.Timeline

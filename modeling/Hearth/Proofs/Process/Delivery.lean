import Hearth.Proofs.Process.Course

/-!
# Hearth.Proofs.Process.Delivery

Processes that are carried on exactly when they can get further: when they are over, with what answer,
and in what state, although others change the state while they wait.

## Main definitions

* `Terms`: what the others may do to the state, and what the process itself may do to it.
* `Process.Delivers`: a process begun at an instant ends without a crash, keeps to the terms, and a
  relation of its answer, the instant of its end and the state holds.

## Main results

* `Process.Delivers.bind`, `.within`, `.guarded` and `.both`: processes that are made of others.
* `Timeline.Alone.concludes`: where nothing else goes on, a timeline carries the process to that end.
-/

namespace Hearth

/-- What the others may do to the state while a process waits, and what the process does to it. -/
structure Terms (σ : Type) where
  others : σ → σ → Prop
  own : σ → σ → Prop
  others_refl : ∀ s, others s s
  others_trans : ∀ {s s' s''}, others s s' → others s' s'' → others s s''
  own_refl : ∀ s, own s s
  own_trans : ∀ {s s' s''}, own s s' → own s' s'' → own s s''

namespace Process

variable {σ α β γ : Type}

/-- The process gets no further before the instant, and is to be carried on then. -/
structure RestsUntil (p : Process σ α) (instant : Nat) : Prop where
  due : p.deadline? = some instant
  still : ∀ t s, t < instant → p.poll t s = ⟨p, s, []⟩

/-- Begun at an instant and in a state, and carried on whenever it can get further, the process ends
with an answer, at an instant and in a state of which `Q` holds. `W` holds of the state in which it
begins to wait. -/
inductive Delivers (terms : Terms σ) (W : σ → Prop) (Q : α → Nat → σ → Prop) :
    Process σ α → Nat → σ → Prop
  | ends {p : Process σ α} {now : Nat} {s s' : σ} {a : α}
      (polled : p.poll now s = ⟨.done a, s', []⟩) (own : terms.own s s') (holds : Q a now s') :
      Delivers terms W Q p now s
  | waits {p q : Process σ α} {now instant : Nat} {s s' : σ}
      (polled : p.poll now s = ⟨q, s', []⟩) (own : terms.own s s') (kept : W s')
      (rests : q.RestsUntil instant) (later : now < instant)
      (carried : ∀ s'', terms.others s' s'' → Delivers terms W Q q instant s'') :
      Delivers terms W Q p now s

variable {terms : Terms σ} {W : σ → Prop} {Q : α → Nat → σ → Prop} {R : β → Nat → σ → Prop}
variable {now : Nat} {s : σ}

theorem RestsUntil.not_done {p : Process σ α} {instant : Nat} (rests : p.RestsUntil instant) (a : α) :
    p ≠ .done a := by
  rintro rfl
  cases rests.due

theorem RestsUntil.answer? {p : Process σ α} {instant : Nat} (rests : p.RestsUntil instant) :
    p.answer? = none := by
  cases p with
  | done a => cases rests.due
  | crash cause => cases rests.due
  | _ => rfl

/-! ### Consequences -/

theorem Delivers.mono {terms' : Terms σ} {W' : σ → Prop} {Q' : α → Nat → σ → Prop} {p : Process σ α}
    (delivers : p.Delivers terms W Q now s) (others : ∀ s s', terms'.others s s' → terms.others s s')
    (own : ∀ s s', terms.own s s' → terms'.own s s') (kept : ∀ s, W s → W' s)
    (ended : ∀ a t s, Q a t s → Q' a t s) : p.Delivers terms' W' Q' now s := by
  induction delivers with
  | ends polled self holds => exact .ends polled (own _ _ self) (ended _ _ _ holds)
  | waits polled self waiting rests later carried ih =>
    exact .waits polled (own _ _ self) (kept _ waiting) rests later
      fun s'' changed => ih s'' (others _ _ changed)

theorem Delivers.imp {Q' : α → Nat → σ → Prop} {p : Process σ α} (delivers : p.Delivers terms W Q now s)
    (ended : ∀ a t s, Q a t s → Q' a t s) : p.Delivers terms W Q' now s :=
  delivers.mono (fun _ _ => id) (fun _ _ => id) (fun _ => id) ended

/-- What is left in peace by the others and by the process is kept. -/
theorem Delivers.frame {p : Process σ α} (F : σ → Prop)
    (byOthers : ∀ s s', terms.others s s' → F s → F s') (bySelf : ∀ s s', terms.own s s' → F s → F s')
    (delivers : p.Delivers terms W Q now s) (holds : F s) :
    p.Delivers terms W (fun a t s => Q a t s ∧ F s) now s := by
  induction delivers with
  | ends polled self ended => exact .ends polled self ⟨ended, bySelf _ _ self holds⟩
  | waits polled self waiting rests later carried ih =>
    exact .waits polled self waiting rests later
      fun s'' changed => ih s'' changed (byOthers _ _ changed (bySelf _ _ self holds))

/-- The process does get to its end if the others leave it alone. -/
theorem Delivers.exists_answer {p : Process σ α} (delivers : p.Delivers terms W Q now s) :
    ∃ a t s', now ≤ t ∧ Q a t s' := by
  induction delivers with
  | ends _ _ holds => exact ⟨_, _, _, Nat.le_refl _, holds⟩
  | waits _ _ _ _ later _ ih =>
    obtain ⟨a, t, s', after, holds⟩ := ih _ (terms.others_refl _)
    exact ⟨a, t, s', Nat.le_trans (Nat.le_of_lt later) after, holds⟩

/-- A process that gets on like another one delivers the same. -/
theorem Delivers.of_poll_eq {p q : Process σ α} {s' : σ} (same : p.poll now s = q.poll now s')
    (own : terms.own s s') (delivers : q.Delivers terms W Q now s') : p.Delivers terms W Q now s := by
  cases delivers with
  | ends polled self holds => exact .ends (same.trans polled) (terms.own_trans own self) holds
  | waits polled self kept rests later carried =>
    exact .waits (same.trans polled) (terms.own_trans own self) kept rests later carried

/-- Carried on too early, a process that rests delivers what it delivers when it is due. -/
theorem RestsUntil.delivers {p : Process σ α} {instant : Nat} (rests : p.RestsUntil instant)
    (early : now < instant) (kept : W s)
    (carried : ∀ s', terms.others s s' → p.Delivers terms W Q instant s') :
    p.Delivers terms W Q now s :=
  .waits (rests.still now s early) (terms.own_refl s) kept rests early carried

/-! ### Elementary processes -/

theorem Delivers.pure {a : α} (holds : Q a now s) :
    (Pure.pure a : Process σ α).Delivers terms W Q now s :=
  .ends rfl (terms.own_refl s) holds

theorem Delivers.step {f : Nat → σ → α × σ} (own : terms.own s (f now s).2)
    (holds : Q (f now s).1 now (f now s).2) : (Process.step f).Delivers terms W Q now s :=
  .ends rfl own holds

theorem Delivers.clock : (Process.now : Process σ Nat).Delivers terms W
    (fun a t s' => a = now ∧ t = now ∧ s' = s) now s :=
  .ends rfl (terms.own_refl s) ⟨rfl, rfl, rfl⟩

theorem Delivers.view (f : σ → α) : (Process.view f).Delivers terms W
    (fun a t s' => a = f s ∧ t = now ∧ s' = s) now s :=
  .ends rfl (terms.own_refl s) ⟨rfl, rfl, rfl⟩

theorem Delivers.change {f : Nat → σ → σ} (own : terms.own s (f now s)) :
    (Process.change f).Delivers terms W (fun _ t s' => t = now ∧ s' = f now s) now s :=
  .ends (a := ()) rfl own ⟨rfl, rfl⟩

/-- After a wait the others may have changed the state. -/
theorem Delivers.waitUntil {instant : Nat} (after : now ≤ instant) (kept : W s) :
    (Process.waitUntil instant .done).Delivers terms W
      (fun _ t s' => t = instant ∧ terms.others s s') now s := by
  have arrives (s' : σ) (changed : terms.others s s') : (Process.waitUntil instant .done).Delivers
      terms W (fun _ t s' => t = instant ∧ terms.others s s') instant s' := by
    refine .ends (a := ()) ?_ (terms.own_refl s') ⟨rfl, changed⟩
    rw [poll_waitUntil, waited, if_pos (Nat.le_refl instant)]
  rcases Nat.eq_or_lt_of_le after with rfl | before
  · exact arrives s (terms.others_refl s)
  · refine RestsUntil.delivers ⟨rfl, fun t s early => ?_⟩ before kept arrives
    rw [poll_waitUntil, waited, if_neg (Nat.not_le_of_lt early)]

/-! ### Sequences -/

theorem RestsUntil.bind {p : Process σ α} {instant : Nat} (rests : p.RestsUntil instant)
    (k : α → Process σ β) : (p.bind k).RestsUntil instant := by
  constructor
  · rw [deadline?_bind rests.not_done]
    exact rests.due
  · intro t s early
    cases poll_bind p k t s with
    | on ended =>
      rw [rests.still t s early] at ended
      exact absurd ended (rests.not_done _)
    | short _ same => rw [same, rests.still t s early]

theorem Delivers.bind {p : Process σ α} {k : α → Process σ β}
    (first : p.Delivers terms W Q now s)
    (rest : ∀ a t s', Q a t s' → (k a).Delivers terms W R t s') :
    (p >>= k).Delivers terms W R now s := by
  -- The induction is on how often the first part is carried on. Its last time is the first time of
  -- the rest, at the same instant.
  induction first with
  | @ends p now s s' a polled own holds =>
    refine (rest a now s' holds).of_poll_eq ?_ own
    cases poll_bind p k now s with
    | on ended same =>
      rw [polled] at ended same
      cases ended
      exact same
    | short more => exact absurd (by rw [polled]) (more a)
  | @waits p q now instant s s' polled own kept rests later carried ih =>
    refine .waits ?_ own kept (rests.bind k) later ih
    cases poll_bind p k now s with
    | on ended =>
      rw [polled] at ended
      exact absurd ended (rests.not_done _)
    | short _ same =>
      rw [polled] at same
      exact same

theorem Delivers.sleep (d : Duration) (kept : W s) : (Process.sleep d).Delivers terms W
    (fun _ t s' => t = now + d.waitMillis ∧ terms.others s s') now s := by
  refine Delivers.clock.bind ?_
  rintro _ _ _ ⟨rfl, rfl, rfl⟩
  exact .waitUntil (Nat.le_add_right _ _) kept

/-! ### Races and guards -/

theorem RestsUntil.raced {p : Process σ α} {due : Nat} (rests : p.RestsUntil due) (instant now : Nat) :
    raced instant now p = if instant ≤ now then .done none else .within instant p .done :=
  raced_of_waits rests.answer? instant now

theorem RestsUntil.within {p : Process σ α} {due : Nat} (rests : p.RestsUntil due) (instant : Nat) :
    (Process.within instant p .done).RestsUntil (min instant due) := by
  constructor
  · rw [deadline?, rests.due]
    rfl
  · intro t s early
    rw [poll_within, rests.still t s (Nat.lt_of_lt_of_le early (Nat.min_le_right _ _)), rests.raced,
      if_neg (Nat.not_le_of_lt (Nat.lt_of_lt_of_le early (Nat.min_le_left _ _)))]

/-- A body that is in time has the last word; one that is not is dropped at the instant of the race,
before it gets to the end that it would have come to. -/
def RaceEnds (W : σ → Prop) (Q : α → Nat → σ → Prop) (instant : Nat) :
    Option α → Nat → σ → Prop
  | some a, t, s => t ≤ instant ∧ Q a t s
  | none, t, s => t = instant ∧ W s ∧ ∃ a t' s', instant < t' ∧ Q a t' s'

theorem Delivers.within {body : Process σ α} {instant : Nat} (before : now ≤ instant)
    (stable : ∀ s s', terms.others s s' → W s → W s') (delivers : body.Delivers terms W Q now s) :
    (Process.within instant body .done).Delivers terms W (RaceEnds W Q instant) now s := by
  induction delivers with
  | @ends p now s s' a polled own holds =>
    refine .ends (a := some a) ?_ own ⟨before, holds⟩
    rw [poll_within, polled]
    rfl
  | @waits p q now due s s' polled own kept rests later carried ih =>
    have dropped {s'' : σ} (changed : terms.others s' s'') (early : instant < due) :
        RaceEnds W Q instant none instant s'' := by
      obtain ⟨a, t, s₁, after, holds⟩ := (carried s'' changed).exists_answer
      exact ⟨rfl, stable _ _ changed kept, a, t, s₁, Nat.lt_of_lt_of_le early after, holds⟩
    rcases Nat.eq_or_lt_of_le before with rfl | before
    · -- The race is over at once.
      refine .ends (a := none) ?_ own (dropped (terms.others_refl s') later)
      rw [poll_within, polled, rests.raced, if_pos (Nat.le_refl now)]
    · refine .waits ?_ own kept (rests.within instant) (Nat.lt_min.2 ⟨before, later⟩) ?_
      · rw [poll_within, polled, rests.raced, if_neg (Nat.not_le_of_lt before)]
      · intro s'' changed
        -- A body that is due at the very end of the race is still carried on.
        rcases Nat.lt_or_ge instant due with early | inTime
        · rw [Nat.min_eq_left (Nat.le_of_lt early)]
          refine .ends (a := none) ?_ (terms.own_refl s'') (dropped changed early)
          rw [poll_within, rests.still instant s'' early, rests.raced, if_pos (Nat.le_refl instant)]
        · rw [Nat.min_eq_right inTime]
          exact ih s'' changed inTime

theorem Delivers.limited {body : Process σ α} (d : Duration)
    (stable : ∀ s s', terms.others s s' → W s → W s') (delivers : body.Delivers terms W Q now s) :
    (Process.limited d body).Delivers terms W (RaceEnds W Q (now + d.millisUp)) now s := by
  refine Delivers.clock.bind ?_
  rintro _ _ _ ⟨rfl, rfl, rfl⟩
  exact .within (Nat.le_add_right _ _) stable delivers

theorem RestsUntil.caught {p : Process σ α} {instant : Nat} (rests : p.RestsUntil instant) :
    caught p = .guarded p .done :=
  caught_of_waits rests.answer?

/-- A guard takes note that nothing has crashed. -/
theorem Delivers.guarded {body : Process σ α} (delivers : body.Delivers terms W Q now s) :
    (Process.guarded body .done).Delivers terms W
      (fun outcome t s => ∃ a, outcome = .ok a ∧ Q a t s) now s := by
  induction delivers with
  | @ends p now s s' a polled own holds =>
    refine .ends (a := .ok a) ?_ own ⟨a, rfl, holds⟩
    rw [poll_guarded, polled]
    rfl
  | @waits p q now instant s s' polled own kept rests later carried ih =>
    refine .waits ?_ own kept ⟨rests.due, fun t s early => ?_⟩ later ih
    · rw [poll_guarded, polled, rests.caught]
    · rw [poll_guarded, rests.still t s early, rests.caught]

/-! ### Side by side -/

theorem RestsUntil.not_crash {p : Process σ α} {instant : Nat} (rests : p.RestsUntil instant)
    (cause : Crash) : p ≠ .crash cause :=
  ne_crash_of_waits rests.answer? cause

section

variable {left left' : Process σ β} {right right' : Process σ γ} {next : β → γ → Process σ α}
variable {s₁ s₂ : σ}

theorem poll_both_done {b : β} {c : γ} (first : left.poll now s = ⟨.done b, s₁, []⟩)
    (second : right.poll now s₁ = ⟨.done c, s₂, []⟩) :
    (Process.both left right next).poll now s = (next b c).poll now s₂ := by
  simp only [poll, first, second, Progress.after, List.nil_append]

theorem poll_both_short (first : left.poll now s = ⟨left', s₁, []⟩)
    (second : right.poll now s₁ = ⟨right', s₂, []⟩) (calm : ∀ cause, left' ≠ .crash cause)
    (calm' : ∀ cause, right' ≠ .crash cause) (more : (∀ b, left' ≠ .done b) ∨ ∀ c, right' ≠ .done c) :
    (Process.both left right next).poll now s = ⟨.both left' right' next, s₂, []⟩ := by
  simp only [poll, first, second, Progress.after, List.nil_append]
  cases left'
  case crash cause => exact absurd rfl (calm cause)
  case done b =>
    cases right'
    case crash cause => exact absurd rfl (calm' cause)
    case done c => exact more.elim (fun other => absurd rfl (other b)) fun other => absurd rfl (other c)
    all_goals rfl
  all_goals
    cases right'
    case crash cause => exact absurd rfl (calm' cause)
    all_goals rfl

theorem RestsUntil.both {instant instant' : Nat} (rests : left.RestsUntil instant)
    (rests' : right.RestsUntil instant') :
    (Process.both left right next).RestsUntil (min instant instant') := by
  constructor
  · rw [deadline?, rests.due, rests'.due]
    rfl
  · intro t s early
    exact poll_both_short (rests.still t s (Nat.lt_of_lt_of_le early (Nat.min_le_left _ _)))
      (rests'.still t s (Nat.lt_of_lt_of_le early (Nat.min_le_right _ _))) rests.not_crash
      rests'.not_crash (.inl rests.not_done)

theorem RestsUntil.both_left {instant : Nat} {c : γ} (rests : left.RestsUntil instant) :
    (Process.both left (.done c) next).RestsUntil instant := by
  constructor
  · rw [deadline?, rests.due]
    rfl
  · intro t s early
    exact poll_both_short (rests.still t s early) rfl rests.not_crash (done_ne_crash c)
      (.inl rests.not_done)

theorem RestsUntil.both_right {instant : Nat} {b : β} (rests : right.RestsUntil instant) :
    (Process.both (.done b) right next).RestsUntil instant := by
  constructor
  · rw [deadline?, rests.due]
    rfl
  · intro t s early
    exact poll_both_short rfl (rests.still t s early) (done_ne_crash b) rests.not_crash
      (.inr rests.not_done)

end

/-- Two processes may go on side by side: neither does anything that the other does not put up with. -/
structure Beside (terms termsL termsR : Terms σ) : Prop where
  others_left : ∀ {s s'}, terms.others s s' → termsL.others s s'
  others_right : ∀ {s s'}, terms.others s s' → termsR.others s s'
  own_left : ∀ {s s'}, termsL.own s s' → terms.own s s'
  own_right : ∀ {s s'}, termsR.own s s' → terms.own s s'
  left_right : ∀ {s s'}, termsL.own s s' → termsR.others s s'
  right_left : ∀ {s s'}, termsR.own s s' → termsL.others s s'

section

variable {termsL termsR : Terms σ} {L : β → σ → Prop} {R : γ → σ → Prop} {f : β → γ → α}
variable {left : Process σ β} {right : Process σ γ}

/-- What both sides come to. -/
def BothEnd (L : β → σ → Prop) (R : γ → σ → Prop) (f : β → γ → α) (a : α) (_ : Nat) (s : σ) : Prop :=
  ∃ b c, a = f b c ∧ L b s ∧ R c s

/-- The left side is over, and the right side goes on. -/
theorem Delivers.both_of_done (beside : Beside terms termsL termsR)
    (stable : ∀ b s s', termsL.others s s' → L b s → L b s') {b : β} (holds : L b s)
    (delivers : right.Delivers termsR (fun _ => True) (fun c _ => R c) now s) :
    (Process.both (.done b) right fun b c => .done (f b c)).Delivers terms (fun _ => True)
      (BothEnd L R f) now s := by
  induction delivers with
  | @ends p now s s' c polled own ended =>
    have holds := stable b _ _ (beside.right_left own) holds
    refine .ends (a := f b c) ?_ (beside.own_right own) ⟨b, c, rfl, holds, ended⟩
    rw [poll_both_done rfl polled]
    rfl
  | waits polled own _ rests later carried ih =>
    refine .waits (poll_both_short rfl polled (done_ne_crash b) rests.not_crash (.inr rests.not_done))
      (beside.own_right own) trivial rests.both_right later fun s'' changed => ?_
    refine ih s'' (beside.others_right changed) ?_
    exact stable b _ _ (termsL.others_trans (beside.right_left own) (beside.others_left changed)) holds

/-- The left side rests, and the right side goes on until the left side is due. -/
theorem Delivers.both_of_rests (beside : Beside terms termsL termsR)
    (stable : ∀ c s s', termsR.others s s' → R c s → R c s') {instant : Nat} {s₀ : σ}
    (rests : left.RestsUntil instant)
    (due : ∀ s, termsL.others s₀ s → ∀ right : Process σ γ, (∀ s', termsR.others s s' →
      right.Delivers termsR (fun _ => True) (fun c _ => R c) instant s') →
      (Process.both left right fun b c => .done (f b c)).Delivers terms (fun _ => True)
        (BothEnd L R f) instant s)
    (early : now < instant) (changed : termsL.others s₀ s)
    (delivers : right.Delivers termsR (fun _ => True) (fun c _ => R c) now s) :
    (Process.both left right fun b c => .done (f b c)).Delivers terms (fun _ => True)
      (BothEnd L R f) now s := by
  induction delivers with
  | @ends p now s s' c polled own ended =>
    refine .waits (poll_both_short (rests.still now s early) polled rests.not_crash (done_ne_crash c)
      (.inl rests.not_done)) (beside.own_right own) trivial rests.both_left early fun s'' later => ?_
    have changed := termsL.others_trans changed (beside.right_left own)
    refine due s'' (termsL.others_trans changed (beside.others_left later)) _ fun s₁ still => ?_
    exact .ends rfl (termsR.own_refl s₁)
      (stable c _ _ (termsR.others_trans (beside.others_right later) still) ended)
  | @waits p q now instant' s s' polled own _ rests' later carried ih =>
    refine .waits (poll_both_short (rests.still now s early) polled rests.not_crash rests'.not_crash
      (.inl rests.not_done)) (beside.own_right own) trivial (rests.both rests')
      (Nat.lt_min.2 ⟨early, later⟩) fun s'' moved => ?_
    have changed := termsL.others_trans changed
      (termsL.others_trans (beside.right_left own) (beside.others_left moved))
    -- The right side goes on alone as long as it is due before the left one.
    rcases Nat.lt_or_ge instant' instant with sooner | notSooner
    · rw [Nat.min_eq_right (Nat.le_of_lt sooner)]
      exact ih s'' (beside.others_right moved) sooner changed
    · rw [Nat.min_eq_left notSooner]
      refine due s'' changed q fun s₁ still => ?_
      have moved := termsR.others_trans (beside.others_right moved) still
      rcases Nat.eq_or_lt_of_le notSooner with rfl | before
      · exact carried s₁ moved
      · exact rests'.delivers before trivial fun s₂ more => carried s₂ (termsR.others_trans moved more)

/-- Two processes side by side, each of which is begun after whatever the other one does first, come
to what both of them come to. -/
theorem Delivers.both (beside : Beside terms termsL termsR)
    (stableL : ∀ b s s', termsL.others s s' → L b s → L b s')
    (stableR : ∀ c s s', termsR.others s s' → R c s → R c s')
    (delivers : left.Delivers termsL (fun _ => True) (fun b _ => L b) now s)
    (delivers' : ∀ s', termsR.others s s' →
      right.Delivers termsR (fun _ => True) (fun c _ => R c) now s') :
    (Process.both left right fun b c => .done (f b c)).Delivers terms (fun _ => True)
      (BothEnd L R f) now s := by
  -- The induction is on how often the left side is carried on; in between the right side is.
  induction delivers generalizing right with
  | @ends p now s s' b polled own holds =>
    have begun := delivers' s' (beside.left_right own)
    refine (Delivers.both_of_done beside stableL holds begun).of_poll_eq ?_ (beside.own_left own)
    simp only [poll, polled, Progress.after, List.nil_append]
  | @waits p q now instant s s' polled own _ rests later carried ih =>
    have begun := delivers' s' (beside.left_right own)
    have due := fun s'' changed right => @ih s'' changed right
    refine (Delivers.both_of_rests beside stableR rests due later (termsL.others_refl s')
      begun).of_poll_eq ?_ (beside.own_left own)
    simp only [poll, polled, rests.still now s' later, Progress.after, List.nil_append]

end

end Process

/-! ### Timelines -/

namespace Timeline

variable {σ α : Type} {t : Timeline σ} {p q : Process σ α} {a : α}

/-- Given enough instants, a process in the foreground ends with the answer, and leaves `t'`. -/
def Concludes (t : Timeline σ) (p : Process σ α) (a : α) (t' : Timeline σ) : Prop :=
  ∃ enough, ∀ instants, enough ≤ instants → t.complete p instants = (some (.ok a), t')

/-- A process has one end only. -/
theorem Concludes.unique {a b : α} {t₁ t₂ : Timeline σ} (first : t.Concludes p a t₁)
    (second : t.Concludes p b t₂) : a = b ∧ t₁ = t₂ := by
  obtain ⟨enough, first⟩ := first
  obtain ⟨enough', second⟩ := second
  have same := (first (max enough enough') (Nat.le_max_left _ _)).symm.trans
    (second (max enough enough') (Nat.le_max_right _ _))
  simpa using same

/-- More instants than a process takes make no difference. -/
theorem complete_of_le {n m : Nat} (enough : n ≤ m)
    (answered : (t.complete p n).1 = some (.ok a)) : t.complete p m = t.complete p n := by
  induction n generalizing t p m with
  | zero => cases answered
  | succ n ih =>
    obtain ⟨m, rfl⟩ := Nat.exists_eq_add_of_le' (Nat.le_trans (Nat.le_add_left 1 n) enough)
    rw [complete] at answered ⊢
    rw [complete]
    split
    · rfl
    · next waits =>
      rw [waits] at answered
      dsimp only at answered
      split
      · rfl
      · next instant next =>
        rw [next] at answered
        exact ih (Nat.le_of_succ_le_succ enough) answered

theorem Concludes.of_complete {n : Nat} (answered : (t.complete p n).1 = some (.ok a)) :
    t.Concludes p a (t.complete p n).2 := by
  refine ⟨n, fun m enough => ?_⟩
  rw [complete_of_le enough answered, ← answered]

/-- Nothing goes on but the process in the foreground. -/
structure Alone (t : Timeline σ) : Prop where
  jobs : t.jobs = []
  services : t.services = []

theorem Alone.settle (alone : t.Alone) (rounds : Nat) : t.settle rounds = t := by
  cases rounds with
  | zero => rfl
  | succ rounds =>
    have quiet : t.isQuiet = true := by simp [isQuiet, alone.jobs, alone.services]
    rw [Timeline.settle, if_pos quiet]

theorem Alone.complete_succ (alone : t.Alone) {s : σ} (polled : p.poll t.now t.state = ⟨q, s, []⟩)
    (instants : Nat) :
    t.complete p (instants + 1) =
      match q.answer? with
      | some answer => (some answer, { t with state := s })
      | none =>
        match q.deadline? with
        | none => (none, { t with state := s })
        | some instant => { t with now := max t.now instant, state := s }.complete q instants := by
  have left : ({ t with state := s } : Timeline σ).Alone := ⟨alone.jobs, alone.services⟩
  have none_left : t.jobs ++ [] = t.jobs := List.append_nil _
  rw [Timeline.complete, polled]
  dsimp only
  rw [none_left, left.settle]
  cases q.answer? with
  | some answer => rfl
  | none =>
    cases due : q.deadline? with
    | none => simp [nextInstant?, alone.jobs, alone.services, Process.earlier]
    | some instant => simp [nextInstant?, alone.jobs, alone.services, Process.earlier]

/-- Where nothing else goes on, a timeline carries a process to the end that it delivers. -/
theorem Alone.concludes {terms : Terms σ} {W : σ → Prop} {Q : α → Nat → σ → Prop} (alone : t.Alone)
    (delivers : p.Delivers terms W Q t.now t.state) :
    ∃ a now s, t.Concludes p a { t with now, state := s } ∧ Q a now s := by
  obtain ⟨now, state, jobs, services⟩ := t
  dsimp only at delivers
  induction delivers with
  | @ends p now s s' a polled own holds =>
    refine ⟨a, now, s', ⟨1, fun instants enough => ?_⟩, holds⟩
    obtain ⟨instants, rfl⟩ := Nat.exists_eq_add_of_le' enough
    rw [Alone.complete_succ alone polled]
    rfl
  | @waits p q now instant s s' polled own kept rests later carried ih =>
    obtain ⟨a, finish, s'', ⟨enough, concludes⟩, holds⟩ :=
      ih s' (terms.others_refl s') ⟨alone.jobs, alone.services⟩
    refine ⟨a, finish, s'', ⟨enough + 1, fun instants more => ?_⟩, holds⟩
    obtain ⟨instants, rfl⟩ := Nat.exists_eq_add_of_le' (Nat.le_trans (Nat.le_add_left 1 enough) more)
    rw [Alone.complete_succ alone polled, rests.answer?, rests.due]
    dsimp only
    rw [Nat.max_eq_right (Nat.le_of_lt later)]
    exact concludes instants (Nat.le_of_succ_le_succ more)

end Timeline

end Hearth

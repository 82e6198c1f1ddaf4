import Hearth.Proofs.Process.Halting
import Hearth.Proofs.Process.Record

/-!
# Hearth.Proofs.Process.Beside

Processes side by side, carried on one after the other at every instant.

## Main definitions

- `Process.pollEach`: each process of a list is carried on, in the state that the one before it has left.
- `Process.Calm`: carried on once, a process has not crashed.
- `Process.Gathers`: a process that answers what the processes of a list answer, or has crashed before it
  had any.

## Main results

- `Process.Gathers.poll`: processes that are gathered are carried on one after the other.
- `Process.Gathers.isDue`: they are due when one of them is.
- `Process.poll_offRecord`: off the record a process gets as far as on it.
-/

namespace Hearth.Process

variable {σ ρ α β γ : Type}

/-! ### Off the record -/

/-- A process that knows nothing of a record gets as far as it gets without one. -/
theorem poll_offRecord (p : Process σ α) (now : Nat) (x : σ × ρ) :
    p.offRecord.poll now x =
      ⟨(p.poll now x.1).left.offRecord, ((p.poll now x.1).state, x.2),
        (p.poll now x.1).started.map offRecord⟩ := by
  induction p generalizing x with
  | done a => rfl
  | crash cause => rfl
  | act step next ih => exact ih (step now x.1).1 ((step now x.1).2, x.2)
  | waitUntil instant next ih =>
    simp only [offRecord, Process.poll]
    split
    · exact ih () x
    · rfl
  | within instant body next ihBody ih =>
    simp only [offRecord, Process.poll, ihBody]
    cases (body.poll now x.1).left
    case done b => simp only [offRecord, ih, Progress.after, List.map_append]
    case crash cause => rfl
    all_goals
      simp only [offRecord]
      split
      · simp only [ih, Progress.after, List.map_append]
      · rfl
  | guarded body next ihBody ih =>
    simp only [offRecord, Process.poll, ihBody]
    cases (body.poll now x.1).left
    case done b => simp only [offRecord, ih, Progress.after, List.map_append]
    case crash cause => simp only [offRecord, ih, Progress.after, List.map_append]
    all_goals rfl
  | both left right next ihLeft ihRight ih =>
    simp only [offRecord, Process.poll, ihLeft, ihRight]
    cases (left.poll now x.1).left
    case crash cause => rfl
    all_goals
      simp only [offRecord, Progress.after]
      generalize right.poll now (left.poll now x.1).state = r
      obtain ⟨rightPart, s', started⟩ := r
      cases rightPart
      all_goals simp only [offRecord, ih, List.map_append]
  | fork child next _ ih =>
    simp only [offRecord, Process.poll, ih, Progress.after, List.map_append, List.map_cons, List.map_nil]

/-! ### Two processes -/

/-- Carried on once, the process has not crashed. -/
def Calm (p : Process σ α) : Prop := ∀ now s cause, (p.poll now s).left ≠ .crash cause

section

variable {p : Process σ α} {q : Process σ β}

theorem Calm.ne_crash (calm : p.Calm) (now : Nat) (s : σ) (cause : Crash) : p ≠ .crash cause := by
  rintro rfl
  exact calm now s cause rfl

/-- What is left of two processes side by side is carried on as they are, the left one first. -/
theorem poll_joined (calm : p.Calm) (calm' : q.Calm) (now : Nat) (s : σ) :
    ((joined p q).poll now s).left =
      joined (p.poll now s).left (q.poll now (p.poll now s).state).left ∧
    ((joined p q).poll now s).state = (q.poll now (p.poll now s).state).state := by
  -- The left one does not crash, so the right one gets its turn.
  have beside := poll_both q (calm now s)
  have onLeft := calm.ne_crash now s
  have onRight := calm'.ne_crash now s
  cases answered : p.answer? with
  | none =>
    rw [joined_of_waits onLeft onRight (.inl answered), beside]
    exact ⟨rfl, rfl⟩
  | some outcome =>
    cases answered' : q.answer? with
    | none =>
      rw [joined_of_waits onLeft onRight (.inr answered'), beside]
      exact ⟨rfl, rfl⟩
    | some outcome' =>
      -- Both are done, and nothing is left to be carried on.
      cases p with
      | done a =>
        cases q with
        | done b => exact ⟨rfl, rfl⟩
        | crash cause => exact absurd rfl (onRight cause)
        | _ => cases answered'
      | crash cause => exact absurd rfl (onLeft cause)
      | _ => cases answered

theorem joined_ne_crash (calm : ∀ cause, p ≠ .crash cause) (calm' : ∀ cause, q ≠ .crash cause)
    (cause : Crash) : joined p q ≠ .crash cause := by
  cases p with
  | done a =>
    cases q with
    | crash cause => exact absurd rfl (calm' cause)
    | _ => exact nofun
  | crash cause => exact absurd rfl (calm cause)
  | _ =>
    cases q with
    | crash cause => exact absurd rfl (calm' cause)
    | _ => exact nofun

theorem isDue_joined (calm : ∀ cause, p ≠ .crash cause) (calm' : ∀ cause, q ≠ .crash cause)
    (now : Nat) : (joined p q).isDue now = (p.isDue now || q.isDue now) := by
  by_cases waits : p.answer? = none ∨ q.answer? = none
  · rw [joined_of_waits calm calm' waits, isDue_both]
  · cases p with
    | done a =>
      cases q with
      | done b => rfl
      | crash cause => exact absurd rfl (calm' cause)
      | _ => exact absurd (.inr rfl) waits
    | crash cause => exact absurd rfl (calm cause)
    | _ => exact absurd (.inl rfl) waits

end

/-- What is carried on cannot be carried on again at the same instant. -/
theorem isDue_left_poll (p : Process σ α) (now : Nat) (s : σ) :
    (p.poll now s).left.isDue now = false := by
  -- A sequence that does not get past its first part waits for what that part waits for.
  have sequence {β γ : Type} {p : Process σ β} {k : β → Process σ γ} {s : σ}
      (first : (p.poll now s).left.isDue now = false)
      (rest : ∀ b s, ((k b).poll now s).left.isDue now = false) :
      ((p.bind k).poll now s).left.isDue now = false := by
    rcases left_poll_bind p k now s with ⟨b, s', _, left⟩ | ⟨more, left⟩
    · rw [left]
      exact rest b s'
    · rw [left, isDue_bind more]
      exact first
  induction p generalizing s with
  | done a => rfl
  | crash cause => rfl
  | act step next ih => exact ih _ _
  | waitUntil instant next ih =>
    refine sequence (p := .waitUntil instant .done) ?_ ih
    rw [poll_waitUntil, waited]
    split
    · rfl
    · next early => exact decide_eq_false early
  | within instant body next ihBody ih =>
    refine sequence (p := .within instant body .done) ?_ ih
    have inner := ihBody s
    rw [poll_within]
    cases left : (body.poll now s).left
    case done b => rfl
    case crash cause => rfl
    all_goals
      rw [left] at inner
      simp only [raced]
      split
      · rfl
      · next early => rw [isDue_within, inner, decide_eq_false early, Bool.or_false]
  | guarded body next ihBody ih =>
    refine sequence (p := .guarded body .done) ?_ ih
    have inner := ihBody s
    rw [poll_guarded]
    cases left : (body.poll now s).left
    case done b => rfl
    case crash cause => rfl
    all_goals
      rw [left] at inner
      exact inner
  | both left right next ihLeft ihRight ih =>
    refine sequence (p := .both left right fun b c => .done (b, c)) (k := fun x => next x.1 x.2) ?_
      fun x => ih x.1 x.2
    rw [left_poll_both]
    by_cases crashed : ∃ cause, (left.poll now s).left = .crash cause
    · obtain ⟨cause, crashed⟩ := crashed
      rw [crashed]
      rfl
    · by_cases crashed' : ∃ cause, (right.poll now (left.poll now s).state).left = .crash cause
      · obtain ⟨cause, crashed'⟩ := crashed'
        rw [crashed', joined_crash (not_exists.1 crashed)]
        rfl
      · rw [isDue_joined (not_exists.1 crashed) (not_exists.1 crashed'), ihLeft, ihRight, Bool.or_false]
  | fork child next _ ih => exact ih () s

theorem isDue_map (g : α → β) (p : Process σ α) (now : Nat) : (g <$> p).isDue now = p.isDue now := by
  cases p <;> rfl

theorem map_ne_crash {p : Process σ α} (g : α → β) (calm : ∀ cause, p ≠ .crash cause)
    (cause : Crash) : g <$> p ≠ .crash cause := by
  cases p with
  | crash cause => exact absurd rfl (calm cause)
  | _ => exact nofun

/-! ### Any number of processes -/

/-- Carries each process on in turn. -/
def pollEach (now : Nat) : List (Process σ α) → σ → List (Process σ α) × σ
  | [], s => ([], s)
  | p :: rest, s =>
    ((p.poll now s).left :: (pollEach now rest (p.poll now s).state).1,
      (pollEach now rest (p.poll now s).state).2)

/-- What is left of processes that were run side by side. -/
def gathered : List (Process σ α) → Process σ (List α)
  | [] => .done []
  | p :: rest => (fun x => x.1 :: x.2) <$> joined p (gathered rest)

section

variable {ps : List (Process σ α)}

theorem gathered_ne_crash (calm : ∀ p ∈ ps, ∀ cause, p ≠ .crash cause) (cause : Crash) :
    gathered ps ≠ .crash cause := by
  induction ps generalizing cause with
  | nil => exact nofun
  | cons p rest ih =>
    obtain ⟨first, others⟩ := List.forall_mem_cons.1 calm
    exact map_ne_crash _ (joined_ne_crash first (ih others)) cause

theorem pollEach_ne_crash (calm : ∀ p ∈ ps, p.Calm) (now : Nat) (s : σ) :
    ∀ p ∈ (pollEach now ps s).1, ∀ cause, p ≠ .crash cause := by
  induction ps generalizing s with
  | nil => exact nofun
  | cons p rest ih =>
    obtain ⟨first, others⟩ := List.forall_mem_cons.1 calm
    exact List.forall_mem_cons.2 ⟨first now s, ih others _⟩

theorem poll_gathered (calm : ∀ p ∈ ps, p.Calm) (now : Nat) (s : σ) :
    ((gathered ps).poll now s).left = gathered (pollEach now ps s).1 ∧
    ((gathered ps).poll now s).state = (pollEach now ps s).2 := by
  induction ps generalizing now s with
  | nil => exact ⟨rfl, rfl⟩
  | cons p rest ih =>
    obtain ⟨first, others⟩ := List.forall_mem_cons.1 calm
    have others' : (gathered rest).Calm := by
      -- What is left of the rest is gathered again, so that it has not crashed either.
      intro now s cause
      rw [(ih others now s).1]
      exact gathered_ne_crash (pollEach_ne_crash others now s) cause
    obtain ⟨left, state⟩ := poll_joined first others' now s
    rw [gathered, poll_map]
    dsimp only
    rw [left, state, (ih others _ _).1, (ih others _ _).2]
    exact ⟨rfl, rfl⟩

/-- Processes that are run side by side are gathered from the first instant on. -/
theorem poll_together (calm : ∀ p ∈ ps, p.Calm) (now : Nat) (s : σ) :
    ((together ps).poll now s).left = gathered (pollEach now ps s).1 ∧
    ((together ps).poll now s).state = (pollEach now ps s).2 := by
  induction ps generalizing s with
  | nil => exact ⟨rfl, rfl⟩
  | cons p rest ih =>
    obtain ⟨first, others⟩ := List.forall_mem_cons.1 calm
    have beside : together (p :: rest) =
        (fun x => x.1 :: x.2) <$> Process.both p (together rest) fun a as => .done (a, as) := rfl
    rw [beside, poll_map, poll_both _ (first now s)]
    dsimp only
    rw [(ih others _).1, (ih others _).2]
    exact ⟨rfl, rfl⟩

theorem isDue_gathered (calm : ∀ p ∈ ps, ∀ cause, p ≠ .crash cause) (now : Nat) :
    (gathered ps).isDue now = ps.any fun p => p.isDue now := by
  induction ps with
  | nil => rfl
  | cons p rest ih =>
    obtain ⟨first, others⟩ := List.forall_mem_cons.1 calm
    rw [gathered, isDue_map, isDue_joined first (gathered_ne_crash others), ih others, List.any_cons]

theorem gathered_eq_done_iff {as : List α} : gathered ps = .done as ↔ ps = as.map .done := by
  induction ps generalizing as with
  | nil =>
    cases as with
    | nil => simp [gathered]
    | cons a rest => simp [gathered]
  | cons p rest ih =>
    constructor
    · intro ended
      cases both : joined p (gathered rest) with
      | done x =>
        obtain ⟨left, right⟩ := joined_eq_done both
        rw [gathered, both] at ended
        obtain rfl : x.1 :: x.2 = as := Process.done.inj ended
        rw [left, ih.1 right]
        rfl
      | _ =>
        rw [gathered, both] at ended
        cases ended
    · intro same
      cases as with
      | nil => cases same
      | cons a as =>
        obtain ⟨rfl, later⟩ := List.cons_eq_cons.1 same
        rw [gathered, ih.2 later]
        rfl

/-- A process that answers what the processes of a list answer: the only one alone, or all of them side by
side. One that has crashed before there were any gathers none. -/
inductive Gathers : Process σ (List α) → List (Process σ α) → Prop
  | alone (p : Process σ α) : Gathers ((fun a => [a]) <$> p) [p]
  | all (ps : List (Process σ α)) : Gathers (gathered ps) ps
  | crash (cause : Crash) : Gathers (.crash cause) []

variable {p : Process σ (List α)}

theorem Gathers.poll (gathers : p.Gathers ps) (calm : ∀ p ∈ ps, p.Calm) (now : Nat) (s : σ) :
    (p.poll now s).left.Gathers (pollEach now ps s).1 ∧
      (p.poll now s).state = (pollEach now ps s).2 := by
  cases gathers with
  | alone p =>
    rw [poll_map]
    exact ⟨.alone _, rfl⟩
  | all ps =>
    obtain ⟨left, state⟩ := poll_gathered calm now s
    rw [left]
    exact ⟨.all _, state⟩
  | crash cause => exact ⟨.crash cause, rfl⟩

theorem Gathers.isDue (gathers : p.Gathers ps) (calm : ∀ p ∈ ps, ∀ cause, p ≠ .crash cause)
    (now : Nat) : p.isDue now = ps.any fun p => p.isDue now := by
  cases gathers with
  | alone p => simp [isDue_map]
  | all ps => exact isDue_gathered calm now
  | crash cause => rfl

/-- A process crashes only before it has any to gather. -/
theorem Gathers.eq_nil_of_crash (gathers : p.Gathers ps) (calm : ∀ p ∈ ps, ∀ cause, p ≠ .crash cause)
    {cause : Crash} (crashed : p = .crash cause) : ps = [] := by
  cases gathers with
  | alone p => exact absurd crashed (map_ne_crash _ (calm p (List.mem_singleton_self p)) cause)
  | all ps => exact absurd crashed (gathered_ne_crash calm cause)
  | crash => rfl

theorem Gathers.eq_done_iff (gathers : p.Gathers ps) {as : List α} :
    p = .done as ↔ (∀ cause, p ≠ .crash cause) ∧ ps = as.map .done := by
  have sound (ended : p = .done as) (cause : Crash) : p ≠ .crash cause := by
    rw [ended]
    exact nofun
  cases gathers with
  | alone p =>
    cases p with
    | done a =>
      have mapped : (fun a => [a]) <$> (.done a : Process σ α) = .done [a] := rfl
      rw [mapped]
      simp [eq_comm, List.map_eq_singleton_iff]
    | _ =>
      refine ⟨nofun, fun ⟨_, same⟩ => ?_⟩
      cases as with
      | nil => cases same
      | cons a rest => cases (List.cons_eq_cons.1 same).1
  | all ps =>
    refine ⟨fun ended => ⟨sound ended, gathered_eq_done_iff.1 ended⟩, ?_⟩
    rintro ⟨-, same⟩
    exact gathered_eq_done_iff.2 same
  | crash cause => exact ⟨nofun, fun ⟨calm, _⟩ => absurd rfl (calm cause)⟩

end

end Hearth.Process

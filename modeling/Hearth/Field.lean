/-!
# Hearth.Field

A part of a larger state that can be read and replaced without touching the rest.
-/

namespace Hearth

structure Field (σ τ : Type) where
  get : σ → τ
  set : τ → σ → σ
  get_set : ∀ (t : τ) (s : σ), get (set t s) = t := by intros; rfl
  set_get : ∀ s : σ, set (get s) s = s := by intros; rfl
  set_set : ∀ (t u : τ) (s : σ), set t (set u s) = set t s := by intros; rfl

namespace Field

variable {σ τ α : Type}

def whole : Field σ σ where
  get s := s
  set t _ := t

def comp {υ : Type} (outer : Field σ τ) (inner : Field τ υ) : Field σ υ where
  get s := inner.get (outer.get s)
  set u s := outer.set (inner.set u (outer.get s)) s
  get_set u s := by simp only [outer.get_set, inner.get_set]
  set_get s := by simp only [inner.set_get, outer.set_get]
  set_set t u s := by simp only [outer.get_set, outer.set_set, inner.set_set]

def modify (f : Field σ τ) (g : τ → τ) (s : σ) : σ := f.set (g (f.get s)) s

def update (f : Field σ τ) (g : τ → α × τ) (s : σ) : α × σ :=
  let (a, t) := g (f.get s)
  (a, f.set t s)

@[simp] theorem get_modify (f : Field σ τ) (g : τ → τ) (s : σ) :
    f.get (f.modify g s) = g (f.get s) := f.get_set _ _

theorem update_eq (f : Field σ τ) (g : τ → α × τ) (s : σ) :
    f.update g s = ((g (f.get s)).1, f.set (g (f.get s)).2 s) := rfl

end Field

end Hearth

/-!
A part of a state that can be read and replaced without touching the rest.
-/
namespace PathWatch

structure Focus (σ α : Type) where
  get : σ → α
  set : α → σ → σ
  get_set : ∀ a s, get (set a s) = a
  set_get : ∀ s, set (get s) s = s
  set_set : ∀ a b s, set a (set b s) = set a s

namespace Focus

variable {σ α β : Type}

def whole : Focus σ σ where
  get s := s
  set s _ := s
  get_set _ _ := rfl
  set_get _ := rfl
  set_set _ _ _ := rfl

def update (f : Focus σ α) (g : α → α) (s : σ) : σ := f.set (g (f.get s)) s

def step (f : Focus σ α) (g : α → β × α) (s : σ) : β × σ :=
  let (b, a) := g (f.get s)
  (b, f.set a s)

def within (f : Focus σ α) (g : Focus α β) : Focus σ β where
  get s := g.get (f.get s)
  set b s := f.set (g.set b (f.get s)) s
  get_set b s := by simp only [f.get_set, g.get_set]
  set_get s := by simp only [g.set_get, f.set_get]
  set_set a b s := by simp only [f.get_set, f.set_set, g.set_set]

theorem get_update (f : Focus σ α) (g : α → α) (s : σ) : f.get (f.update g s) = g (f.get s) :=
  f.get_set _ _

end Focus

end PathWatch

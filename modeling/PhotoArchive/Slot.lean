/-!
# Slots

A part of a state that can be read and replaced without touching the rest.
-/
namespace PhotoArchive

/-- A part of type `τ` in a state of type `σ`. -/
structure Slot (σ τ : Type) where
  get : σ → τ
  set : τ → σ → σ
  get_set : ∀ t s, get (set t s) = t
  set_get : ∀ s, set (get s) s = s
  set_set : ∀ t u s, set t (set u s) = set t s

namespace Slot

variable {σ τ υ : Type}

attribute [simp] get_set set_get set_set

def modify (p : Slot σ τ) (f : τ → τ) (s : σ) : σ :=
  p.set (f (p.get s)) s

def whole : Slot σ σ where
  get s := s
  set t _ := t
  get_set _ _ := rfl
  set_get _ := rfl
  set_set _ _ _ := rfl

/-- A part of a part. -/
def within (p : Slot σ τ) (q : Slot τ υ) : Slot σ υ where
  get s := q.get (p.get s)
  set u s := p.set (q.set u (p.get s)) s
  get_set := by simp [q.get_set]
  set_get := by simp
  set_set := by simp [q.set_set]

def place {n : Nat} (i : Fin n) : Slot (Vector τ n) τ where
  get v := v[i]
  set t v := v.set i t
  get_set := by simp
  set_get := by simp
  set_set := by simp

end Slot

end PhotoArchive

/-
  PicoosLwip.Framework.Handles — who holds which resource.

  Two tables with reuse of their own: HOLDERS (slots of a table, say), each of
  which holds at most one RESOURCE, and the resources that are live.
  `Handles σ φ` carries the two facts that make a holder's resource its own:
  what is held is live (no holder dangles), and no two holders hold the same
  (no two alias).  A holder acquires a fresh resource, gives it back, or lets
  go of one that stays live; each operation keeps both facts, so they hold
  after any sequence of them.
-/
import Mathlib.Logic.Function.Basic

namespace PicoosLwip.Framework

/-- Holders `σ`, resources `φ`. -/
structure Handles (σ φ : Type) where
  holds : σ → Option φ
  live : φ → Prop
  live_of_holds : ∀ {s x}, holds s = some x → live x
  holds_inj : ∀ {s t x}, holds s = some x → holds t = some x → s = t

/-! ## §1. One holder changed. -/

section Update

variable {σ φ : Type} [DecidableEq σ] {f : σ → Option φ} {s t : σ} {x y : φ}

/-- Who holds something after `s` has let go. -/
theorem holds_of_update_none (h : Function.update f s none t = some x) : t ≠ s ∧ f t = some x := by
  by_cases hts : t = s
  · subst hts
    rw [Function.update_self] at h
    exact absurd h (by simp)
  · rw [Function.update_of_ne hts] at h
    exact ⟨hts, h⟩

/-- Who holds something after `s` has taken `y`. -/
theorem holds_of_update_some (h : Function.update f s (some y) t = some x) :
    (t = s ∧ x = y) ∨ (t ≠ s ∧ f t = some x) := by
  by_cases hts : t = s
  · subst hts
    rw [Function.update_self] at h
    exact .inl ⟨rfl, (Option.some.inj h).symm⟩
  · rw [Function.update_of_ne hts] at h
    exact .inr ⟨hts, h⟩

end Update

/-! ## §2. The operations. -/

namespace Handles

variable {σ φ : Type} [DecidableEq σ]

/-- Nobody holds anything; some resources may be live. -/
def idle (live : φ → Prop) : Handles σ φ where
  holds _ := none
  live := live
  live_of_holds h := absurd h (by simp)
  holds_inj h := absurd h (by simp)

/-- `s` acquires the fresh resource `x`; what it held before is let go of. -/
def acquire (h : Handles σ φ) (s : σ) (x : φ) (fresh : ¬ h.live x) : Handles σ φ where
  holds := Function.update h.holds s (some x)
  live y := y = x ∨ h.live y
  live_of_holds := by
    intro t y ht
    rcases holds_of_update_some ht with ⟨-, hy⟩ | ⟨-, ht⟩
    · exact .inl hy
    · exact .inr (h.live_of_holds ht)
  holds_inj := by
    intro t u y ht hu
    -- the fresh resource is held by `s` alone
    have hne : ∀ v, h.holds v ≠ some x := fun v hv => fresh (h.live_of_holds hv)
    rcases holds_of_update_some ht with ⟨hts, hyx⟩ | ⟨-, ht'⟩ <;>
      rcases holds_of_update_some hu with ⟨hus, hyx⟩ | ⟨-, hu'⟩
    · rw [hts, hus]
    · rw [hyx] at hu'
      exact absurd hu' (hne u)
    · rw [hyx] at ht'
      exact absurd ht' (hne t)
    · exact h.holds_inj ht' hu'

/-- `s` lets go of what it holds, which stays live. -/
def drop (h : Handles σ φ) (s : σ) : Handles σ φ where
  holds := Function.update h.holds s none
  live := h.live
  live_of_holds ht := h.live_of_holds (holds_of_update_none ht).2
  holds_inj ht hu := h.holds_inj (holds_of_update_none ht).2 (holds_of_update_none hu).2

/-- `s` gives its resource `x` back. -/
def release (h : Handles σ φ) (s : σ) (x : φ) (held : h.holds s = some x) : Handles σ φ where
  holds := Function.update h.holds s none
  live y := y ≠ x ∧ h.live y
  live_of_holds := by
    intro t y ht
    obtain ⟨hts, ht⟩ := holds_of_update_none ht
    refine ⟨?_, h.live_of_holds ht⟩
    -- a second holder of `x` would be `s`
    rintro rfl
    exact hts (h.holds_inj ht held)
  holds_inj := (h.drop s).holds_inj

/-- The slot that acquired the resource holds it, all others hold what they held. -/
theorem acquire_holds (h : Handles σ φ) (s : σ) (x : φ) (fresh : ¬ h.live x) (t : σ) :
    (h.acquire s x fresh).holds t = if t = s then some x else h.holds t :=
  Function.update_apply h.holds s (some x) t

/-- The slot that was dropped is empty. -/
theorem drop_holds (h : Handles σ φ) (s t : σ) :
    (h.drop s).holds t = if t = s then none else h.holds t :=
  Function.update_apply h.holds s none t

/-- The slot that released its resource is empty. -/
theorem release_holds (h : Handles σ φ) (s : σ) (x : φ) (held : h.holds s = some x) (t : σ) :
    (h.release s x held).holds t = if t = s then none else h.holds t :=
  Function.update_apply h.holds s none t

end Handles

end PicoosLwip.Framework

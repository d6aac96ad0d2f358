import Mathlib.Data.List.Basic

/-!
# Steps that may raise

What is known of computations that ended without an error.
-/

namespace Raising

variable {ε α β σ τ : Type}

theorem bind_eq_ok {x : Except ε α} {f : α → Except ε β} {b : β} :
    x >>= f = .ok b ↔ ∃ a, x = .ok a ∧ f a = .ok b := by
  cases x with
  | error e => simp [bind, Except.bind]
  | ok a => simp [bind, Except.bind]

/-- A loop whose steps process parts, in order, processes all the parts. -/
theorem foldlM_flatMap {f : σ → α → Except ε σ} {step : τ → β → τ} {view : σ → τ}
    {parts : α → List β}
    (hf : ∀ s a s', f s a = .ok s' → view s' = (parts a).foldl step (view s))
    {l : List α} {s s' : σ} (h : l.foldlM f s = .ok s') :
    view s' = (l.flatMap parts).foldl step (view s) := by
  induction l generalizing s with
  | nil =>
    cases h
    rfl
  | cons a l ih =>
    rw [List.foldlM_cons] at h
    obtain ⟨s₁, hs, hl⟩ := bind_eq_ok.mp h
    rw [List.flatMap_cons, List.foldl_append, ← hf s a s₁ hs]
    exact ih hl

end Raising

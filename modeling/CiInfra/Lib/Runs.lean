/-!
# Runs of a machine

A machine that makes one step after another, and properties that every step of a run has.
-/

namespace Runs

variable {σ ι : Type} {step : σ → ι → σ} {Inv : σ → Prop} {Fits Safe : σ → ι → Prop}

/-- Every step of a run has the property, in the state in which it is made. -/
def Along (step : σ → ι → σ) (P : σ → ι → Prop) : σ → List ι → Prop
  | _, [] => True
  | s, i :: rest => P s i ∧ Along step P (step s i) rest

instance Along.decidable {P : σ → ι → Prop} [∀ s i, Decidable (P s i)] :
    (s : σ) → (run : List ι) → Decidable (Along step P s run)
  | _, [] => inferInstanceAs (Decidable True)
  | s, i :: rest =>
    have : Decidable (Along step P (step s i) rest) := Along.decidable (step s i) rest
    inferInstanceAs (Decidable (P s i ∧ Along step P (step s i) rest))

/-- Steps that fit keep an invariant, and with it are safe: so is a run of them. -/
theorem Along.of_invariant (hkeeps : ∀ s i, Inv s → Fits s i → Inv (step s i))
    (hsafe : ∀ s i, Inv s → Fits s i → Safe s i) {s : σ} (hs : Inv s) {run : List ι}
    (h : Along step Fits s run) : Along step Safe s run := by
  induction run generalizing s with
  | nil => trivial
  | cons i run ih =>
    obtain ⟨hfits, hrest⟩ := h
    exact ⟨hsafe s i hs hfits, ih (hkeeps s i hs hfits) hrest⟩

/-- Where steps that fit keep an invariant under which fitting is what makes a step safe, the runs
of safe steps are those of steps that fit. -/
theorem Along.iff_of_invariant (hkeeps : ∀ s i, Inv s → Fits s i → Inv (step s i))
    (hsafe : ∀ s i, Inv s → (Safe s i ↔ Fits s i)) {s : σ} (hs : Inv s) {run : List ι} :
    Along step Safe s run ↔ Along step Fits s run := by
  induction run generalizing s with
  | nil => exact Iff.rfl
  | cons i run ih =>
    rw [Along, Along, hsafe s i hs]
    exact and_congr_right fun hfits => ih (hkeeps s i hs hfits)

end Runs

import Mathlib.Algebra.Order.Group.Multiset
import Mathlib.Data.Multiset.Basic

/-!
# Packings

A packing is a multiset of elements of some types. The packings of a size are enumerated as lists of
elements in the order of the types. Where no packing that fits is larger than a bound, each can be
filled up until nothing more can be added.
-/

namespace Packing

variable {α : Type*}

/-! ### Enumeration -/

/-- The lists of a length that begin with some copies of `a`, given those without it. -/
def withCopies (a : α) (others : ℕ → List (List α)) : ℕ → List (List α)
  | 0 => [[]]
  | k + 1 => (withCopies a others k).map (a :: ·) ++ others (k + 1)

/-- `combinations_with_replacement`. -/
def combinationsWithReplacement : List α → ℕ → List (List α)
  | [] => fun k => if k = 0 then [[]] else []
  | a :: types => withCopies a (combinationsWithReplacement types)

example : combinationsWithReplacement [1, 2, 3] 2 =
    [[1, 1], [1, 2], [1, 3], [2, 2], [2, 3], [3, 3]] := by decide

theorem combinationsWithReplacement_cons_succ (a : α) (types : List α) (k : ℕ) :
    combinationsWithReplacement (a :: types) (k + 1) =
      (combinationsWithReplacement (a :: types) k).map (a :: ·) ++
        combinationsWithReplacement types (k + 1) := rfl

theorem mem_combinationsWithReplacement_zero {types c : List α} :
    c ∈ combinationsWithReplacement types 0 ↔ c = [] := by
  cases types <;> simp [combinationsWithReplacement, withCopies]

/-- What is enumerated has the length and is of the types. -/
theorem of_mem_combinationsWithReplacement {types c : List α} {k : ℕ}
    (h : c ∈ combinationsWithReplacement types k) : c.length = k ∧ ∀ a ∈ c, a ∈ types := by
  induction types generalizing c k with
  | nil =>
    cases k with
    | zero => simp [mem_combinationsWithReplacement_zero.mp h]
    | succ k => simp [combinationsWithReplacement] at h
  | cons a types ih =>
    induction k generalizing c with
    | zero => simp [mem_combinationsWithReplacement_zero.mp h]
    | succ k ihk =>
      rw [combinationsWithReplacement_cons_succ, List.mem_append, List.mem_map] at h
      rcases h with ⟨c, hc, rfl⟩ | hc
      · obtain ⟨hlength, htypes⟩ := ihk hc
        exact ⟨congrArg (· + 1) hlength, List.forall_mem_cons.mpr ⟨List.mem_cons_self, htypes⟩⟩
      · obtain ⟨hlength, htypes⟩ := ih hc
        exact ⟨hlength, fun b hb => List.mem_cons_of_mem _ (htypes b hb)⟩

/-- Every packing of the types is enumerated among those of its size. -/
theorem exists_mem_combinationsWithReplacement {types : List α} {s : Multiset α}
    (hs : ∀ a ∈ s, a ∈ types) :
    ∃ c ∈ combinationsWithReplacement types (Multiset.card s), (c : Multiset α) = s := by
  induction types generalizing s with
  | nil =>
    obtain rfl := Multiset.eq_zero_of_forall_notMem fun a ha => List.not_mem_nil (hs a ha)
    exact ⟨[], mem_combinationsWithReplacement_zero.mpr rfl, rfl⟩
  | cons a types ih =>
    induction s using Multiset.strongInductionOn with
    | ih s ihs =>
      by_cases ha : a ∈ s
      · obtain ⟨t, rfl⟩ := Multiset.exists_cons_of_mem ha
        obtain ⟨c, hc, rfl⟩ := ihs t (Multiset.lt_cons_self t a)
          fun b hb => hs b (Multiset.mem_cons_of_mem hb)
        refine ⟨a :: c, ?_, rfl⟩
        rw [Multiset.card_cons, combinationsWithReplacement_cons_succ, List.mem_append]
        exact Or.inl (List.mem_map_of_mem hc)
      · have hs' : ∀ b ∈ s, b ∈ types := fun b hb => by
          rcases List.mem_cons.mp (hs b hb) with rfl | hb'
          · exact absurd hb ha
          · exact hb'
        obtain ⟨c, hc, hcs⟩ := ih hs'
        refine ⟨c, ?_, hcs⟩
        cases hcard : Multiset.card s with
        | zero =>
          rw [hcard] at hc
          rw [mem_combinationsWithReplacement_zero] at hc ⊢
          exact hc
        | succ k =>
          rw [hcard] at hc
          rw [combinationsWithReplacement_cons_succ, List.mem_append]
          exact Or.inr hc

/-! ### Full packings -/

variable {Fits : Multiset α → Prop} {types : List α} {s : Multiset α} {bound : ℕ}

/-- A packing of the types that is not empty and fits, and to which nothing can be added. -/
structure Full (Fits : Multiset α → Prop) (types : List α) (s : Multiset α) : Prop where
  ne_zero : s ≠ 0
  mem_types : ∀ a ∈ s, a ∈ types
  fits : Fits s
  no_more : ∀ a ∈ types, ¬ Fits (a ::ₘ s)

/-- A packing that fits can be filled up if there is a bound on the size of what fits. -/
theorem exists_full_of_fits
    (hbound : ∀ t, (∀ a ∈ t, a ∈ types) → Fits t → Multiset.card t ≤ bound) (hs : s ≠ 0)
    (htypes : ∀ a ∈ s, a ∈ types) (hfits : Fits s) : ∃ t, s ≤ t ∧ Full Fits types t := by
  -- The room that is left gets smaller with each addition.
  induction hroom : bound - Multiset.card s generalizing s with
  | zero =>
    refine ⟨s, le_rfl, hs, htypes, hfits, fun a ha hmore => ?_⟩
    have hcard := hbound (a ::ₘ s) (Multiset.forall_mem_cons.mpr ⟨ha, htypes⟩) hmore
    rw [Multiset.card_cons] at hcard
    omega
  | succ room ih =>
    by_cases hmore : ∃ a ∈ types, Fits (a ::ₘ s)
    · obtain ⟨a, ha, hmore⟩ := hmore
      obtain ⟨t, hle, ht⟩ := ih (s := a ::ₘ s) (Multiset.cons_ne_zero)
        (Multiset.forall_mem_cons.mpr ⟨ha, htypes⟩) hmore (by rw [Multiset.card_cons]; omega)
      exact ⟨t, (Multiset.le_cons_self s a).trans hle, ht⟩
    · exact ⟨s, le_rfl, hs, htypes, hfits, fun a ha hfit => hmore ⟨a, ha, hfit⟩⟩

end Packing

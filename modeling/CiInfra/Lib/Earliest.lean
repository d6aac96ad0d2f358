import CiInfra.Lib.Ranks
import Mathlib.Order.Bounds.Basic
import Mathlib.Algebra.BigOperators.Ring.Finset
import Mathlib.Algebra.Order.BigOperators.Group.List

/-!
# Earliest times

The earliest time of a set, where there is one; that at which enough has been released; and that at
which enough of some things have happened.
-/

namespace Earliest

variable {τ : Type*} [LinearOrder τ] {S T : Set τ} {a b : Option τ} {t : τ}

/-- The time is the earliest of the set, or there is none because the set is empty. -/
def IsEarliest (S : Set τ) : Option τ → Prop
  | some t => IsLeast S t
  | none => S = ∅

/-- The earlier of two times that may be missing. -/
def earlier : Option τ → Option τ → Option τ
  | none, b => b
  | some t, none => some t
  | some t, some u => if u < t then some u else some t

theorem isEarliest_union (ha : IsEarliest S a) (hb : IsEarliest T b) :
    IsEarliest (S ∪ T) (earlier a b) := by
  cases a with
  | none =>
    have hS : S = ∅ := ha
    rwa [hS, Set.empty_union]
  | some t =>
    cases b with
    | none =>
      have hT : T = ∅ := hb
      rwa [hT, Set.union_empty]
    | some u =>
      have hmin := IsLeast.union ha hb
      rw [earlier]
      split_ifs with hlt
      · rwa [min_eq_right hlt.le] at hmin
      · rwa [min_eq_left (not_lt.mp hlt)] at hmin

/-! ### Releases -/

/-- What has been released by a time. -/
def releasedBy (t : τ) (releases : List (τ × ℤ)) : ℤ :=
  ((releases.filter fun r => r.1 ≤ t).map Prod.snd).sum

/-- The time of the first release with which there is enough. -/
def firstEnough (size : ℤ) : ℤ → List (τ × ℤ) → Option τ
  | _, [] => none
  | sum, (t, amount) :: rest =>
    if size ≤ sum + amount then some t else firstEnough size (sum + amount) rest

theorem releasedBy_cons (t u : τ) (amount : ℤ) (rest : List (τ × ℤ)) :
    releasedBy t ((u, amount) :: rest) = (if u ≤ t then amount else 0) + releasedBy t rest := by
  unfold releasedBy
  split_ifs with h
  · rw [List.filter_cons_of_pos (by simpa using h), List.map_cons, List.sum_cons]
  · rw [List.filter_cons_of_neg (by simpa using h), zero_add]

/-- Before the first release nothing has been released. -/
theorem releasedBy_of_lt {releases : List (τ × ℤ)} (h : ∀ r ∈ releases, t < r.1) :
    releasedBy t releases = 0 := by
  have hnone : releases.filter (fun r => r.1 ≤ t) = [] :=
    List.filter_eq_nil_iff.mpr fun r hr => by simpa using h r hr
  rw [releasedBy, hnone]
  rfl

theorem releasedBy_nonneg {releases : List (τ × ℤ)} (h : ∀ r ∈ releases, 0 ≤ r.2) (t : τ) :
    0 ≤ releasedBy t releases := by
  refine List.sum_nonneg fun amount hamount => ?_
  obtain ⟨r, hr, rfl⟩ := List.mem_map.mp hamount
  exact h r (List.mem_filter.mp hr).1

/-- If there is not enough yet, the first release with which there is enough is at the earliest time
at which enough has been released. -/
theorem isEarliest_firstEnough {size sum : ℤ} {releases : List (τ × ℤ)}
    (hsorted : releases.Pairwise fun r r' => r.1 ≤ r'.1) (hnonneg : ∀ r ∈ releases, 0 ≤ r.2)
    (hsum : sum < size) :
    IsEarliest { t | size ≤ sum + releasedBy t releases } (firstEnough size sum releases) := by
  induction releases generalizing sum with
  | nil =>
    refine Set.eq_empty_of_forall_notMem fun t ht => ?_
    have hle : size ≤ sum + releasedBy t [] := ht
    rw [releasedBy_of_lt (fun r hr => absurd hr List.not_mem_nil)] at hle
    omega
  | cons r rest ih =>
    obtain ⟨time, amount⟩ := r
    rw [List.pairwise_cons] at hsorted
    rw [List.forall_mem_cons] at hnonneg
    -- Before the first release there is not enough.
    have hbefore : ∀ t < time, releasedBy t ((time, amount) :: rest) = 0 ∧
        releasedBy t rest = 0 := fun t ht =>
      ⟨releasedBy_of_lt (List.forall_mem_cons.mpr ⟨ht, fun r hr => ht.trans_le (hsorted.1 r hr)⟩),
        releasedBy_of_lt fun r hr => ht.trans_le (hsorted.1 r hr)⟩
    rw [firstEnough]
    split_ifs with henough
    · constructor
      · have hrest := releasedBy_nonneg hnonneg.2 time
        change size ≤ sum + releasedBy time ((time, amount) :: rest)
        rw [releasedBy_cons, if_pos le_rfl]
        omega
      · intro t ht
        by_contra hlt
        have hle : size ≤ sum + releasedBy t ((time, amount) :: rest) := ht
        rw [(hbefore t (not_le.mp hlt)).1] at hle
        omega
    · have hset : { t | size ≤ sum + releasedBy t ((time, amount) :: rest) } =
          { t | size ≤ sum + amount + releasedBy t rest } := by
        ext t
        simp only [Set.mem_ofPred_eq]
        rcases lt_or_ge t time with hlt | hge
        · rw [(hbefore t hlt).1, (hbefore t hlt).2]
          omega
        · rw [releasedBy_cons, if_pos hge, add_assoc]
      rw [hset]
      exact ih hsorted.2 hnonneg.2 (not_le.mp henough)

/-- In a sorted list of times, that of an index is the earliest by which more have come. -/
theorem isEarliest_getElem? {times : List τ} (hsorted : times.Pairwise (· ≤ ·)) (k : ℕ) :
    IsEarliest { t | k < (times.filter fun u => u ≤ t).length } times[k]? := by
  by_cases hk : k < times.length
  · rw [List.getElem?_eq_getElem hk]
    constructor
    · exact (Ranks.getElem_le_iff hsorted hk _).mp le_rfl
    · exact fun t ht => (Ranks.getElem_le_iff hsorted hk t).mpr ht
  · rw [List.getElem?_eq_none (not_lt.mp hk)]
    refine Set.eq_empty_of_forall_notMem fun t ht => hk ?_
    exact lt_of_lt_of_le ht (List.length_filter_le _ _)

end Earliest

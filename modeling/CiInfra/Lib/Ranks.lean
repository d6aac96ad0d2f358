import Mathlib.Data.List.Nodup
import Mathlib.Data.List.Sort
import Mathlib.Order.Defs.LinearOrder

/-!
# Ranks and representatives

The rank of an element in a sorted list is the number of elements below it. Where the elements stand
for others, of which each should be counted once, some of these are missed, and some elements are in
surplus: what has to hold for the counts to agree?
-/

namespace Ranks

variable {α β κ : Type*}

/-! ### Ranks -/

section

variable [LinearOrder κ] (key : α → κ)

/-- The list in the order of the keys. -/
def sortBy (l : List α) : List α :=
  l.insertionSort fun a b => key a ≤ key b

variable {key} {l : List α} {x : α}

theorem sortBy_perm (key : α → κ) (l : List α) : (sortBy key l).Perm l :=
  List.perm_insertionSort _ l

theorem sortBy_pairwise (key : α → κ) (l : List α) :
    (sortBy key l).Pairwise fun a b => key a ≤ key b := by
  have : Std.Total fun a b => key a ≤ key b := ⟨fun a b => le_total (key a) (key b)⟩
  have : IsTrans α fun a b => key a ≤ key b := ⟨fun a b c => le_trans⟩
  exact List.pairwise_insertionSort _ l

/-- In a sorted list with different keys, an element comes after those with lower keys. -/
theorem findIdx?_of_pairwise {p : α → Bool} (hsorted : l.Pairwise fun a b => key a ≤ key b)
    (hkeys : (l.map key).Nodup) (hx : x ∈ l) (hp : ∀ y ∈ l, p y = true ↔ y = x) :
    l.findIdx? p = some (l.filter fun y => key y < key x).length := by
  induction l with
  | nil => cases hx
  | cons y l ih =>
    rw [List.pairwise_cons] at hsorted
    rw [List.map_cons, List.nodup_cons] at hkeys
    rw [List.findIdx?_cons]
    by_cases hyx : y = x
    · subst hyx
      have hnone : (y :: l).filter (fun z => key z < key y) = [] := by
        refine List.filter_eq_nil_iff.mpr fun z hz => ?_
        rcases List.mem_cons.mp hz with rfl | hz
        · simp
        · simpa using hsorted.1 z hz
      rw [if_pos ((hp y List.mem_cons_self).mpr rfl), hnone, List.length_nil]
    · have hx' : x ∈ l := (List.mem_cons.mp hx).resolve_left fun h => hyx h.symm
      have hlt : key y < key x := by
        refine lt_of_le_of_ne (hsorted.1 x hx') fun h => hkeys.1 ?_
        exact h ▸ List.mem_map_of_mem hx'
      rw [if_neg fun h => hyx ((hp y List.mem_cons_self).mp h),
        ih hsorted.2 hkeys.2 hx' fun z hz => hp z (List.mem_cons_of_mem y hz),
        List.filter_cons_of_pos (by simpa using hlt)]
      rfl

/-- The rank of an element is the number of the elements with lower keys. -/
theorem findIdx?_sortBy {p : α → Bool} (hkeys : (l.map key).Nodup) (hx : x ∈ l)
    (hp : ∀ y ∈ l, p y = true ↔ y = x) :
    (sortBy key l).findIdx? p = some (l.filter fun y => key y < key x).length := by
  have hperm := sortBy_perm key l
  rw [findIdx?_of_pairwise (sortBy_pairwise key l) ((hperm.map key).nodup_iff.mpr hkeys)
    (hperm.mem_iff.mpr hx) fun y hy => hp y (hperm.mem_iff.mp hy)]
  exact congrArg some (hperm.filter _).length_eq

theorem findIdx?_sortBy_eq_none {p : α → Bool} (hp : ∀ y ∈ l, p y = false) :
    (sortBy key l).findIdx? p = none :=
  List.findIdx?_eq_none_iff.mpr fun y hy => hp y ((sortBy_perm key l).mem_iff.mp hy)

end

/-- The element of an index is at most a bound if the elements up to the bound are more than the
index. -/
theorem getElem_le_iff [LinearOrder κ] {l : List κ} (hsorted : l.Pairwise (· ≤ ·)) {j : ℕ}
    (hj : j < l.length) (s : κ) : l[j] ≤ s ↔ j < (l.filter fun t => t ≤ s).length := by
  induction l generalizing j with
  | nil => exact absurd hj (Nat.not_lt_zero j)
  | cons t l ih =>
    rw [List.pairwise_cons] at hsorted
    by_cases ht : t ≤ s
    · rw [List.filter_cons_of_pos (by simpa using ht), List.length_cons]
      cases j with
      | zero => exact iff_of_true ht (Nat.succ_pos _)
      | succ j =>
        rw [List.getElem_cons_succ, ih hsorted.2]
        omega
    · have hgt : ∀ t' ∈ t :: l, ¬ t' ≤ s := by
        intro t' ht'
        rcases List.mem_cons.mp ht' with rfl | ht'
        · exact ht
        · exact fun h => ht ((hsorted.1 t' ht').trans h)
      have hnone : (t :: l).filter (fun t => t ≤ s) = [] :=
        List.filter_eq_nil_iff.mpr fun t' ht' => by simpa using hgt t' ht'
      rw [hnone, List.length_nil]
      exact iff_of_false (hgt _ (List.getElem_mem hj)) (Nat.not_lt_zero j)

theorem eq_of_length_le_one {l : List α} (h : l.length ≤ 1) {a b : α} (ha : a ∈ l) (hb : b ∈ l) :
    a = b := by
  rcases l with _ | ⟨c, _ | ⟨d, l⟩⟩
  · exact absurd ha List.not_mem_nil
  · rw [List.mem_singleton.mp ha, List.mem_singleton.mp hb]
  · simp at h

/-! ### Representatives -/

variable [DecidableEq β] (f : α → β) (targets : List β)

/-- The targets for which no element stands. -/
def missed (l : List α) : List β :=
  targets.filter fun b => b ∉ l.map f

/-- The elements that stand for no target, or for one for which a later element stands. -/
def surplus : List α → List α
  | [] => []
  | a :: l => if f a ∈ targets ∧ f a ∉ l.map f then surplus l else a :: surplus l

variable {f targets}

/-- An element that is the last one to stand for a target makes one fewer that are missed. -/
theorem length_missed_cons (htargets : targets.Nodup) (a : α) (l : List α) :
    (missed f targets l).length =
      (missed f targets (a :: l)).length + if f a ∈ targets ∧ f a ∉ l.map f then 1 else 0 := by
  have herase : missed f targets (a :: l) = (missed f targets l).erase (f a) := by
    rw [missed, missed, (htargets.filter _).erase_eq_filter, List.filter_filter]
    refine List.filter_congr fun b _ => ?_
    rw [Bool.eq_iff_iff]
    simp
  have hmem : f a ∈ missed f targets l ↔ f a ∈ targets ∧ f a ∉ l.map f := by
    simp [missed]
  rw [herase]
  split_ifs with h
  · rw [List.length_erase_add_one (hmem.mpr h)]
  · rw [List.erase_of_not_mem (mt hmem.mp h), Nat.add_zero]

/-- The elements, together with what is missed, are as many as the targets, together with the
surplus. -/
theorem length_add_length_missed (htargets : targets.Nodup) (l : List α) :
    l.length + (missed f targets l).length = targets.length + (surplus f targets l).length := by
  induction l with
  | nil => simp [missed, surplus]
  | cons a l ih =>
    rw [length_missed_cons htargets a l] at ih
    rw [surplus, List.length_cons]
    split_ifs at ih ⊢ with h
    · omega
    · rw [List.length_cons]
      omega

/-- There are as many elements as targets exactly if as many targets are missed as elements are in
surplus. -/
theorem length_eq_iff (htargets : targets.Nodup) (l : List α) :
    l.length = targets.length ↔ (missed f targets l).length = (surplus f targets l).length := by
  have h := length_add_length_missed (f := f) htargets l
  omega

end Ranks

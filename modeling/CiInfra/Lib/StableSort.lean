import Mathlib.Data.List.Perm.Basic
import Mathlib.Data.List.Nodup
import Mathlib.Data.List.Sort

/-!
# Ranks in a stably sorted list

Where an element stands after stable sorting depends on how many elements come before it in the
order, and among the elements that are equivalent to it, on the list that is sorted.
-/

namespace StableSort

variable {α : Type} {le : α → α → Bool} {l : List α} {x : α} {n : ℕ}

section Order

variable (trans : ∀ a b c, le a b → le b c → le a c) (total : ∀ a b, le a b || le b a)

include trans total

/-- An element that is not among the first `n` has at least `n` others that may precede it. -/
theorem le_length_filter_of_mem_drop [DecidableEq α] (hnodup : l.Nodup)
    (hx : x ∈ (l.mergeSort le).drop n) : n ≤ (l.filter fun y => y ≠ x && le y x).length := by
  have hlength : n ≤ (l.mergeSort le).length := by
    have := List.length_pos_of_mem hx
    rw [List.length_drop] at this
    omega
  have hsorted := List.pairwise_mergeSort trans total l
  have hsortedNodup := (List.mergeSort_perm l le).nodup_iff.mpr hnodup
  rw [← List.take_append_drop n (l.mergeSort le)] at hsorted hsortedNodup
  have hbefore : ∀ y ∈ (l.mergeSort le).take n, (y ≠ x && le y x) = true := by
    intro y hy
    have hne : y ≠ x := by
      rintro rfl
      exact (List.nodup_append.mp hsortedNodup).2.2 y hy y hx rfl
    simpa [hne] using (List.pairwise_append.mp hsorted).2.2 y hy x hx
  calc n = ((l.mergeSort le).take n).length := by rw [List.length_take, min_eq_left hlength]
    _ = (((l.mergeSort le).take n).filter fun y => y ≠ x && le y x).length := by
        rw [List.filter_eq_self.mpr hbefore]
    _ ≤ ((l.mergeSort le).filter fun y => y ≠ x && le y x).length :=
        ((List.take_sublist n _).filter _).length_le
    _ = (l.filter fun y => y ≠ x && le y x).length :=
        ((List.mergeSort_perm l le).filter _).length_eq

/-- An element that stands last is sorted behind all that may precede it. -/
theorem mem_drop_of_last [DecidableEq α] (hnodup : (l ++ [x]).Nodup)
    (hn : n ≤ (l.filter fun y => le y x).length) : x ∈ ((l ++ [x]).mergeSort le).drop n := by
  have hperm := List.mergeSort_perm (l ++ [x]) le
  obtain ⟨front, back, hsplit⟩ := List.append_of_mem (hperm.mem_iff.mpr (by simp : x ∈ l ++ [x]))
  have hsorted := hperm.nodup_iff.mpr hnodup
  rw [hsplit, List.nodup_append, List.nodup_cons] at hsorted
  have hfront : x ∉ front := fun h => hsorted.2.2 x h x (by simp) rfl
  have hmem : ∀ y ∈ l.filter fun y => le y x, y ∈ front := by
    intro y hy
    obtain ⟨hyl, hle⟩ := List.mem_filter.mp hy
    have hpair := List.pair_sublist_mergeSort trans total hle
      ((List.singleton_sublist.mpr hyl).append (List.Sublist.refl [x]))
    rw [hsplit, List.sublist_append_iff] at hpair
    obtain ⟨u, v, huv, hu, hv⟩ := hpair
    match u, huv with
    | [], huv =>
      simp only [List.nil_append] at huv
      subst huv
      rcases List.sublist_cons_iff.mp hv with hback | ⟨r, hr, hback⟩
      · exact absurd (hback.subset (by simp)) hsorted.2.1.1
      · cases hr
        exact absurd (hback.subset (by simp)) hsorted.2.1.1
    | z :: u, huv =>
      rw [List.cons_append, List.cons.injEq] at huv
      exact hu.subset (huv.1 ▸ List.mem_cons_self)
  have hcount : n ≤ front.length :=
    hn.trans (List.subperm_of_subset
      ((hnodup.sublist (List.sublist_append_left l [x])).filter _) hmem).length_le
  rw [hsplit, List.drop_append_of_le_length hcount]
  simp

/-- The elements that precede an element among the first `n` are fewer than `n`. -/
theorem length_filter_lt_of_mem_take (hx : x ∈ (l.mergeSort le).take n) :
    (l.filter fun y => !le x y).length < n := by
  obtain ⟨front, back, hsplit⟩ := List.append_of_mem hx
  have hfront : front.length < n := by
    have := congrArg List.length hsplit
    rw [List.length_take, List.length_append, List.length_cons] at this
    omega
  have hsorted := List.pairwise_mergeSort trans total l
  rw [← List.take_append_drop n (l.mergeSort le), hsplit, List.append_assoc] at hsorted
  have hrest : ∀ y ∈ back ++ (l.mergeSort le).drop n, le x y = true :=
    (List.pairwise_cons.mp (List.pairwise_append.mp hsorted).2.1).1
  have hself : le x x = true := by simpa using total x x
  have hnone : ((x :: (back ++ (l.mergeSort le).drop n)).filter fun y => !le x y) = [] := by
    rw [List.filter_eq_nil_iff]
    intro y hy
    rcases List.mem_cons.mp hy with rfl | hy
    · simp [hself]
    · simp [hrest y hy]
  calc (l.filter fun y => !le x y).length
      = ((l.mergeSort le).filter fun y => !le x y).length :=
        ((List.mergeSort_perm l le).filter _).length_eq.symm
    _ = (front.filter fun y => !le x y).length := by
        rw [← List.take_append_drop n (l.mergeSort le), hsplit, List.append_assoc,
          List.cons_append, List.filter_append, hnone, List.append_nil]
    _ ≤ front.length := List.length_filter_le _ _
    _ < n := hfront

/-- An element that stands first is sorted in front of all that do not precede it. -/
theorem mem_take_of_first (hn : (l.filter fun y => !le x y).length < n) :
    x ∈ ((x :: l).mergeSort le).take n := by
  obtain ⟨front, back, hsplit, hrest, hfront⟩ := List.mergeSort_cons trans total x l
  have hlength : front.length < n := by
    have hfilter : front.filter (fun y => !le x y) = front := List.filter_eq_self.mpr hfront
    have hcount := ((List.mergeSort_perm l le).filter fun y => !le x y).length_eq
    rw [hrest, List.filter_append, List.length_append, hfilter] at hcount
    omega
  rw [hsplit, List.take_append, List.mem_append]
  refine Or.inr ?_
  obtain ⟨m, hm⟩ := Nat.exists_eq_succ_of_ne_zero (Nat.sub_ne_zero_of_lt hlength)
  simp [hm]

end Order

end StableSort

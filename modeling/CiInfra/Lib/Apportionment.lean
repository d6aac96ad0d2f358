import Mathlib.Algebra.BigOperators.Group.List.Basic
import Mathlib.Algebra.Order.BigOperators.Group.List
import Mathlib.Algebra.Order.Floor.Ring
import Mathlib.Data.List.Sort
import Mathlib.Tactic.Linarith
import Mathlib.Tactic.LinearCombination

/-!
# The largest remainder method

Quotas that sum to a number of seats are rounded down, and the seats that are left go, one each, to
the parties with the largest remainders. No party with an integral quota is among these, so that
every quota is rounded to one of its neighbours.
-/

namespace Apportionment

/-! ### The front of a list -/

/-- A list without repetitions has as many members in front of a cut as the cut says. -/
theorem sum_ite_mem_take {α : Type*} [DecidableEq α] {l : List α} {n : ℕ} (hnodup : l.Nodup)
    (hn : n ≤ l.length) : (l.map fun a => if a ∈ l.take n then (1 : ℤ) else 0).sum = n := by
  have hdisj : ∀ a ∈ l.drop n, a ∉ l.take n := by
    rw [← List.take_append_drop n l] at hnodup
    exact fun a ha hmem => (List.nodup_append.mp hnodup).2.2 a hmem a ha rfl
  have hfront : ((l.take n).map fun a => if a ∈ l.take n then (1 : ℤ) else 0) =
      (l.take n).map fun _ => 1 := List.map_congr_left fun a ha => if_pos ha
  have hback : ((l.drop n).map fun a => if a ∈ l.take n then (1 : ℤ) else 0) =
      (l.drop n).map fun _ => 0 := List.map_congr_left fun a ha => if_neg (hdisj a ha)
  calc (l.map fun a => if a ∈ l.take n then (1 : ℤ) else 0).sum
      = ((l.take n).map fun a => if a ∈ l.take n then (1 : ℤ) else 0).sum +
          ((l.drop n).map fun a => if a ∈ l.take n then (1 : ℤ) else 0).sum := by
        rw [← List.sum_append, ← List.map_append, List.take_append_drop]
    _ = n := by
        rw [hfront, hback]
        simp [hn]

section Descending

variable {α K : Type*} [LinearOrder K] (f : α → K) {l : List α} {a b : α} {n : ℕ}

/-- A member before the cut has every larger one before the cut. -/
theorem mem_take_of_lt (hsorted : l.Pairwise fun a b => f b ≤ f a) (ha : a ∈ l.take n)
    (hb : b ∈ l) (hlt : f a < f b) : b ∈ l.take n := by
  rw [← List.take_append_drop n l] at hsorted hb
  rcases List.mem_append.mp hb with hb | hb
  · exact hb
  · have hle := (List.pairwise_append.mp hsorted).2.2 a ha b hb
    exact absurd hle (not_le.mpr hlt)

/-- The members above a bound are in front, so that a cut no longer than they are many has no
other. -/
theorem lt_of_mem_take {bound : K} (hsorted : l.Pairwise fun a b => f b ≤ f a)
    (hn : n ≤ l.countP fun a => bound < f a) (ha : a ∈ l.take n) : bound < f a := by
  induction l generalizing n with
  | nil => simp at ha
  | cons b l ih =>
    obtain ⟨hhead, hsorted⟩ := List.pairwise_cons.mp hsorted
    cases n with
    | zero => simp at ha
    | succ n =>
      have hb : bound < f b := by
        by_contra hb
        have hnone : (b :: l).countP (fun a => bound < f a) = 0 := by
          rw [List.countP_eq_zero]
          rintro c hc
          rcases List.mem_cons.mp hc with rfl | hc
          · simpa using hb
          · simpa using (hhead c hc).trans (not_lt.mp hb)
        omega
      rw [List.countP_cons_of_pos (by simpa using hb)] at hn
      rcases List.mem_cons.mp ha with rfl | ha
      · exact hb
      · exact ih hsorted (by omega) ha

end Descending

/-! ### Rounding -/

section Order

variable {α K : Type*} [Field K] [LinearOrder K] [FloorRing K]

/-- The parties, those with the largest remainders first. -/
def byRemainder (quota : α → K) (parties : List α) : List α :=
  parties.insertionSort fun a b => Int.fract (quota b) ≤ Int.fract (quota a)

theorem byRemainder_perm (quota : α → K) (parties : List α) :
    (byRemainder quota parties).Perm parties := List.perm_insertionSort _ _

theorem byRemainder_sorted (quota : α → K) (parties : List α) :
    (byRemainder quota parties).Pairwise fun a b => Int.fract (quota b) ≤ Int.fract (quota a) := by
  have total : Std.Total fun a b : α => Int.fract (quota b) ≤ Int.fract (quota a) :=
    ⟨fun _ _ => le_total _ _⟩
  have trans : IsTrans α fun a b => Int.fract (quota b) ≤ Int.fract (quota a) :=
    ⟨fun _ _ _ h h' => h'.trans h⟩
  exact List.pairwise_insertionSort _ _

/-- What is missing when every quota is rounded down. -/
def deficit (quota : α → K) (parties : List α) (seats : ℤ) : ℤ :=
  seats - (parties.map fun a => ⌊quota a⌋).sum

/-- The parties that get a seat more. -/
def favoured (quota : α → K) (parties : List α) (seats : ℤ) : List α :=
  (byRemainder quota parties).take (deficit quota parties seats).toNat

/-- The seats of a party. -/
def apportion [DecidableEq α] (quota : α → K) (parties : List α) (seats : ℤ) (a : α) : ℤ :=
  ⌊quota a⌋ + if a ∈ favoured quota parties seats then 1 else 0

variable [DecidableEq α] {quota : α → K} {parties : List α} {seats : ℤ} {a : α}

theorem floor_le_apportion : ⌊quota a⌋ ≤ apportion quota parties seats a := by
  unfold apportion
  split <;> omega

theorem apportion_le_floor_add_one : apportion quota parties seats a ≤ ⌊quota a⌋ + 1 := by
  unfold apportion
  split <;> omega

end Order

variable {α K : Type*} [Field K] [LinearOrder K] [IsStrictOrderedRing K] [FloorRing K]
  {quota : α → K} {parties : List α} {seats : ℤ} {a b : α}

/-- The deficit is the sum of the remainders. -/
theorem deficit_eq_sum_fract (hsum : (parties.map quota).sum = seats) :
    (deficit quota parties seats : K) = (parties.map fun a => Int.fract (quota a)).sum := by
  have hsplit : (parties.map quota).sum = ((parties.map fun a => ⌊quota a⌋).sum : ℤ) +
      (parties.map fun a => Int.fract (quota a)).sum := by
    clear hsum
    induction parties with
    | nil => simp
    | cons a parties ih =>
      simp only [List.map_cons, List.sum_cons, Int.cast_add]
      rw [ih]
      linear_combination -Int.floor_add_fract (quota a)
  rw [deficit, Int.cast_sub, ← hsum, hsplit]
  exact add_sub_cancel_left _ _

theorem deficit_nonneg (hsum : (parties.map quota).sum = seats) :
    0 ≤ deficit quota parties seats := by
  have h : (0 : K) ≤ deficit quota parties seats := by
    rw [deficit_eq_sum_fract hsum]
    exact List.sum_nonneg (by simp)
  exact_mod_cast h

/-- No more seats are missing than there are remainders. -/
theorem deficit_le_countP (hsum : (parties.map quota).sum = seats) :
    (deficit quota parties seats).toNat ≤ parties.countP fun a => 0 < Int.fract (quota a) := by
  have hle : (parties.map fun a => Int.fract (quota a)).sum ≤
      (parties.countP fun a => 0 < Int.fract (quota a) : ℕ) := by
    clear hsum
    induction parties with
    | nil => simp
    | cons a parties ih =>
      rw [List.map_cons, List.sum_cons, List.countP_cons]
      by_cases ha : 0 < Int.fract (quota a)
      · have hlt := Int.fract_lt_one (quota a)
        simp only [ha, decide_true, if_true, Nat.cast_add, Nat.cast_one]
        linarith
      · have hzero : Int.fract (quota a) = 0 := le_antisymm (not_lt.mp ha) (Int.fract_nonneg _)
        simpa [hzero] using ih
  rw [← deficit_eq_sum_fract hsum] at hle
  have hle' : deficit quota parties seats ≤
      (parties.countP fun a => 0 < Int.fract (quota a) : ℕ) := by exact_mod_cast hle
  omega

/-- A seat more goes to parties with a remainder only. -/
theorem fract_pos_of_mem_favoured (hsum : (parties.map quota).sum = seats)
    (ha : a ∈ favoured quota parties seats) : 0 < Int.fract (quota a) := by
  refine lt_of_mem_take (fun a => Int.fract (quota a)) (byRemainder_sorted quota parties) ?_ ha
  rw [(byRemainder_perm quota parties).countP_eq]
  exact deficit_le_countP hsum

variable [DecidableEq α]

/-- An integral quota is met. -/
theorem apportion_of_fract_eq_zero (hsum : (parties.map quota).sum = seats)
    (ha : Int.fract (quota a) = 0) : apportion quota parties seats a = ⌊quota a⌋ := by
  have hnot : a ∉ favoured quota parties seats := fun hmem =>
    (fract_pos_of_mem_favoured hsum hmem).ne' ha
  simp [apportion, hnot]

/-- A quota is rounded down or up. -/
theorem apportion_eq_floor_or_ceil (hsum : (parties.map quota).sum = seats) (a : α) :
    apportion quota parties seats a = ⌊quota a⌋ ∨ apportion quota parties seats a = ⌈quota a⌉ := by
  by_cases ha : a ∈ favoured quota parties seats
  · right
    have hpos : 0 < quota a - ⌊quota a⌋ := fract_pos_of_mem_favoured hsum ha
    rw [apportion, if_pos ha, eq_comm, Int.ceil_eq_iff]
    push_cast
    exact ⟨by linarith, (Int.lt_floor_add_one _).le⟩
  · left
    simp [apportion, ha]

theorem sum_favoured (hnodup : parties.Nodup) (hsum : (parties.map quota).sum = seats) :
    (parties.map fun a => if a ∈ favoured quota parties seats then (1 : ℤ) else 0).sum =
      deficit quota parties seats := by
  have hnodup' : (byRemainder quota parties).Nodup :=
    (byRemainder_perm quota parties).nodup_iff.mpr hnodup
  have hle : (deficit quota parties seats).toNat ≤ (byRemainder quota parties).length := by
    rw [(byRemainder_perm quota parties).length_eq]
    exact (deficit_le_countP hsum).trans List.countP_le_length
  rw [((byRemainder_perm quota parties).symm.map _).sum_eq, favoured,
    sum_ite_mem_take hnodup' hle, Int.toNat_of_nonneg (deficit_nonneg hsum)]

/-- The seats of the parties are as many as there are to be. -/
theorem sum_apportion (hnodup : parties.Nodup) (hsum : (parties.map quota).sum = seats) :
    (parties.map (apportion quota parties seats)).sum = seats := by
  have hsplit : (parties.map (apportion quota parties seats)).sum =
      (parties.map fun a => ⌊quota a⌋).sum +
        (parties.map fun a => if a ∈ favoured quota parties seats then (1 : ℤ) else 0).sum :=
    List.sum_map_add
  rw [hsplit, sum_favoured hnodup hsum, deficit]
  exact add_sub_cancel _ _

/-- Of two parties, the one with the larger quota has no fewer seats. -/
theorem apportion_le_apportion (hb : b ∈ parties) (hlt : quota a < quota b) :
    apportion quota parties seats a ≤ apportion quota parties seats b := by
  rcases (Int.floor_le_floor hlt.le).lt_or_eq with hfloor | hfloor
  · have ha := @apportion_le_floor_add_one _ _ _ _ _ _ quota parties seats a
    have hb' := @floor_le_apportion _ _ _ _ _ _ quota parties seats b
    omega
  · have hfract : Int.fract (quota a) < Int.fract (quota b) := by
      rw [Int.fract, Int.fract, hfloor]
      linarith
    have hmem : a ∈ favoured quota parties seats → b ∈ favoured quota parties seats := fun ha =>
      mem_take_of_lt (fun a => Int.fract (quota a)) (byRemainder_sorted quota parties) ha
        ((byRemainder_perm quota parties).mem_iff.mpr hb) hfract
    simp only [apportion, hfloor]
    split_ifs with ha hb'
    · exact le_rfl
    · exact absurd (hmem ha) hb'
    · omega
    · exact le_rfl

end Apportionment

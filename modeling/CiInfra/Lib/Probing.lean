import Mathlib.Data.Nat.Find
import Mathlib.Order.Monotone.Basic

/-!
# Probing for a free value

A search draws a value so many times, takes the first that is free, and falls back on a value of
its own if none of them is. What is found by one search after another, each going on with the draws
where the last one stopped?
-/

namespace Probing

variable {α : Type*}

/-- So many draws from the `n`-th on: the first value that is free, and the number of the draw that
comes next. -/
def probe (isFree : α → Bool) (draws : ℕ → α) : ℕ → ℕ → Option α × ℕ
  | 0, n => (none, n)
  | tries + 1, n =>
    if isFree (draws n) then (some (draws n), n + 1) else probe isFree draws tries (n + 1)

/-- One search. -/
def find (isFree : α → Bool) (draws : ℕ → α) (tries : ℕ) (fallback : α) (n : ℕ) : α × ℕ :=
  match probe isFree draws tries n with
  | (some a, n') => (a, n')
  | (none, n') => (fallback, n')

/-- One search after another. -/
def found (isFree : α → Bool) (draws : ℕ → α) (tries : ℕ) (fallback : α) : ℕ → α × ℕ
  | 0 => find isFree draws tries fallback 0
  | k + 1 => find isFree draws tries fallback (found isFree draws tries fallback k).2

/-- A value comes up if it is drawn and free, or if it is fallen back on when no draw of a search
would be free. -/
def ComesUp (isFree : α → Bool) (draws : ℕ → α) (tries : ℕ) (fallback a : α) : Prop :=
  (isFree a = true ∧ ∃ n, draws n = a) ∨
    a = fallback ∧ ∃ n, ∀ i < tries, isFree (draws (n + i)) = false

variable {isFree : α → Bool} {draws : ℕ → α} {tries : ℕ} {fallback a : α} {n : ℕ}

/-- A probe ends at the first free value, or after all its draws. -/
theorem probe_cases (isFree : α → Bool) (draws : ℕ → α) (tries n : ℕ) :
    (∃ i < tries, probe isFree draws tries n = (some (draws (n + i)), n + i + 1) ∧
      isFree (draws (n + i)) = true ∧ ∀ j < i, isFree (draws (n + j)) = false) ∨
    probe isFree draws tries n = (none, n + tries) ∧
      ∀ j < tries, isFree (draws (n + j)) = false := by
  induction tries generalizing n with
  | zero => exact Or.inr ⟨rfl, fun j hj => absurd hj (Nat.not_lt_zero j)⟩
  | succ tries ih =>
    rw [probe]
    split
    case isTrue hfree =>
      exact Or.inl ⟨0, Nat.succ_pos tries, rfl, hfree, fun j hj => absurd hj (Nat.not_lt_zero j)⟩
    case isFalse hfree =>
      have hfirst : isFree (draws n) = false := by simpa using hfree
      have hshift : ∀ j, n + 1 + j = n + (j + 1) := fun j => by omega
      have hnone : ∀ k, (∀ j < k, isFree (draws (n + 1 + j)) = false) →
          ∀ j < k + 1, isFree (draws (n + j)) = false := by
        intro k hk j hj
        cases j with
        | zero => exact hfirst
        | succ j => exact hshift j ▸ hk j (by omega)
      rcases ih (n + 1) with ⟨i, hi, hprobe, hfree, hbefore⟩ | ⟨hprobe, hall⟩
      · rw [hshift] at hprobe hfree
        exact Or.inl ⟨i + 1, by omega, hprobe, hfree, hnone i hbefore⟩
      · rw [hprobe, hshift]
        exact Or.inr ⟨rfl, hnone tries hall⟩

/-- What a search finds, and where it ends. -/
theorem find_cases (isFree : α → Bool) (draws : ℕ → α) (tries : ℕ) (fallback : α) (n : ℕ) :
    (∃ i < tries, find isFree draws tries fallback n = (draws (n + i), n + i + 1) ∧
      isFree (draws (n + i)) = true ∧ ∀ j < i, isFree (draws (n + j)) = false) ∨
    find isFree draws tries fallback n = (fallback, n + tries) ∧
      ∀ j < tries, isFree (draws (n + j)) = false := by
  unfold find
  rcases probe_cases isFree draws tries n with ⟨i, hi, hprobe, h⟩ | ⟨hprobe, h⟩
  · exact Or.inl ⟨i, hi, by rw [hprobe], h⟩
  · exact Or.inr ⟨by rw [hprobe], h⟩

theorem isFree_find (hfallback : isFree fallback = true) (n : ℕ) :
    isFree (find isFree draws tries fallback n).1 = true := by
  rcases find_cases isFree draws tries fallback n with ⟨i, -, hfind, hfree, -⟩ | ⟨hfind, -⟩
  · rw [hfind]
    exact hfree
  · rw [hfind]
    exact hfallback

theorem lt_find (htries : 0 < tries) (n : ℕ) : n < (find isFree draws tries fallback n).2 := by
  rcases find_cases isFree draws tries fallback n with ⟨i, -, hfind, -⟩ | ⟨hfind, -⟩ <;>
    rw [hfind] <;> omega

theorem comesUp_find (n : ℕ) :
    ComesUp isFree draws tries fallback (find isFree draws tries fallback n).1 := by
  rcases find_cases isFree draws tries fallback n with ⟨i, -, hfind, hfree, -⟩ | ⟨hfind, hall⟩
  · rw [hfind]
    exact Or.inl ⟨hfree, _, rfl⟩
  · rw [hfind]
    exact Or.inr ⟨rfl, n, hall⟩

theorem comesUp_found (k : ℕ) :
    ComesUp isFree draws tries fallback (found isFree draws tries fallback k).1 := by
  cases k with
  | zero => exact comesUp_find 0
  | succ k => exact comesUp_find _

/-- Every draw is one of some search: that search starts at it or before, and ends after it. -/
theorem exists_covering (isFree : α → Bool) (draws : ℕ → α) (htries : 0 < tries) (fallback : α)
    (n : ℕ) : ∃ k c, found isFree draws tries fallback k = find isFree draws tries fallback c ∧
      c ≤ n ∧ n < (find isFree draws tries fallback c).2 := by
  induction n with
  | zero => exact ⟨0, 0, rfl, Nat.le_refl 0, lt_find htries 0⟩
  | succ n ih =>
    obtain ⟨k, c, hk, hc, hn⟩ := ih
    rcases Nat.lt_or_ge (n + 1) (find isFree draws tries fallback c).2 with hlt | hge
    · exact ⟨k, c, hk, Nat.le_succ_of_le hc, hlt⟩
    · have hend : (find isFree draws tries fallback c).2 = n + 1 := by omega
      refine ⟨k + 1, n + 1, ?_, Nat.le_refl _, lt_find htries _⟩
      rw [found, hk, hend]

/-- What is found at some time is what comes up. -/
theorem exists_found_iff (htries : 0 < tries) :
    (∃ k, (found isFree draws tries fallback k).1 = a) ↔
      ComesUp isFree draws tries fallback a := by
  constructor
  · rintro ⟨k, rfl⟩
    exact comesUp_found k
  · rintro (⟨hfree, n, rfl⟩ | ⟨rfl, n, hall⟩)
    · obtain ⟨k, c, hk, hc, hn⟩ := exists_covering isFree draws htries fallback n
      refine ⟨k, ?_⟩
      rw [hk]
      -- The draw is free, so that it is the one at which the search ends.
      rcases find_cases isFree draws tries fallback c with
        ⟨i, -, hfind, -, hbefore⟩ | ⟨hfind, hall⟩
      · rw [hfind] at hn ⊢
        rcases Nat.lt_or_ge (n - c) i with hlt | hge
        · have hused := hbefore (n - c) hlt
          rw [Nat.add_sub_cancel' hc, hfree] at hused
          cases hused
        · have hi : c + i = n := by
            simp only at hn
            omega
          rw [hi]
      · rw [hfind] at hn
        have hused := hall (n - c) (by simp only at hn; omega)
        rw [Nat.add_sub_cancel' hc, hfree] at hused
        cases hused
    · obtain ⟨k, c, hk, hc, hn⟩ := exists_covering isFree draws htries a n
      refine ⟨k, ?_⟩
      rw [hk]
      -- A search that ends within the draws that are not free has used up all of its own.
      rcases find_cases isFree draws tries a c with ⟨i, hi, hfind, hfree, -⟩ | ⟨hfind, -⟩
      · rw [hfind] at hn
        have hused := hall (c + i - n) (by omega)
        have hci : n + (c + i - n) = c + i := by
          simp only at hn
          omega
        rw [hci, hfree] at hused
        cases hused
      · rw [hfind]

/-- Two searches find different values exactly if two values come up. -/
theorem exists_found_ne_iff (htries : 0 < tries) :
    (∃ k, (found isFree draws tries fallback k).1 ≠ (found isFree draws tries fallback 0).1) ↔
      ∃ a b, a ≠ b ∧ ComesUp isFree draws tries fallback a ∧
        ComesUp isFree draws tries fallback b := by
  constructor
  · rintro ⟨k, hne⟩
    exact ⟨_, _, hne, comesUp_found k, comesUp_found 0⟩
  · rintro ⟨a, b, hne, ha, hb⟩
    obtain ⟨k, rfl⟩ := (exists_found_iff htries).mpr ha
    obtain ⟨l, rfl⟩ := (exists_found_iff htries).mpr hb
    by_cases hk : (found isFree draws tries fallback k).1 = (found isFree draws tries fallback 0).1
    · exact ⟨l, fun hl => hne (hk.trans hl.symm)⟩
    · exact ⟨k, hk⟩

end Probing

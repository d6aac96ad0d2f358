import CiInfra.Lib.Characters
import Mathlib.Data.List.Infix
import Mathlib.Data.List.TakeWhile

/-!
# Texts with separators

What a text without some letter can be in a text that has the letter at a known place.
-/

namespace Separators

variable {α : Type*} {a b p s t x y : List α} {c : α}

theorem prefix_of_not_mem (h : p <+: s ++ c :: x) (hc : c ∉ p) : p <+: s := by
  have hs : s ++ [c] <+: s ++ c :: x := ⟨x, by simp⟩
  rcases List.prefix_or_prefix_of_prefix h hs with hp | hp
  · rcases List.prefix_concat_iff.mp hp with rfl | hp
    · simp at hc
    · exact hp
  · exact absurd (hp.mem (by simp)) hc

/-- What follows a part without the letter has the letter. -/
theorem exists_eq_of_append_cons (h : a ++ c :: b = x ++ y) (hx : c ∉ x) :
    ∃ z, a = x ++ z ∧ y = z ++ c :: b := by
  obtain ⟨z, rfl⟩ := prefix_of_not_mem ⟨y, h.symm⟩ hx
  rw [List.append_assoc] at h
  exact ⟨z, rfl, (List.append_cancel_left h).symm⟩

/-- Where a text is split at a letter, when its first part has none. -/
theorem eq_or_exists_of_append_cons (h : a ++ c :: b = x ++ c :: y) (hx : c ∉ x) :
    a = x ∧ b = y ∨ ∃ a', a = x ++ c :: a' ∧ a' ++ c :: b = y := by
  obtain ⟨z, rfl, hz⟩ := exists_eq_of_append_cons h hx
  cases z with
  | nil => exact Or.inl ⟨List.append_nil x, (List.cons.inj hz).2.symm⟩
  | cons d z =>
    obtain ⟨rfl, hy⟩ := List.cons.inj hz
    exact Or.inr ⟨z, rfl, hy.symm⟩

/-- A text without the letter that both parts end at is split in one way. -/
theorem append_cons_inj (h : a ++ c :: b = x ++ c :: y) (ha : c ∉ a) (hx : c ∉ x) :
    a = x ∧ b = y := by
  rcases eq_or_exists_of_append_cons h hx with h | ⟨a', rfl, -⟩
  · exact h
  · simp at ha

/-- If no ending follows the letter within another one, what is before the letter and the ending is
determined by the whole. -/
theorem append_cons_inj_of_endings {endings : List (List α)}
    (hends : ∀ s ∈ endings, ∀ t ∈ endings, ¬ c :: s <:+ t) (hs : s ∈ endings) (ht : t ∈ endings)
    (h : a ++ c :: s = b ++ c :: t) : a = b ∧ s = t := by
  have hst : c :: s <:+ b ++ c :: t := ⟨a, h⟩
  have hsuffix : c :: s <:+ c :: t ∨ c :: t <:+ c :: s :=
    List.suffix_or_suffix_of_suffix hst (List.suffix_append b (c :: t))
  have heq : s = t := by
    rcases hsuffix with hsuffix | hsuffix
    · rcases List.suffix_cons_iff.mp hsuffix with heq | hin
      · exact (List.cons.inj heq).2
      · exact absurd hin (hends s hs t ht)
    · rcases List.suffix_cons_iff.mp hsuffix with heq | hin
      · exact (List.cons.inj heq).2.symm
      · exact absurd hin (hends t ht s hs)
  subst heq
  exact ⟨List.append_cancel_right h, rfl⟩

theorem infix_append_cons_iff (hc : c ∉ p) : p <:+: t ++ c :: s ↔ p <:+: t ∨ p <:+: s := by
  constructor
  · rintro ⟨u, v, h⟩
    rw [List.append_assoc] at h
    rcases List.append_eq_append_iff.mp h with ⟨z, rfl, hz⟩ | ⟨z, rfl, hz⟩
    · left
      have hpre : p <+: z := prefix_of_not_mem ⟨v, hz⟩ hc
      exact hpre.isInfix.trans (List.suffix_append u z).isInfix
    · cases z with
      | nil =>
        left
        have hpre : p <+: [] := prefix_of_not_mem (c := c) (x := s) ⟨v, hz.symm⟩ hc
        exact hpre.isInfix.trans (List.nil_infix)
      | cons d z =>
        obtain ⟨rfl, rfl⟩ := List.cons.inj hz
        exact Or.inr ⟨z, v, by simp⟩
  · rintro (h | h)
    · exact h.trans (List.prefix_append t _).isInfix
    · exact h.trans ((List.suffix_cons c s).trans (List.suffix_append t _)).isInfix

/-- Parts are joined without letters that neither they nor the separator have. -/
theorem not_mem_intercalate {sep : α} (hc : c ≠ sep) {parts : List (List α)}
    (hparts : ∀ part ∈ parts, c ∉ part) : c ∉ [sep].intercalate parts := by
  induction parts with
  | nil => exact List.not_mem_nil
  | cons part parts ih =>
    have hpart := hparts part List.mem_cons_self
    cases parts with
    | nil => simpa using hpart
    | cons part' parts =>
      rw [List.intercalate_cons_cons]
      have hrest := ih fun p hp => hparts p (List.mem_cons_of_mem _ hp)
      simp [hpart, hc, hrest]

theorem mem_intercalate {sep : α} {parts : List (List α)} (hp : p ∈ parts) (hc : c ∈ p) :
    c ∈ [sep].intercalate parts := by
  induction parts with
  | nil => cases hp
  | cons part parts ih =>
    cases parts with
    | nil =>
      rw [List.intercalate_singleton, ← List.mem_singleton.mp hp]
      exact hc
    | cons part' parts =>
      rw [List.intercalate_cons_cons]
      rcases List.mem_cons.mp hp with rfl | hp
      · simp [hc]
      · exact List.mem_append_right _ (ih hp)

/-! ### Parts -/

section Parts

variable [BEq α] [LawfulBEq α]

/-- The parts between separators have none. -/
theorem not_mem_of_mem_splitOn (h : p ∈ s.splitOn c) : c ∉ p := by
  induction s generalizing p with
  | nil =>
    rw [List.splitOn_nil, List.mem_singleton] at h
    rw [h]
    exact List.not_mem_nil
  | cons d s ih =>
    rw [List.splitOn_cons_eq_if_modifyHead] at h
    split at h
    · rcases List.mem_cons.mp h with rfl | h
      · exact List.not_mem_nil
      · exact ih h
    · rename_i hd
      obtain ⟨q, qs, hq⟩ := List.exists_cons_of_ne_nil (List.splitOn_ne_nil c s)
      rw [hq] at h ih
      rcases List.mem_cons.mp h with rfl | h
      · have hne : c ≠ d := by
          rintro rfl
          simp at hd
        exact List.not_mem_cons_of_ne_of_not_mem hne (ih List.mem_cons_self)
      · exact ih (List.mem_cons_of_mem _ h)

theorem mem_of_mem_splitOn {d : α} (h : p ∈ s.splitOn c) (hd : d ∈ p) : d ∈ s := by
  have hmem : d ∈ [c].intercalate (s.splitOn c) := mem_intercalate h hd
  rwa [List.intercalate_splitOn] at hmem

end Parts

/-! ### Up to the first letter of a kind -/

section UpTo

variable [DecidableEq α] {d : α}

theorem takeWhile_ne_eq_self (hs : c ∉ s) : s.takeWhile (· ≠ c) = s :=
  List.takeWhile_eq_self_iff.mpr fun d hd => by simpa using fun h : d = c => hs (h ▸ hd)

theorem takeWhile_ne_append (hs : c ∉ s) (t : List α) : (s ++ c :: t).takeWhile (· ≠ c) = s := by
  rw [List.takeWhile_append_of_pos (List.takeWhile_eq_self_iff.mp (takeWhile_ne_eq_self hs))]
  simp

theorem dropWhile_ne_append (hs : c ∉ s) (t : List α) :
    (s ++ c :: t).dropWhile (· ≠ c) = c :: t := by
  rw [List.dropWhile_append_of_pos (List.takeWhile_eq_self_iff.mp (takeWhile_ne_eq_self hs))]
  simp

theorem dropWhile_ne_eq_cons (h : s.dropWhile (· ≠ c) = d :: t) :
    d = c ∧ s = s.takeWhile (· ≠ c) ++ c :: t ∧ c ∉ s.takeWhile (· ≠ c) := by
  have hd := List.head?_dropWhile_not (p := (· ≠ c)) (l := s)
  have hmem : c ∉ s.takeWhile (· ≠ c) := fun hc => by simpa using List.mem_takeWhile_imp hc
  rw [h] at hd
  obtain rfl : d = c := by simpa using hd
  exact ⟨rfl, by rw [← h, List.takeWhile_append_dropWhile], hmem⟩

end UpTo

end Separators

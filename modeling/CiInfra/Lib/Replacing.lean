import Mathlib.Data.List.DropRight
import Mathlib.Data.List.Infix

/-!
# Replacing and trimming

Replacing the occurrences of a text by a shorter one, again and again until there is none, and
cutting letters off both ends of a text. What is left alone by either?
-/

namespace Replacing

variable {α : Type*}

/-! ### Replacing -/

section

variable [DecidableEq α]

/-- The text with the occurrences of `old` replaced from left to right; as many letters as the
number says belong to an occurrence that has been replaced. -/
def replaceFrom (old new : List α) : ℕ → List α → List α
  | _, [] => []
  | n + 1, _ :: s => replaceFrom old new n s
  | 0, c :: s =>
    if old <+: c :: s then new ++ replaceFrom old new (old.length - 1) s
    else c :: replaceFrom old new 0 s

/-- `replace` of a text that is not empty. -/
def replace (old new s : List α) : List α :=
  replaceFrom old new 0 s

/-- Replace as long as there is an occurrence, so many times at most. -/
def replaceUpTo (old new : List α) : ℕ → List α → List α
  | 0, s => s
  | n + 1, s => if old <:+: s then replaceUpTo old new n (replace old new s) else s

/-- Replace until there is no occurrence. A shorter text is put in, so that there are no more
rounds than letters. -/
def replaceAll (old new s : List α) : List α :=
  replaceUpTo old new s.length s

variable {old new s : List α} {n : ℕ} {c : α}

theorem length_replaceFrom_le (hnew : new.length ≤ old.length) (hold : old ≠ []) (n : ℕ)
    (s : List α) : (replaceFrom old new n s).length ≤ s.length - n := by
  induction s generalizing n with
  | nil => simp [replaceFrom]
  | cons c s ih =>
    cases n with
    | succ n =>
      rw [replaceFrom, List.length_cons, Nat.add_sub_add_right]
      exact ih n
    | zero =>
      have hpos := List.length_pos_of_ne_nil hold
      rw [replaceFrom]
      split_ifs with hprefix
      · have hle := hprefix.length_le
        have hrest := ih (old.length - 1)
        rw [List.length_cons] at hle ⊢
        rw [List.length_append]
        omega
      · have hrest := ih 0
        rw [List.length_cons, List.length_cons]
        omega

/-- An occurrence is replaced by a shorter text. -/
theorem length_replace_lt (hnew : new.length < old.length) (h : old <:+: s) :
    (replace old new s).length < s.length := by
  have hold : old ≠ [] := List.ne_nil_of_length_pos (by omega)
  unfold replace
  induction s with
  | nil => exact absurd (List.infix_nil.mp h) hold
  | cons c s ih =>
    rw [replaceFrom]
    split_ifs with hprefix
    · have hle := hprefix.length_le
      have hrest := length_replaceFrom_le hnew.le hold (old.length - 1) s
      rw [List.length_cons] at hle ⊢
      rw [List.length_append]
      omega
    · have hrest := ih ((List.infix_cons_iff.mp h).resolve_left hprefix)
      rw [List.length_cons, List.length_cons]
      omega

theorem mem_replaceFrom (h : c ∈ replaceFrom old new n s) : c ∈ s ∨ c ∈ new := by
  induction s generalizing n with
  | nil => exact Or.inl h
  | cons d s ih =>
    cases n with
    | succ n => exact (ih h).imp (List.mem_cons_of_mem d) id
    | zero =>
      rw [replaceFrom] at h
      split_ifs at h
      · rcases List.mem_append.mp h with hnew | hrest
        · exact Or.inr hnew
        · exact (ih hrest).imp (List.mem_cons_of_mem d) id
      · rcases List.mem_cons.mp h with rfl | hrest
        · exact Or.inl List.mem_cons_self
        · exact (ih hrest).imp (List.mem_cons_of_mem d) id

theorem mem_replaceUpTo (h : c ∈ replaceUpTo old new n s) : c ∈ s ∨ c ∈ new := by
  induction n generalizing s with
  | zero => exact Or.inl h
  | succ n ih =>
    rw [replaceUpTo] at h
    split_ifs at h
    · rcases ih h with hmem | hnew
      · exact mem_replaceFrom hmem
      · exact Or.inr hnew
    · exact Or.inl h

theorem mem_replaceAll (h : c ∈ replaceAll old new s) : c ∈ s ∨ c ∈ new :=
  mem_replaceUpTo h

theorem replaceUpTo_of_not_infix (h : ¬ old <:+: s) (n : ℕ) : replaceUpTo old new n s = s := by
  cases n with
  | zero => rfl
  | succ n => rw [replaceUpTo, if_neg h]

theorem replaceAll_of_not_infix (h : ¬ old <:+: s) : replaceAll old new s = s :=
  replaceUpTo_of_not_infix h s.length

/-- In the end there is no occurrence. -/
theorem not_infix_replaceAll (hnew : new.length < old.length) :
    ¬ old <:+: replaceAll old new s := by
  suffices h : ∀ n s, s.length ≤ n → ¬ old <:+: replaceUpTo old new n s from h _ s le_rfl
  intro n
  induction n with
  | zero =>
    intro s hs hpart
    rw [replaceUpTo, List.eq_nil_of_length_eq_zero (Nat.le_zero.mp hs), List.infix_nil] at hpart
    rw [hpart] at hnew
    exact absurd hnew (Nat.not_lt_zero _)
  | succ n ih =>
    intro s hs
    rw [replaceUpTo]
    split_ifs with hpart
    · have hlt := length_replace_lt hnew hpart
      exact ih _ (by omega)
    · exact hpart

end

/-! ### Trimming -/

/-- The text without the letters in question at both ends. -/
def trim (p : α → Bool) (s : List α) : List α :=
  (s.dropWhile p).rdropWhile p

variable {s t : List α} {p : α → Bool}

theorem dropWhile_eq_self_iff :
    s.dropWhile p = s ↔ ∀ c, s.head? = some c → p c = false := by
  cases s with
  | nil => exact iff_of_true rfl fun c hc => absurd hc (Option.some_ne_none c).symm
  | cons d s =>
    cases hd : p d with
    | true =>
      refine iff_of_false (fun h => ?_) fun h => by simp [h d rfl] at hd
      have hlength := (List.dropWhile_suffix (l := s) p).length_le
      rw [List.dropWhile_cons_of_pos hd] at h
      rw [h, List.length_cons] at hlength
      omega
    | false =>
      refine iff_of_true (List.dropWhile_cons_of_neg (by simp [hd])) fun c hc => ?_
      rwa [← Option.some.inj hc]

theorem rdropWhile_eq_self_iff :
    s.rdropWhile p = s ↔ ∀ c, s.getLast? = some c → p c = false := by
  rw [List.rdropWhile, List.reverse_eq_iff, dropWhile_eq_self_iff, List.head?_reverse]

/-- What begins with a letter that is not cut off does so when letters are cut off at its end. -/
theorem dropWhile_of_prefix (h : s.dropWhile p = s) (ht : t <+: s) : t.dropWhile p = t := by
  rw [dropWhile_eq_self_iff] at h ⊢
  intro c hc
  obtain ⟨r, rfl⟩ := ht
  exact h c (by rw [List.head?_append, hc, Option.some_or])

theorem trim_isInfix (p : α → Bool) (s : List α) : trim p s <:+: s :=
  (List.rdropWhile_prefix p _).isInfix.trans (List.dropWhile_suffix p).isInfix

theorem dropWhile_trim (p : α → Bool) (s : List α) : (trim p s).dropWhile p = trim p s :=
  dropWhile_of_prefix (List.dropWhile_idempotent p s) (List.rdropWhile_prefix p _)

theorem rdropWhile_trim (p : α → Bool) (s : List α) : (trim p s).rdropWhile p = trim p s :=
  List.rdropWhile_idempotent p _

/-- A text neither of whose ends is to be cut off is left alone. -/
theorem trim_eq_self (hleft : s.dropWhile p = s) (hright : s.rdropWhile p = s) :
    trim p s = s := by
  rw [trim, hleft, hright]

end Replacing

/-!
# Characters

What lower case and digits have to do with each other and with other characters.
-/

namespace Characters

variable {c d : Char}

-- The priority is high since Batteries decides a property of all characters by looking at each.
/-- A property of the characters of a text is decided on the text. -/
instance (priority := high) decidableForallMem (p : Char → Prop) [DecidablePred p]
    (s : List Char) : Decidable (∀ c ∈ s, p c) :=
  List.decidableBAll p s

/-- Only letters change when a text is brought to lower case. -/
theorem eq_of_toLower_eq (hd : d < 'a' ∨ 'z' < d) (h : c.toLower = d) : c = d := by
  unfold Char.toLower at h
  split at h
  · rename_i hcap
    obtain ⟨hle, hge⟩ := hcap
    subst h
    have hA : 'A'.val.toNat = 65 := rfl
    have hZ : 'Z'.val.toNat = 90 := rfl
    have ha : 'a'.val.toNat = 97 := rfl
    have hz : 'z'.val.toNat = 122 := rfl
    have hshift : ('a'.val - 'A'.val).toNat = 32 := rfl
    simp only [Char.lt_def, ge_iff_le, UInt32.le_iff_toNat_le, UInt32.lt_iff_toNat_lt,
      UInt32.toNat_add] at hd hle hge
    omega
  · exact h

/-- Digits come before all letters. -/
theorem lt_of_isDigit (h : c.isDigit = true) : c < 'A' := by
  simp only [Char.isDigit, Bool.and_eq_true, decide_eq_true_eq] at h
  exact Char.lt_def.mpr (UInt32.lt_of_le_of_lt h.2 (by decide))

theorem toLower_eq_of_lt (h : c < 'A') : c.toLower = c :=
  dif_neg fun hcap => UInt32.not_le.mpr (Char.lt_def.mp h) hcap.1

theorem toLower_eq_of_isLower (h : c.isLower = true) : c.toLower = c := by
  have hle : 'a'.val ≤ c.val := of_decide_eq_true (Bool.and_eq_true_iff.mp h).1
  exact dif_neg fun hcap => absurd (UInt32.le_trans hle hcap.2) (by decide)

theorem isDigit_toLower (c : Char) : c.toLower.isDigit = c.isDigit := by
  rw [Bool.eq_iff_iff]
  constructor
  · intro h
    have hlt : c.toLower < 'a' := Char.lt_trans (lt_of_isDigit h) (by decide)
    rwa [eq_of_toLower_eq (Or.inl hlt) rfl]
  · intro h
    rwa [toLower_eq_of_lt (lt_of_isDigit h)]

theorem ne_underscore_of_isDigit (h : c.isDigit = true) : c ≠ '_' := by
  rintro rfl
  exact absurd h (by decide)

theorem isWhitespace_of_isDigit (h : c.isDigit = true) : c.isWhitespace = false := by
  simp only [Char.isDigit, Bool.and_eq_true, decide_eq_true_eq] at h
  simp only [Char.isWhitespace, Bool.or_eq_false_iff, decide_eq_false_iff_not]
  refine ⟨⟨⟨?_, ?_⟩, ?_⟩, ?_⟩ <;> (rintro rfl; exact absurd h (by decide))

/-- Letters and digits lie between zero and the last small letter. -/
theorem toNat_of_isAlphanum (h : c.isAlphanum = true) : 48 ≤ c.toNat ∧ c.toNat ≤ 122 := by
  have hcases : (c.isUpper || c.isLower || c.isDigit) = true := h
  have hrange {lo hi : UInt32} (hlo : lo ≤ c.val) (hhi : c.val ≤ hi) :
      lo.toNat ≤ c.toNat ∧ c.toNat ≤ hi.toNat :=
    ⟨UInt32.le_iff_toNat_le.mp hlo, UInt32.le_iff_toNat_le.mp hhi⟩
  rw [Bool.or_eq_true, Bool.or_eq_true] at hcases
  rcases hcases with (hupper | hlower) | hdigit
  · have hval : 65 ≤ c.val ∧ c.val ≤ 90 := of_decide_eq_true hupper
    have hnat : 65 ≤ c.toNat ∧ c.toNat ≤ 90 := hrange hval.1 hval.2
    omega
  · have hval := Bool.and_eq_true_iff.mp hlower
    have hnat : 97 ≤ c.toNat ∧ c.toNat ≤ 122 :=
      hrange (of_decide_eq_true hval.1) (of_decide_eq_true hval.2)
    omega
  · have hval := Bool.and_eq_true_iff.mp hdigit
    have hnat : 48 ≤ c.toNat ∧ c.toNat ≤ 57 :=
      hrange (of_decide_eq_true hval.1) (of_decide_eq_true hval.2)
    omega

end Characters

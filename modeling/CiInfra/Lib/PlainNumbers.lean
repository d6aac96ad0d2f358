import CiInfra.Lib.Characters
import CiInfra.Lib.PythonNumber
import Mathlib.Tactic.Ring

/-!
# Numbers that are written plainly

Python reads a decimal number that consists of digits, with a sign, a point or an exponent, as the
number that it is.
-/

namespace PythonNumber

open Characters

/-- The value of a digit. -/
def digitValue (c : Char) : ℕ := c.toNat - '0'.toNat

/-- The value of a run of digits. -/
def digitsValue (digits : List Char) : ℕ := digits.foldl (fun n c => 10 * n + digitValue c) 0

/-- All characters are digits. -/
def AllDigits (digits : List Char) : Prop := ∀ c ∈ digits, c.isDigit = true

instance (digits : List Char) : Decidable (AllDigits digits) :=
  inferInstanceAs (Decidable (∀ c ∈ digits, c.isDigit = true))

/-- The text does not go on with a digit, or with an underscore that may come between digits. -/
def EndsDigits (rest : List Char) : Prop := ∀ c ∈ rest.head?, c.isDigit = false ∧ c ≠ '_'

section Digits

variable {digits rest : List Char}

theorem foldl_digits (digits : List Char) (n : ℕ) :
    digits.foldl (fun n c => 10 * n + digitValue c) n =
      n * 10 ^ digits.length + digitsValue digits := by
  unfold digitsValue
  induction digits generalizing n with
  | nil => simp
  | cons c digits ih =>
    rw [List.foldl_cons, List.foldl_cons, ih, ih (10 * 0 + digitValue c), List.length_cons,
      pow_succ]
    ring

theorem digitsValue_cons (c : Char) (digits : List Char) :
    digitsValue (c :: digits) = digitValue c * 10 ^ digits.length + digitsValue digits := by
  calc digitsValue (c :: digits)
      = (10 * 0 + digitValue c) * 10 ^ digits.length + digitsValue digits := foldl_digits digits _
    _ = digitValue c * 10 ^ digits.length + digitsValue digits := by
      rw [Nat.mul_zero, Nat.zero_add]

/-- Only digits, and only the value goes on. -/
theorem digitsFrom_of_endsDigits (h : EndsDigits rest) (value count : ℕ) :
    digitsFrom value count rest = (value, count, rest) := by
  cases rest with
  | nil => rfl
  | cons c rest =>
    obtain ⟨hdigit, hunderscore⟩ := h c rfl
    rw [digitsFrom.eq_2]
    · simp [hdigit]
    · exact fun c' cs hc => absurd hc hunderscore

/-- Digits are read as their value. -/
theorem digitsFrom_append (hdigits : AllDigits digits) (hrest : EndsDigits rest) (value count : ℕ) :
    digitsFrom value count (digits ++ rest) =
      (value * 10 ^ digits.length + digitsValue digits, count + digits.length, rest) := by
  induction digits generalizing value count with
  | nil => simpa [digitsValue] using digitsFrom_of_endsDigits hrest value count
  | cons c digits ih =>
    obtain ⟨hc, hdigits⟩ := List.forall_mem_cons.mp hdigits
    rw [List.cons_append, digitsFrom.eq_2, if_pos hc, ih hdigits]
    · rw [digitsValue_cons, List.length_cons, pow_succ]
      refine Prod.ext ?_ (Prod.ext (by simp only; omega) rfl)
      simp only [digitValue]
      ring
    · exact fun c' cs hcs => absurd hcs (ne_underscore_of_isDigit hc)

theorem digitsFrom_digits (hdigits : AllDigits digits) :
    digitsFrom 0 0 digits = (digitsValue digits, digits.length, []) := by
  have hnil : EndsDigits [] := by simp [EndsDigits]
  have h := digitsFrom_append hdigits hnil 0 0
  simpa using h

theorem sign_of_isDigit {c : Char} {cs : List Char} (h : c.isDigit = true) :
    sign (c :: cs) = (1, c :: cs) := by
  rw [sign.eq_3]
  · rintro cs' ⟨⟩
    exact absurd h (by decide)
  · rintro cs' ⟨⟩
    exact absurd h (by decide)

end Digits

/-- Text without blanks is not stripped. -/
theorem strip_of_forall {cs : List Char} (h : ∀ c ∈ cs, c.isWhitespace = false) :
    strip cs = cs := by
  have hdrop {l : List Char} (hl : ∀ c ∈ l, c.isWhitespace = false) :
      l.dropWhile Char.isWhitespace = l := by
    cases l with
    | nil => rfl
    | cons c l => rw [List.dropWhile_cons_of_neg (by simp [hl c List.mem_cons_self])]
  rw [strip, hdrop h, hdrop (fun c hc => h c (List.mem_reverse.mp hc)), List.reverse_reverse]

/-! ### Integers -/

/-- Digits are an integer, after a sign or without one. -/
theorem int?_of_sign {cs : List Char} (hdigits : AllDigits (sign cs).2) (hne : (sign cs).2 ≠ []) :
    int? cs = some ((sign cs).1 * digitsValue (sign cs).2) := by
  have hlength : 0 < (sign cs).2.length := List.length_pos_iff.mpr hne
  have hblank : ∀ c ∈ (sign cs).2, c.isWhitespace = false :=
    fun c hc => isWhitespace_of_isDigit (hdigits c hc)
  have hstrip : strip cs = cs := by
    refine strip_of_forall ?_
    revert hblank
    fun_cases sign cs with
    | case1 => exact fun h => List.forall_mem_cons.mpr ⟨by decide, h⟩
    | case2 => exact fun h => List.forall_mem_cons.mpr ⟨by decide, h⟩
    | case3 => exact id
  rw [int?, hstrip]
  simp [digitsFrom_digits hdigits, hlength]

/-- Digits without a sign are the number that they spell. -/
theorem int?_digits {digits : List Char} (hdigits : AllDigits digits) (hne : digits ≠ []) :
    int? digits = some (digitsValue digits : ℤ) := by
  obtain ⟨c, cs, rfl⟩ := List.exists_cons_of_ne_nil hne
  have hsign : sign (c :: cs) = (1, c :: cs) := sign_of_isDigit (hdigits c List.mem_cons_self)
  have hint := @int?_of_sign (c :: cs) (by rw [hsign]; exact hdigits) (by rw [hsign]; exact hne)
  rw [hint, hsign, one_mul]

/-- What is written for a natural number is read as that. -/
theorem int?_toString (n : ℕ) : int? (toString (n : ℤ)).toList = some (n : ℤ) := by
  have htext : (toString (n : ℤ)).toList = Nat.toDigits 10 n := Nat.toList_repr
  have hdigits : AllDigits (Nat.toDigits 10 n) := fun c hc =>
    Nat.isDigit_of_mem_toDigits (by decide) (by decide) hc
  have hvalue : digitsValue (Nat.toDigits 10 n) = n := Nat.ofDigitChars_ten_toDigits
  rw [htext, int?_digits hdigits Nat.toDigits_ne_nil, hvalue]

/-! ### Decimal numbers -/

/-- A fraction after a point. -/
def fractionText : Option (List Char) → List Char
  | none => []
  | some fraction => '.' :: fraction

/-- The value of the digits after a point. -/
def fractionValue : Option (List Char) → ℚ
  | none => 0
  | some fraction => digitsValue fraction / 10 ^ fraction.length

/-- An exponent, with its sign. -/
structure Exponent where
  /-- The letter is in upper case. -/
  upper : Bool
  /-- The sign is written, and is a minus. -/
  minus : Option Bool
  digits : List Char
  allDigits : AllDigits digits
  digits_ne : digits ≠ []

namespace Exponent

def text (e : Exponent) : List Char :=
  (if e.upper then 'E' else 'e') ::
    (match e.minus with
      | none => e.digits
      | some true => '-' :: e.digits
      | some false => '+' :: e.digits)

def value (e : Exponent) : ℤ :=
  if e.minus = some true then -digitsValue e.digits else digitsValue e.digits

end Exponent

/-- The text of an exponent, if there is one. -/
def exponentText : Option Exponent → List Char
  | none => []
  | some e => e.text

def exponentValue : Option Exponent → ℤ
  | none => 0
  | some e => e.value

/-- A decimal number without a sign: digits before or after the point, or both. -/
structure DecimalNumber where
  whole : List Char
  fraction : Option (List Char)
  whole_digits : AllDigits whole
  fraction_digits : ∀ digits ∈ fraction, AllDigits digits
  some_digit : whole ≠ [] ∨ ∃ digits, fraction = some digits ∧ digits ≠ []

namespace DecimalNumber

def text (d : DecimalNumber) : List Char := d.whole ++ fractionText d.fraction

def value (d : DecimalNumber) : ℚ := digitsValue d.whole + fractionValue d.fraction

end DecimalNumber

section Decimals

theorem exponent?_text (e : Option Exponent) :
    exponent? (exponentText e) = some (exponentValue e) := by
  cases e with
  | none => rfl
  | some e =>
    obtain ⟨upper, minus, digits, hdigits, hne⟩ := e
    have hlength : 0 < digits.length := List.length_pos_iff.mpr hne
    have hletter : (if upper then 'E' else 'e') = 'e' ∨ (if upper then 'E' else 'e') = 'E' := by
      cases upper <;> simp
    rw [exponentText, Exponent.text, exponent?, if_pos hletter]
    cases minus with
    | none =>
      obtain ⟨c, rest, rfl⟩ := List.exists_cons_of_ne_nil hne
      simp [sign_of_isDigit (hdigits c List.mem_cons_self), digitsFrom_digits hdigits,
        exponentValue, Exponent.value]
    | some minus =>
      cases minus <;>
        simp [sign, digitsFrom_digits hdigits, hlength, exponentValue, Exponent.value]

theorem isWhitespace_of_mem_exponent {e : Exponent} {c : Char} (h : c ∈ e.text) :
    c.isWhitespace = false := by
  have hmem : c = 'e' ∨ c = 'E' ∨ c = '+' ∨ c = '-' ∨ c ∈ e.digits := by
    rw [Exponent.text, List.mem_cons] at h
    rcases h with rfl | h
    · cases e.upper <;> simp
    · rcases hminus : e.minus with - | - | - <;> rw [hminus] at h
      · exact Or.inr (Or.inr (Or.inr (Or.inr h)))
      · rcases List.mem_cons.mp h with rfl | h <;> simp [*]
      · rcases List.mem_cons.mp h with rfl | h <;> simp [*]
  rcases hmem with rfl | rfl | rfl | rfl | h
  · decide
  · decide
  · decide
  · decide
  · exact isWhitespace_of_isDigit (e.allDigits c h)

/-- The text does not go on with what may belong to a number without exponent. -/
def EndsNumber (tail : List Char) : Prop :=
  ∀ c ∈ tail.head?, c.isDigit = false ∧ c ≠ '_' ∧ c ≠ '.'

theorem EndsNumber.endsDigits {tail : List Char} (h : EndsNumber tail) : EndsDigits tail :=
  fun c hc => ⟨(h c hc).1, (h c hc).2.1⟩

theorem endsNumber_exponentText (e : Option Exponent) : EndsNumber (exponentText e) := by
  cases e with
  | none => simp [EndsNumber, exponentText]
  | some e =>
    intro c hc
    obtain rfl : (if e.upper then 'E' else 'e') = c := Option.some.inj hc
    cases e.upper <;> decide

variable {tail : List Char}

/-- After the point come digits, or none where there are digits before it. -/
theorem fraction?_append (d : DecimalNumber) (htail : EndsNumber tail) :
    fraction? (digitsValue d.whole) d.whole.length (fractionText d.fraction ++ tail) =
      some (d.value, tail) := by
  obtain ⟨whole, fraction, hwhole, hfraction, hsome⟩ := d
  cases fraction with
  | none =>
    have hlength : 0 < whole.length := by
      refine List.length_pos_iff.mpr (hsome.resolve_right ?_)
      rintro ⟨digits, hdigits, -⟩
      cases hdigits
    rw [fractionText, List.nil_append, fraction?.eq_2]
    · simp [hlength, DecimalNumber.value, fractionValue]
    · rintro cs rfl
      exact (htail '.' rfl).2.2 rfl
  | some digits =>
    have hdigits := hfraction digits rfl
    have hlength : 0 < whole.length + digits.length := by
      rcases hsome with hne | ⟨_, heq, hne⟩
      · exact Nat.add_pos_left (List.length_pos_iff.mpr hne) _
      · cases heq
        exact Nat.add_pos_right _ (List.length_pos_iff.mpr hne)
    rw [fractionText, List.cons_append, fraction?, digitsFrom_append hdigits htail.endsDigits]
    simp [hlength, DecimalNumber.value, fractionValue]

theorem endsDigits_fractionText_append (fraction : Option (List Char)) (htail : EndsNumber tail) :
    EndsDigits (fractionText fraction ++ tail) := by
  cases fraction with
  | none => exact htail.endsDigits
  | some fraction =>
    rintro c ⟨⟩
    decide

/-- A plus sign, where it is written. -/
def plusText (plus : Bool) : List Char := if plus then ['+'] else []

/-- A number begins with a digit or with its point. -/
theorem sign_text_append (plus : Bool) (d : DecimalNumber) (tail : List Char) :
    sign (plusText plus ++ (d.text ++ tail)) = (1, d.text ++ tail) := by
  cases plus with
  | true => rfl
  | false =>
    obtain ⟨whole, fraction, hwhole, hfraction, hsome⟩ := d
    cases whole with
    | cons c whole => exact sign_of_isDigit (hwhole c List.mem_cons_self)
    | nil =>
      obtain ⟨digits, rfl, -⟩ := hsome.resolve_left (absurd rfl)
      rfl

theorem isWhitespace_of_mem_text {d : DecimalNumber} {c : Char} (hc : c ∈ d.text) :
    c.isWhitespace = false := by
  rcases List.mem_append.mp hc with hc | hc
  · exact isWhitespace_of_isDigit (d.whole_digits c hc)
  · cases hfraction : d.fraction with
    | none =>
      rw [hfraction] at hc
      cases hc
    | some digits =>
      rw [hfraction] at hc
      rcases List.mem_cons.mp hc with rfl | hc
      · decide
      · exact isWhitespace_of_isDigit (d.fraction_digits digits hfraction c hc)

/-- Nothing is stripped from a number. -/
theorem strip_text_append (plus : Bool) (d : DecimalNumber)
    (hblank : ∀ c ∈ tail, c.isWhitespace = false) :
    strip (plusText plus ++ (d.text ++ tail)) = plusText plus ++ (d.text ++ tail) := by
  refine strip_of_forall fun c hc => ?_
  rcases List.mem_append.mp hc with hc | hc
  · cases plus with
    | true =>
      obtain rfl := List.mem_singleton.mp hc
      decide
    | false => cases hc
  · rcases List.mem_append.mp hc with hc | hc
    · exact isWhitespace_of_mem_text hc
    · exact hblank c hc

/-- A number is read as it is, with the exponent that follows it; anything else that follows it is
an error. -/
theorem float?_append (plus : Bool) (d : DecimalNumber) (htail : EndsNumber tail)
    (hblank : ∀ c ∈ tail, c.isWhitespace = false) :
    float? (plusText plus ++ (d.text ++ tail)) =
      (exponent? tail).map fun e => d.value * (10 : ℚ) ^ e := by
  rw [float?, strip_text_append plus d hblank, sign_text_append]
  simp only [DecimalNumber.text, List.append_assoc]
  rw [digitsFrom_append d.whole_digits (endsDigits_fractionText_append d.fraction htail)]
  simp only [Nat.zero_mul, Nat.zero_add, fraction?_append d htail]
  simp

/-- A number that nothing follows is read as it is. -/
theorem float?_number (plus : Bool) (d : DecimalNumber) :
    float? (plusText plus ++ d.text) = some d.value := by
  have hnil : EndsNumber [] := by simp [EndsNumber]
  have h := float?_append plus d hnil (by simp)
  simpa [exponent?] using h

/-- An integer is a number without fraction and exponent. -/
theorem int?_append (plus : Bool) (d : DecimalNumber) (htail : EndsNumber tail)
    (hblank : ∀ c ∈ tail, c.isWhitespace = false) :
    int? (plusText plus ++ (d.text ++ tail)) =
      if d.fraction = none ∧ tail = [] then some (digitsValue d.whole : ℤ) else none := by
  rw [int?, strip_text_append plus d hblank, sign_text_append]
  simp only [DecimalNumber.text, List.append_assoc]
  rw [digitsFrom_append d.whole_digits (endsDigits_fractionText_append d.fraction htail)]
  have hrest : fractionText d.fraction ++ tail = [] ↔ d.fraction = none ∧ tail = [] := by
    rw [List.append_eq_nil_iff]
    cases d.fraction <;> simp [fractionText]
  simp only [Nat.zero_mul, Nat.zero_add, hrest, one_mul]
  by_cases hplain : d.fraction = none ∧ tail = []
  · have hlength : 0 < d.whole.length := by
      refine List.length_pos_iff.mpr (d.some_digit.resolve_right ?_)
      rintro ⟨digits, hdigits, -⟩
      cases hplain.1.symm.trans hdigits
    simp [hplain, hlength]
  · rw [if_neg hplain, if_neg fun h => hplain h.2]

end Decimals

end PythonNumber

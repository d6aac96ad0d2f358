import CiInfra.Compactor.Models
import CiInfra.Lib.PlainNumbers
import Mathlib.Tactic.NormNum
import Mathlib.Tactic.Positivity

/-!
# Resource quantities

Kubernetes writes an amount of a resource as a decimal number with a binary suffix, a decimal suffix
or an exponent. The compactor reads some of these suffixes, not the same for CPU and memory, and
takes what it does not read for zero.
-/

namespace CiInfra.Compactor

open PythonNumber

/-- What may follow the number of a quantity. -/
inductive QuantitySuffix
  | plain
  | exponent (e : Exponent)
  | ki | mi | gi | ti | pi | ei
  | nano | micro | milli | kilo | mega | giga | tera | peta | exa

namespace QuantitySuffix

def text : QuantitySuffix → List Char
  | plain => []
  | exponent e => e.text
  | ki => ['K', 'i']
  | mi => ['M', 'i']
  | gi => ['G', 'i']
  | ti => ['T', 'i']
  | pi => ['P', 'i']
  | ei => ['E', 'i']
  | nano => ['n']
  | micro => ['u']
  | milli => ['m']
  | kilo => ['k']
  | mega => ['M']
  | giga => ['G']
  | tera => ['T']
  | peta => ['P']
  | exa => ['E']

/-- What the number is multiplied by. -/
def scale : QuantitySuffix → ℚ
  | plain => 1
  | exponent e => 10 ^ e.value
  | ki => 1024
  | mi => 1024 ^ 2
  | gi => 1024 ^ 3
  | ti => 1024 ^ 4
  | pi => 1024 ^ 5
  | ei => 1024 ^ 6
  | nano => 1 / 10 ^ 9
  | micro => 1 / 10 ^ 6
  | milli => 1 / 10 ^ 3
  | kilo => 10 ^ 3
  | mega => 10 ^ 6
  | giga => 10 ^ 9
  | tera => 10 ^ 12
  | peta => 10 ^ 15
  | exa => 10 ^ 18

def isPlain : QuantitySuffix → Bool
  | plain => true
  | _ => false

/-- The suffixes of memory that are read. -/
def memoryKnown : QuantitySuffix → Bool
  | ki | mi | gi | ti | mega | giga | tera => true
  | _ => false

/-- The suffixes of CPU that are read. -/
def cpuKnown : QuantitySuffix → Bool
  | plain | exponent _ | nano | milli => true
  | _ => false

end QuantitySuffix

/-- A quantity that is not negative. -/
structure Quantity where
  /-- A plus sign is written. -/
  plus : Bool
  number : DecimalNumber
  suffix : QuantitySuffix

namespace Quantity

def text (q : Quantity) : String :=
  String.ofList (plusText q.plus ++ (q.number.text ++ q.suffix.text))

/-- The amount, in bytes or cores. -/
def value (q : Quantity) : ℚ := q.number.value * q.suffix.scale

/-- Memory is read up to rounding to bytes, and a byte or more is not taken for nothing. -/
structure ReadAsMemory (q : Quantity) : Prop where
  near : |(parseMemory q.text : ℚ) - q.value| < 1
  seen : 1 ≤ q.value → parseMemory q.text ≠ 0

/-- CPU is read as it is, and a core or more is not taken for nothing. -/
structure ReadAsCpu (q : Quantity) : Prop where
  eq : parseCpu q.text = q.value
  seen : 1 ≤ q.value → parseCpu q.text ≠ 0

end Quantity

/-! ### Suffixes -/

/-- A text that ends with another character does not end with the suffix. -/
theorem stripSuffix?_of_getLast? {suffix cs : List Char} {c : Char}
    (hsuffix : suffix.getLast? = some c) (hcs : cs.getLast? ≠ some c) :
    stripSuffix? suffix cs = none := by
  rw [stripSuffix?, if_neg]
  intro h
  obtain ⟨t, rfl⟩ := List.isSuffixOf_iff_suffix.mp h
  exact hcs (by rw [List.getLast?_append, hsuffix]; rfl)

/-- The last character is a digit, or the point. -/
def EndsPlainly (s : List Char) : Prop := ∀ c ∈ s.getLast?, c.isDigit = true ∨ c = '.'

theorem EndsPlainly.getLast?_ne {s : List Char} (h : EndsPlainly s) {c : Char}
    (hdigit : c.isDigit = false) (hpoint : c ≠ '.') : s.getLast? ≠ some c := by
  intro hc
  rcases h c hc with hc | hc
  · exact Bool.false_ne_true (hdigit.symm.trans hc)
  · exact hpoint hc

/-- Digits after a text end it plainly. -/
theorem endsPlainly_append_digits {s digits : List Char} (hdigits : AllDigits digits)
    (hne : digits ≠ []) : EndsPlainly (s ++ digits) := by
  intro c hc
  rw [List.getLast?_append_of_ne_nil _ hne] at hc
  exact Or.inl (hdigits c (List.mem_of_mem_getLast? hc))

/-- So does a number. -/
theorem endsPlainly_number (s : List Char) (d : DecimalNumber) : EndsPlainly (s ++ d.text) := by
  obtain ⟨whole, fraction, hwhole, hfraction, hsome⟩ := d
  cases fraction with
  | none =>
    have hne : whole ≠ [] := by
      refine hsome.resolve_right ?_
      rintro ⟨digits, hdigits, -⟩
      cases hdigits
    simpa [DecimalNumber.text, fractionText] using endsPlainly_append_digits hwhole hne
  | some digits =>
    simp only [DecimalNumber.text, fractionText]
    by_cases hne : digits = []
    · subst hne
      intro c hc
      rw [← List.append_assoc, List.getLast?_append_of_ne_nil _ (by simp)] at hc
      cases hc
      exact Or.inr rfl
    · have h := endsPlainly_append_digits (s := s ++ (whole ++ ['.'])) (hfraction digits rfl) hne
      simpa using h

theorem endsPlainly_exponent (s : List Char) (e : Exponent) : EndsPlainly (s ++ e.text) := by
  obtain ⟨upper, minus, digits, hdigits, hne⟩ := e
  have h (before : List Char) := endsPlainly_append_digits (s := s ++ before) hdigits hne
  rcases minus with - | - | -
  · simpa [Exponent.text] using h [if upper then 'E' else 'e']
  · simpa [Exponent.text] using h [if upper then 'E' else 'e', '+']
  · simpa [Exponent.text] using h [if upper then 'E' else 'e', '-']

/-- Memory without a suffix that is read is an integer, or nothing. -/
theorem EndsPlainly.parseMemoryWith {s : List Char} (h : EndsPlainly s) :
    parseMemoryWith s memorySuffixes = (int? s).getD 0 := by
  have hnone {suffix : String} {c : Char} (hsuffix : suffix.toList.getLast? = some c)
      (hdigit : c.isDigit = false) (hpoint : c ≠ '.') : stripSuffix? suffix.toList s = none :=
    stripSuffix?_of_getLast? hsuffix (h.getLast?_ne hdigit hpoint)
  simp only [memorySuffixes, CiInfra.Compactor.parseMemoryWith]
  rw [hnone (c := 'i') (by decide) (by decide) (by decide),
    hnone (c := 'i') (by decide) (by decide) (by decide),
    hnone (c := 'i') (by decide) (by decide) (by decide),
    hnone (c := 'i') (by decide) (by decide) (by decide),
    hnone (c := 'K') (by decide) (by decide) (by decide),
    hnone (c := 'M') (by decide) (by decide) (by decide),
    hnone (c := 'G') (by decide) (by decide) (by decide),
    hnone (c := 'T') (by decide) (by decide) (by decide)]

/-! ### Memory -/

section Quantities

variable {q : Quantity}

theorem Quantity.value_nonneg (q : Quantity) : 0 ≤ q.value := by
  have hfraction (f : Option (List Char)) : 0 ≤ fractionValue f := by
    cases f <;> simp only [fractionValue] <;> positivity
  have hnumber : 0 ≤ q.number.value := add_nonneg (Nat.cast_nonneg _) (hfraction _)
  have hscale : 0 ≤ q.suffix.scale := by
    cases q.suffix with
    | exponent e => exact zpow_nonneg (by norm_num) _
    | _ => norm_num [QuantitySuffix.scale]
  exact mul_nonneg hnumber hscale

/-- Memory with a suffix that is read is rounded down to bytes. -/
theorem parseMemory_of_memoryKnown (h : q.suffix.memoryKnown = true) :
    parseMemory q.text = truncate q.value := by
  obtain ⟨plus, d, suffix⟩ := q
  have hfloat := float?_number plus d
  simp only [parseMemory, Quantity.text, String.toList_ofList, ← List.append_assoc, Quantity.value]
  generalize plusText plus ++ d.text = t at hfloat
  cases suffix with
  | ki | mi | gi | ti | mega | giga | tera =>
    simp [QuantitySuffix.text, QuantitySuffix.scale, CiInfra.Compactor.parseMemoryWith,
      stripSuffix?, List.isSuffixOf, memorySuffixes, hfloat] <;> norm_num
  | _ => cases h

/-- The suffix is not a digit, an underscore or a point, and not blank. -/
theorem QuantitySuffix.endsNumber (s : QuantitySuffix) : EndsNumber s.text := by
  cases s with
  | exponent e => exact endsNumber_exponentText (some e)
  | plain => simp [EndsNumber, QuantitySuffix.text]
  | _ =>
    rintro c ⟨⟩
    decide

theorem QuantitySuffix.isWhitespace_of_mem {s : QuantitySuffix} {c : Char} (h : c ∈ s.text) :
    c.isWhitespace = false := by
  cases s with
  | exponent e => exact isWhitespace_of_mem_exponent h
  | plain => cases h
  | _ =>
    revert c
    decide

/-- Memory with another suffix is nothing, and so is a fraction without one. -/
theorem parseMemory_of_not_memoryKnown (h : q.suffix.memoryKnown = false) :
    parseMemory q.text =
      if q.number.fraction = none ∧ q.suffix.isPlain = true
        then digitsValue q.number.whole else 0 := by
  obtain ⟨plus, d, suffix⟩ := q
  have hplain : suffix.text = [] ↔ suffix.isPlain = true := by
    cases suffix <;> simp [QuantitySuffix.text, QuantitySuffix.isPlain, Exponent.text]
  have hint := int?_append plus d suffix.endsNumber fun c => suffix.isWhitespace_of_mem
  simp only [parseMemory, Quantity.text, String.toList_ofList]
  suffices hparse : parseMemoryWith (plusText plus ++ (d.text ++ suffix.text)) memorySuffixes =
      (int? (plusText plus ++ (d.text ++ suffix.text))).getD 0 by
    rw [hparse, hint]
    simp only [hplain]
    split <;> rfl
  rw [← List.append_assoc]
  cases suffix with
  | plain =>
    simpa [QuantitySuffix.text] using (endsPlainly_number (plusText plus) d).parseMemoryWith
  | exponent e => exact (endsPlainly_exponent _ e).parseMemoryWith
  | pi | ei | nano | micro | milli | kilo | peta | exa =>
    simp [QuantitySuffix.text, CiInfra.Compactor.parseMemoryWith, stripSuffix?, List.isSuffixOf,
      memorySuffixes]
  | _ => cases h

/-- Memory is read rightly where its suffix is read, where it is an integer without suffix, and
where there is less than a byte. -/
theorem readAsMemory_iff (q : Quantity) :
    q.ReadAsMemory ↔
      q.suffix.memoryKnown = true ∨ q.number.fraction = none ∧ q.suffix.isPlain = true ∨
        q.value < 1 := by
  have hvalue := q.value_nonneg
  by_cases hknown : q.suffix.memoryKnown = true
  · refine iff_of_true ?_ (Or.inl hknown)
    have hparse : parseMemory q.text = ⌊q.value⌋ := by
      rw [parseMemory_of_memoryKnown hknown, truncate, if_pos hvalue]
    constructor
    · rw [hparse, abs_sub_comm, abs_of_nonneg (sub_nonneg.mpr (Int.floor_le _)), sub_lt_iff_lt_add']
      exact Int.lt_floor_add_one _
    · intro hone hzero
      rw [hparse, Int.floor_eq_zero_iff] at hzero
      exact absurd hone (not_le_of_gt hzero.2)
  · rw [or_iff_right hknown]
    have hparse := parseMemory_of_not_memoryKnown (Bool.not_eq_true _ ▸ hknown)
    by_cases hplain : q.number.fraction = none ∧ q.suffix.isPlain = true
    · refine iff_of_true ?_ (Or.inl hplain)
      have hq : (parseMemory q.text : ℚ) = q.value := by
        have hscale : q.suffix.scale = 1 := by
          cases hsuffix : q.suffix with
          | plain => rfl
          | _ =>
            rw [hsuffix] at hplain
            cases hplain.2
        rw [hparse, if_pos hplain, Quantity.value, DecimalNumber.value, hplain.1, hscale]
        simp [fractionValue]
      constructor
      · simp [hq]
      · intro hone hzero
        rw [hzero, Int.cast_zero] at hq
        rw [← hq] at hone
        exact absurd hone (by norm_num)
    · rw [or_iff_right hplain]
      rw [if_neg hplain] at hparse
      constructor
      · intro h
        by_contra hone
        exact h.seen (not_lt.mp hone) hparse
      · intro hone
        refine ⟨?_, fun h => absurd h (not_le_of_gt hone)⟩
        rwa [hparse, Nat.cast_zero, Int.cast_zero, zero_sub, abs_neg, abs_of_nonneg hvalue]

/-! ### CPU -/

/-- CPU without a suffix is a number, or nothing. -/
theorem EndsPlainly.parseCpu {s : List Char} (h : EndsPlainly s) :
    parseCpu (String.ofList s) = (float? s).getD 0 := by
  have hnone {c : Char} (hdigit : c.isDigit = false) (hpoint : c ≠ '.') :
      stripSuffix? [c] s = none :=
    stripSuffix?_of_getLast? (List.getLast?_singleton) (h.getLast?_ne hdigit hpoint)
  simp only [CiInfra.Compactor.parseCpu, String.toList_ofList]
  rw [hnone (by decide) (by decide), hnone (by decide) (by decide)]

/-- CPU with a suffix that is read is read as it is. -/
theorem parseCpu_of_cpuKnown (h : q.suffix.cpuKnown = true) : parseCpu q.text = q.value := by
  obtain ⟨plus, d, suffix⟩ := q
  have hfloat := float?_number plus d
  simp only [Quantity.text, Quantity.value]
  cases suffix with
  | plain =>
    simp only [QuantitySuffix.text, QuantitySuffix.scale, List.append_nil, mul_one]
    rw [(endsPlainly_number (plusText plus) d).parseCpu, hfloat]
    rfl
  | exponent e =>
    have hends := endsPlainly_exponent (plusText plus ++ d.text) e
    rw [List.append_assoc] at hends
    simp only [QuantitySuffix.text, QuantitySuffix.scale]
    have hexponent : exponent? e.text = some e.value := exponent?_text (some e)
    have hvalue := float?_append plus d (endsNumber_exponentText (some e))
      fun c hc => isWhitespace_of_mem_exponent hc
    rw [exponentText, hexponent] at hvalue
    rw [hends.parseCpu, hvalue]
    rfl
  | milli | nano =>
    simp only [QuantitySuffix.text, QuantitySuffix.scale, CiInfra.Compactor.parseCpu,
      ← List.append_assoc]
    generalize plusText plus ++ d.text = t at hfloat
    simp [stripSuffix?, List.isSuffixOf, hfloat]
    ring
  | _ => cases h

/-- With another suffix it is nothing. -/
theorem parseCpu_of_not_cpuKnown (h : q.suffix.cpuKnown = false) : parseCpu q.text = 0 := by
  obtain ⟨plus, d, suffix⟩ := q
  have hfloat := float?_append plus d suffix.endsNumber fun c => suffix.isWhitespace_of_mem
  simp only [parseCpu, Quantity.text, String.toList_ofList]
  cases suffix with
  | plain | exponent _ | milli | nano => cases h
  | _ =>
    simp [QuantitySuffix.text, stripSuffix?, List.isSuffixOf, exponent?] at hfloat ⊢
    rw [hfloat]
    rfl

theorem readAsCpu_iff (q : Quantity) : q.ReadAsCpu ↔ q.suffix.cpuKnown = true ∨ q.value = 0 := by
  by_cases hknown : q.suffix.cpuKnown = true
  · have hparse := parseCpu_of_cpuKnown hknown
    refine iff_of_true ⟨hparse, fun h hzero => ?_⟩ (Or.inl hknown)
    rw [← hparse, hzero] at h
    exact absurd h (by norm_num)
  · have hparse := parseCpu_of_not_cpuKnown (Bool.not_eq_true _ ▸ hknown)
    rw [or_iff_right hknown]
    constructor
    · exact fun h => h.eq.symm.trans hparse
    · intro hzero
      refine ⟨hparse.trans hzero.symm, fun h => ?_⟩
      rw [hzero] at h
      exact absurd h (by norm_num)

end Quantities

/-- One, with the suffix. -/
def Quantity.one (suffix : QuantitySuffix) : Quantity where
  plus := false
  number :=
    { whole := ['1']
      fraction := none
      whole_digits := by decide
      fraction_digits := by rintro _ ⟨⟩
      some_digit := Or.inl (List.cons_ne_nil _ _) }
  suffix := suffix

theorem Quantity.value_one (suffix : QuantitySuffix) :
    (Quantity.one suffix).value = suffix.scale := by
  have hwhole : digitsValue ['1'] = 1 := rfl
  simp [Quantity.value, Quantity.one, DecimalNumber.value, fractionValue, hwhole]

end CiInfra.Compactor

import Mathlib.Data.Rat.Floor

/-!
# Python's conversions of decimal strings

`int(s)` and `float(s)` on strings of ASCII characters, with exact rationals for
floats: surrounding blanks and underscores between digits are allowed, and `none` is
the `ValueError`. The spellings of infinities and NaN are not numbers here.
-/

namespace PythonNumber

/-- Continue a run of digits: the value so far, the number of digits, and the rest. -/
def digitsFrom (value count : ℕ) : List Char → ℕ × ℕ × List Char
  | '_' :: c :: cs =>
    if c.isDigit ∧ 0 < count then
      digitsFrom (10 * value + (c.toNat - '0'.toNat)) (count + 1) cs
    else (value, count, '_' :: c :: cs)
  | c :: cs =>
    if c.isDigit then digitsFrom (10 * value + (c.toNat - '0'.toNat)) (count + 1) cs
    else (value, count, c :: cs)
  | [] => (value, count, [])

/-- An optional sign, and the rest. -/
def sign : List Char → ℤ × List Char
  | '-' :: cs => (-1, cs)
  | '+' :: cs => (1, cs)
  | cs => (1, cs)

/-- Remove blanks on both sides. -/
def strip (cs : List Char) : List Char :=
  ((cs.dropWhile Char.isWhitespace).reverse.dropWhile Char.isWhitespace).reverse

/-- `int(s)`. -/
def int? (cs : List Char) : Option ℤ :=
  let (s, cs) := sign (strip cs)
  match digitsFrom 0 0 cs with
  | (value, count, rest) => if 0 < count ∧ rest = [] then some (s * value) else none

/-- The fraction after the digits `value`, `count` of them: the mantissa and the rest. -/
def fraction? (value count : ℕ) : List Char → Option (ℚ × List Char)
  | '.' :: cs =>
    match digitsFrom 0 0 cs with
    | (frac, places, rest) =>
      if 0 < count + places then some (value + frac / 10 ^ places, rest) else none
  | cs => if 0 < count then some (value, cs) else none

/-- The exponent after a mantissa, which must end the string. -/
def exponent? : List Char → Option ℤ
  | [] => some 0
  | c :: cs =>
    if c = 'e' ∨ c = 'E' then
      let (s, cs) := sign cs
      match digitsFrom 0 0 cs with
      | (value, count, rest) => if 0 < count ∧ rest = [] then some (s * value) else none
    else none

/-- `float(s)` for finite values. -/
def float? (cs : List Char) : Option ℚ :=
  let (s, cs) := sign (strip cs)
  match digitsFrom 0 0 cs with
  | (value, count, rest) =>
    match fraction? value count rest with
    | none => none
    | some (mantissa, rest) => (exponent? rest).map fun e => s * mantissa * (10 : ℚ) ^ e

/-- `int(x)` for a float: truncation toward zero. -/
def truncate (x : ℚ) : ℤ := if 0 ≤ x then ⌊x⌋ else ⌈x⌉

example : float? "-1_0.25e2".toList = some (-1025) := by decide +kernel

end PythonNumber

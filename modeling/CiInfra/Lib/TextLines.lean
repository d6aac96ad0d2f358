import CiInfra.Lib.Characters
import Mathlib.Data.List.Basic

/-!
# The lines of a decoded stream

UTF-8 is decoded octet by octet, so that the characters of a stream that is cut off are those of the
whole stream up to the cut, but for one replacement character. The lines before the last one are
therefore lines of the whole.
-/

namespace TextLines

/-! ### Octets -/

/-- A character that has begun: what is known of it, how many octets it lacks, and the range of the
next one. -/
structure Pending where
  value : ℕ
  lacking : ℕ
  lower : ℕ
  upper : ℕ

/-- What stands for octets that are no character. -/
def replacement : Char := Char.ofNat 0xfffd

/-- An octet that begins a character. -/
def begin (b : ℕ) : List Char × Option Pending :=
  if b < 0x80 then ([Char.ofNat b], none)
  else if 0xc2 ≤ b ∧ b ≤ 0xdf then ([], some ⟨b - 0xc0, 1, 0x80, 0xbf⟩)
  else if b = 0xe0 then ([], some ⟨0, 2, 0xa0, 0xbf⟩)
  else if b = 0xed then ([], some ⟨0xd, 2, 0x80, 0x9f⟩)
  else if 0xe1 ≤ b ∧ b ≤ 0xef then ([], some ⟨b - 0xe0, 2, 0x80, 0xbf⟩)
  else if b = 0xf0 then ([], some ⟨0, 3, 0x90, 0xbf⟩)
  else if 0xf1 ≤ b ∧ b ≤ 0xf3 then ([], some ⟨b - 0xf0, 3, 0x80, 0xbf⟩)
  else if b = 0xf4 then ([], some ⟨4, 3, 0x80, 0x8f⟩)
  else ([replacement], none)

/-- The next octet. One that does not continue a character replaces it and begins another. -/
def accept : Option Pending → ℕ → List Char × Option Pending
  | none, b => begin b
  | some p, b =>
    if p.lower ≤ b ∧ b ≤ p.upper then
      if p.lacking = 1 then ([Char.ofNat (64 * p.value + (b - 0x80))], none)
      else ([], some ⟨64 * p.value + (b - 0x80), p.lacking - 1, 0x80, 0xbf⟩)
    else (replacement :: (begin b).1, (begin b).2)

/-- The characters of octets, and the one that has begun. -/
def run (state : Option Pending) : List UInt8 → List Char × Option Pending
  | [] => ([], state)
  | b :: bs =>
    ((accept state b.toNat).1 ++ (run (accept state b.toNat).2 bs).1,
      (run (accept state b.toNat).2 bs).2)

/-- A character that has not ended is replaced. -/
def finish : Option Pending → List Char
  | none => []
  | some _ => [replacement]

/-- `decode(errors="replace")`. -/
def decode (bs : List UInt8) : List Char := (run none bs).1 ++ finish (run none bs).2

example : decode [0x7b, 0xe2, 0x82, 0xac, 0xe2, 0x82, 0x7d] = ['{', '€', replacement, '}'] := by
  decide +kernel

theorem run_append (state : Option Pending) (bs bs' : List UInt8) :
    run state (bs ++ bs') =
      ((run state bs).1 ++ (run (run state bs).2 bs').1, (run (run state bs).2 bs').2) := by
  induction bs generalizing state with
  | nil => rfl
  | cons b bs ih => simp [run, ih]

/-- A stream that is cut has the characters of the whole up to the cut. -/
theorem exists_decode_take (n : ℕ) (bs : List UInt8) :
    ∃ s u, decode bs = s ++ u ∧
      (decode (bs.take n) = s ∨ decode (bs.take n) = s ++ [replacement]) := by
  refine ⟨(run none (bs.take n)).1, (run (run none (bs.take n)).2 (bs.drop n)).1 ++
    finish (run (run none (bs.take n)).2 (bs.drop n)).2, ?_, ?_⟩
  · conv_lhs => rw [← List.take_append_drop n bs, decode, run_append]
    exact List.append_assoc _ _ _
  · rw [decode]
    cases (run none (bs.take n)).2 with
    | none => exact Or.inl (List.append_nil _)
    | some p => exact Or.inr rfl

/-- Octets of ASCII are the characters of their numbers. -/
theorem run_ascii {bs : List UInt8} (h : ∀ b ∈ bs, b.toNat < 0x80) :
    run none bs = (bs.map fun b => Char.ofNat b.toNat, none) := by
  induction bs with
  | nil => rfl
  | cons b bs ih =>
    have hb : accept none b.toNat = ([Char.ofNat b.toNat], none) :=
      if_pos (h b List.mem_cons_self)
    rw [run, hb, ih fun b hb => h b (List.mem_cons_of_mem _ hb)]
    rfl

theorem decode_ascii {bs : List UInt8} (h : ∀ b ∈ bs, b.toNat < 0x80) :
    decode bs = bs.map fun b => Char.ofNat b.toNat := by
  rw [decode, run_ascii h]
  exact List.append_nil _

/-! ### Lines -/

/-- The characters at which `splitlines` ends a line. -/
def isBreak (c : Char) : Bool :=
  [0xa, 0xb, 0xc, 0xd, 0x1c, 0x1d, 0x1e, 0x85, 0x2028, 0x2029].contains c.toNat

/-- The lines of what follows the beginning of a line. -/
def linesFrom : List Char → List Char → List (List Char)
  | [], [] => []
  | line, [] => [line]
  | line, '\r' :: '\n' :: s => line :: linesFrom [] s
  | line, c :: s => if isBreak c then line :: linesFrom [] s else linesFrom (line ++ [c]) s

/-- `splitlines`. -/
def splitLines (s : List Char) : List (List Char) := linesFrom [] s

example : splitLines "a\r\n\nb\n".toList = ["a".toList, [], "b".toList] := by decide +kernel

/-- `strip`'s blanks. -/
def isBlank (c : Char) : Bool :=
  (9 ≤ c.toNat ∧ c.toNat ≤ 13) || (0x1c ≤ c.toNat ∧ c.toNat ≤ 0x20) ||
    (0x2000 ≤ c.toNat ∧ c.toNat ≤ 0x200a) ||
    [0x85, 0xa0, 0x1680, 0x2028, 0x2029, 0x202f, 0x205f, 0x3000].contains c.toNat

/-- `strip`. -/
def strip (s : List Char) : List Char :=
  ((s.dropWhile isBlank).reverse.dropWhile isBlank).reverse

theorem linesFrom_break {line s : List Char} {c : Char} (hc : isBreak c = true)
    (hlf : c = '\r' → s.head? ≠ some '\n') : linesFrom line (c :: s) = line :: linesFrom [] s := by
  rw [linesFrom, if_pos hc]
  rintro s' rfl rfl
  exact hlf rfl rfl

theorem linesFrom_of_not_break {line s : List Char} {c : Char} (hc : isBreak c = false) :
    linesFrom line (c :: s) = linesFrom (line ++ [c]) s := by
  rw [linesFrom, if_neg (by simp [hc])]
  rintro s' rfl rfl
  exact absurd hc (by decide)

theorem linesFrom_append {line s : List Char} (hs : ∀ c ∈ s, isBreak c = false) (t : List Char) :
    linesFrom line (s ++ t) = linesFrom (line ++ s) t := by
  induction s generalizing line with
  | nil => rw [List.nil_append, List.append_nil]
  | cons c s ih =>
    rw [List.cons_append, linesFrom_of_not_break (hs c List.mem_cons_self),
      ih fun c hc => hs c (List.mem_cons_of_mem _ hc), List.append_assoc]
    rfl

/-- Newlines end a line and make empty ones. -/
theorem linesFrom_newlines (line : List Char) (n : ℕ) (t : List Char) :
    linesFrom line (List.replicate (n + 1) '\n' ++ t) =
      line :: (List.replicate n [] ++ splitLines t) := by
  induction n generalizing line with
  | zero => exact linesFrom_break (by decide) fun h => absurd h (by decide)
  | succ n ih =>
    rw [List.replicate_succ, List.cons_append,
      linesFrom_break (by decide) fun h => absurd h (by decide), ih]
    rfl

/-- A break ends the line that has begun, whatever follows. -/
theorem exists_linesFrom_break {c : Char} (hc : isBreak c = true) (line s : List Char) :
    ∃ lines, linesFrom line (c :: s) = line :: lines := by
  by_cases hlf : c = '\r' ∧ s.head? = some '\n'
  · obtain ⟨rfl, hs⟩ := hlf
    obtain ⟨s', rfl⟩ := List.head?_eq_some_iff.mp hs
    exact ⟨_, by rw [linesFrom]⟩
  · exact ⟨_, linesFrom_break hc fun hcr hs => hlf ⟨hcr, hs⟩⟩

/-- Without a break there is one line at most. -/
theorem dropLast_linesFrom_eq_nil {line s : List Char} (h : ∀ c ∈ s, isBreak c = false) :
    (linesFrom line s).dropLast = [] := by
  induction s generalizing line with
  | nil => cases line <;> rfl
  | cons c s ih =>
    rw [linesFrom_of_not_break (h c List.mem_cons_self)]
    exact ih fun c hc => h c (List.mem_cons_of_mem _ hc)

/-- The lines before the last one do not depend on what comes after it. -/
theorem dropLast_linesFrom_isPrefix {line s r : List Char} (u : List Char)
    (hr : ∀ c ∈ r, isBreak c = false) :
    (linesFrom line (s ++ r)).dropLast <+: linesFrom line (s ++ u) := by
  have hcons : ∀ {line : List Char} {ls ls' : List (List Char)}, ls.dropLast <+: ls' →
      (line :: ls).dropLast <+: line :: ls' := fun {line ls ls'} h => by
    cases ls with
    | nil => exact List.nil_prefix
    | cons l ls => exact (List.prefix_cons_inj line).mpr h
  fun_induction linesFrom line s with
  | case1 => simp [dropLast_linesFrom_eq_nil hr]
  | case2 => simp [dropLast_linesFrom_eq_nil hr]
  | case3 line s ih =>
    simp only [List.cons_append, linesFrom]
    exact hcons ih
  | case4 line c s hlf hc ih =>
    cases s with
    | nil =>
      obtain ⟨lines, hlines⟩ := exists_linesFrom_break hc line u
      have hlf' : r.head? ≠ some '\n' := fun hhead =>
        absurd (hr '\n' (List.mem_of_mem_head? hhead)) (by decide)
      have hnone := @dropLast_linesFrom_eq_nil [] r hr
      change (linesFrom line (c :: r)).dropLast <+: linesFrom line (c :: u)
      rw [hlines, linesFrom_break hc fun _ => hlf']
      exact hcons (by rw [hnone]; exact List.nil_prefix)
    | cons d s =>
      have hlf' : ∀ t : List Char, c = '\r' → (d :: s ++ t).head? ≠ some '\n' := by
        rintro t rfl hd
        exact hlf s rfl (by simpa using hd)
      change (linesFrom line (c :: (d :: s ++ r))).dropLast <+: linesFrom line (c :: (d :: s ++ u))
      rw [linesFrom_break hc (hlf' r), linesFrom_break hc (hlf' u)]
      exact hcons ih
  | case5 line c s hlf hc ih =>
    have hc' : isBreak c = false := by simpa using hc
    rw [List.cons_append, List.cons_append, linesFrom_of_not_break hc', linesFrom_of_not_break hc']
    exact ih

/-- The complete lines of a stream that is cut are lines of the whole. -/
theorem dropLast_splitLines_decode_take_isPrefix (n : ℕ) (bs : List UInt8) :
    (splitLines (decode (bs.take n))).dropLast <+: splitLines (decode bs) := by
  obtain ⟨s, u, hwhole, hcut⟩ := exists_decode_take n bs
  have hreplacement : ∀ c ∈ [replacement], isBreak c = false := by decide
  rw [hwhole]
  rcases hcut with hcut | hcut
  · have h := @dropLast_linesFrom_isPrefix [] s [] u (by simp)
    rw [List.append_nil] at h
    rwa [hcut]
  · rw [hcut]
    exact dropLast_linesFrom_isPrefix u hreplacement

/-! ### Texts of plain lines -/

/-- What is visible is not blank. -/
theorem isBlank_of_toNat {c : Char} (h : 33 ≤ c.toNat ∧ c.toNat ≤ 126) : isBlank c = false := by
  have hlarge : ∀ n ∈ [0x85, 0xa0, 0x1680, 0x2028, 0x2029, 0x202f, 0x205f, 0x3000], 126 < n := by
    decide
  have hcontains : [0x85, 0xa0, 0x1680, 0x2028, 0x2029, 0x202f, 0x205f, 0x3000].contains c.toNat =
      false := by
    rw [← Bool.not_eq_true, List.contains_iff_mem]
    intro hmem
    have hlt := hlarge _ hmem
    omega
  rw [isBlank, hcontains]
  simp only [Bool.or_eq_false_iff, decide_eq_false_iff_not]
  exact ⟨⟨⟨by omega, by omega⟩, by omega⟩, trivial⟩

/-- A text with something in it, without blanks at its ends. -/
structure IsTrimmed (s : List Char) : Prop where
  ne_nil : s ≠ []
  head : ∀ c ∈ s.head?, isBlank c = false
  last : ∀ c ∈ s.getLast?, isBlank c = false

/-- A line of this kind. -/
structure IsStripped (s : List Char) : Prop extends IsTrimmed s where
  isBreak : ∀ c ∈ s, isBreak c = false

theorem isBlank_of_isBreak {c : Char} (h : isBreak c = true) : isBlank c = true := by
  have hmem : c.toNat ∈ [0xa, 0xb, 0xc, 0xd, 0x1c, 0x1d, 0x1e, 0x85, 0x2028, 0x2029] :=
    List.contains_iff_mem.mp h
  have hblank : ∀ n ∈ [0xa, 0xb, 0xc, 0xd, 0x1c, 0x1d, 0x1e, 0x85, 0x2028, 0x2029],
      ((9 ≤ n ∧ n ≤ 13) || (0x1c ≤ n ∧ n ≤ 0x20) || (0x2000 ≤ n ∧ n ≤ 0x200a) ||
        [0x85, 0xa0, 0x1680, 0x2028, 0x2029, 0x202f, 0x205f, 0x3000].contains n) = true := by
    decide
  exact hblank c.toNat hmem

theorem isBreak_eq_false {c : Char} (h : isBlank c = false) : isBreak c = false := by
  by_contra hbreak
  rw [Bool.not_eq_false] at hbreak
  have hblank := isBlank_of_isBreak hbreak
  rw [h] at hblank
  cases hblank

theorem IsStripped.of_forall {s : List Char} (hne : s ≠ []) (h : ∀ c ∈ s, isBlank c = false) :
    IsStripped s where
  ne_nil := hne
  isBreak c hc := isBreak_eq_false (h c hc)
  head c hc := h c (List.mem_of_mem_head? hc)
  last c hc := h c (List.mem_of_getLast? hc)

theorem dropWhile_isBlank_eq_self {s : List Char} (h : ∀ c ∈ s.head?, isBlank c = false) :
    s.dropWhile isBlank = s := by
  cases s with
  | nil => rfl
  | cons c s => exact List.dropWhile_cons_of_neg (by simp [h c rfl])

theorem strip_eq_self {s : List Char} (hhead : ∀ c ∈ s.head?, isBlank c = false)
    (hlast : ∀ c ∈ s.getLast?, isBlank c = false) : strip s = s := by
  have hreverse : s.reverse.dropWhile isBlank = s.reverse :=
    dropWhile_isBlank_eq_self (by simpa using hlast)
  rw [strip, dropWhile_isBlank_eq_self hhead, hreverse, List.reverse_reverse]

theorem IsTrimmed.strip_eq {s : List Char} (h : IsTrimmed s) : strip s = s :=
  strip_eq_self h.head h.last

/-- A newline at the end is stripped. -/
theorem IsTrimmed.strip_append_newline {s : List Char} (h : IsTrimmed s) :
    strip (s ++ ['\n']) = s := by
  have hhead' : ∀ c ∈ (s ++ ['\n']).head?, isBlank c = false := by
    rw [List.head?_append_of_ne_nil s h.ne_nil]
    exact h.head
  have hnewline : isBlank '\n' = true := by decide
  have hreverse : s.reverse.dropWhile isBlank = s.reverse :=
    dropWhile_isBlank_eq_self (by simpa using h.last)
  rw [strip, dropWhile_isBlank_eq_self hhead', List.reverse_append, List.reverse_singleton,
    List.singleton_append, List.dropWhile_cons_of_pos hnewline, hreverse, List.reverse_reverse]

/-- What is left of a line when its ends are stripped is nothing, or a stripped line. -/
theorem isStripped_strip {s : List Char} (hbreak : ∀ c ∈ s, isBreak c = false)
    (hne : strip s ≠ []) : IsStripped (strip s) := by
  have hpre : strip s <+: s.dropWhile isBlank := by
    rw [strip, ← List.reverse_suffix, List.reverse_reverse]
    exact List.dropWhile_suffix isBlank
  refine ⟨⟨hne, fun c hc => ?_, fun c hc => ?_⟩, fun c hc => ?_⟩
  · obtain ⟨t, ht⟩ := hpre
    have hhead : c ∈ (s.dropWhile isBlank).head? := by
      rwa [← ht, List.head?_append_of_ne_nil _ hne]
    have hnot := List.head?_dropWhile_not isBlank s
    rw [hhead] at hnot
    simpa using hnot
  · rw [strip, List.getLast?_reverse] at hc
    have hnot := List.head?_dropWhile_not isBlank (s.dropWhile isBlank).reverse
    rw [hc] at hnot
    simpa using hnot
  · exact hbreak c ((List.dropWhile_suffix isBlank).subset (hpre.subset hc))

theorem isBreak_of_mem_linesFrom {line s : List Char} (hline : ∀ c ∈ line, isBreak c = false) :
    ∀ l ∈ linesFrom line s, ∀ c ∈ l, isBreak c = false := by
  fun_induction linesFrom line s with
  | case1 => simp
  | case2 line => simpa using hline
  | case3 line s ih =>
    rw [List.forall_mem_cons]
    exact ⟨hline, ih (by simp)⟩
  | case4 line c s hlf hc ih =>
    rw [List.forall_mem_cons]
    exact ⟨hline, ih (by simp)⟩
  | case5 line c s hlf hc ih =>
    apply ih
    intro d hd
    rcases List.mem_append.mp hd with hd | hd
    · exact hline d hd
    · rw [List.mem_singleton.mp hd]
      simpa using hc

/-- No line has a break in it. -/
theorem isBreak_of_mem_splitLines {s l : List Char} (hl : l ∈ splitLines s) :
    ∀ c ∈ l, isBreak c = false :=
  isBreak_of_mem_linesFrom (by simp) l hl

/-- Lines that are joined are the lines of the whole. -/
theorem splitLines_intercalate {lines : List (List Char)} (hne : ∀ l ∈ lines, l ≠ [])
    (hbreak : ∀ l ∈ lines, ∀ c ∈ l, isBreak c = false) :
    splitLines (['\n'].intercalate lines) = lines := by
  induction lines with
  | nil => rfl
  | cons l lines ih =>
    have hl := @linesFrom_append [] l (hbreak l List.mem_cons_self)
    have hrest := ih (fun l' hl' => hne l' (List.mem_cons_of_mem _ hl'))
      fun l' hl' => hbreak l' (List.mem_cons_of_mem _ hl')
    cases lines with
    | nil =>
      have hcons := hne l List.mem_cons_self
      have hone := hl []
      rw [List.append_nil, List.nil_append] at hone
      rw [List.intercalate_singleton, splitLines, hone]
      cases l with
      | nil => exact absurd rfl hcons
      | cons c l => rfl
    | cons l' lines =>
      rw [List.intercalate_cons_cons, splitLines, List.append_assoc, hl, List.nil_append,
        List.singleton_append, linesFrom_break (by decide) fun h => absurd h (by decide)]
      exact congrArg (l :: ·) hrest

/-- And so they are when a newline ends the whole. -/
theorem splitLines_intercalate_newline {lines : List (List Char)} (hne : lines ≠ [])
    (hbreak : ∀ l ∈ lines, ∀ c ∈ l, isBreak c = false) :
    splitLines (['\n'].intercalate lines ++ ['\n']) = lines := by
  induction lines with
  | nil => exact absurd rfl hne
  | cons l lines ih =>
    have hl := @linesFrom_append [] l (hbreak l List.mem_cons_self)
    cases lines with
    | nil =>
      rw [List.intercalate_singleton, splitLines, hl, List.nil_append,
        linesFrom_break (by decide) fun h => absurd h (by decide)]
      rfl
    | cons l' lines =>
      have hrest := ih (List.cons_ne_nil _ _) fun m hm => hbreak m (List.mem_cons_of_mem _ hm)
      rw [List.intercalate_cons_cons, splitLines, List.append_assoc, List.append_assoc, hl,
        List.nil_append, List.singleton_append,
        linesFrom_break (by decide) fun h => absurd h (by decide)]
      exact congrArg (l :: ·) hrest

/-- Lines that are joined begin and end as they do. -/
theorem isTrimmed_intercalate {lines : List (List Char)} (hne : lines ≠ [])
    (h : ∀ l ∈ lines, IsTrimmed l) : IsTrimmed (['\n'].intercalate lines) := by
  induction lines with
  | nil => exact absurd rfl hne
  | cons l lines ih =>
    have hl := h l List.mem_cons_self
    cases lines with
    | nil =>
      rw [List.intercalate_singleton]
      exact hl
    | cons l' lines =>
      have hrest := ih (List.cons_ne_nil _ _) fun m hm => h m (List.mem_cons_of_mem _ hm)
      rw [List.intercalate_cons_cons]
      refine ⟨by simp, ?_, ?_⟩
      · rw [List.append_assoc, List.head?_append_of_ne_nil l hl.ne_nil]
        exact hl.head
      · rw [List.getLast?_append_of_ne_nil _ hrest.ne_nil]
        exact hrest.last

/-- And so they are when the whole is stripped of the newline after it. -/
theorem splitLines_strip_intercalate {lines : List (List Char)} (hne : lines ≠ [])
    (h : ∀ l ∈ lines, IsStripped l) :
    splitLines (strip (['\n'].intercalate lines ++ ['\n'])) = lines := by
  have htrimmed := isTrimmed_intercalate hne fun l hl => (h l hl).toIsTrimmed
  rw [htrimmed.strip_append_newline]
  exact splitLines_intercalate (fun l hl => (h l hl).ne_nil) fun l hl => (h l hl).isBreak

end TextLines

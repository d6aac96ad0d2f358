import CiInfra.Lib.PlainNumbers
import CiInfra.PypiCache.CheckPypi
import CiInfra.PypiCache.FileReadings

/-!
# The tags of a wheel

The name of a wheel ends with sets of tags for interpreters, for binary interfaces and for
platforms. A platform is a version of glibc with an architecture, where a legacy alias can stand for
the version. An interpreter can install the wheel when one tag of each set fits.
-/

namespace WantsCollector

open Regex Separators

/-! ### Platforms -/

inductive LegacyAlias
  | manylinux1
  | manylinux2010
  | manylinux2014
  deriving DecidableEq

/-- The version of glibc for which a platform is built. -/
inductive Glibc
  | numbers (major minor : Number)
  | legacy (a : LegacyAlias)

/-- What a tag has between `manylinux` and the architecture. -/
def Glibc.text : Glibc → Text
  | numbers major minor => '_' :: (major.1 ++ '_' :: (minor.1 ++ ['_']))
  | legacy .manylinux1 => "1_".toList
  | legacy .manylinux2010 => "2010_".toList
  | legacy .manylinux2014 => "2014_".toList

def LegacyAlias.version : LegacyAlias → ℤ × ℤ
  | manylinux1 => (2, 5)
  | manylinux2010 => (2, 12)
  | manylinux2014 => (2, 17)

def Glibc.version : Glibc → ℤ × ℤ
  | numbers major minor => (PythonNumber.digitsValue major.1, PythonNumber.digitsValue minor.1)
  | legacy a => a.version

/-- The name of an architecture. -/
structure Arch where
  text : Text
  ne_nil : text ≠ []
  word : text ∈ runs isWordChar
  head_ne : text.head? ≠ some '_'
  no_manylinux : ¬ "manylinux".toList <:+: text

/-- The tag of another platform. -/
structure OtherPlatform where
  text : Text
  word : text ∈ runs isWordChar
  not_any : ¬ "any".toList <+: text
  no_manylinux : ¬ "manylinux".toList <:+: text

inductive PlatformTag
  | any
  | linux (glibc : Glibc) (arch : Arch)
  | other (platform : OtherPlatform)

def PlatformTag.text : PlatformTag → Text
  | any => "any".toList
  | linux glibc arch => "manylinux".toList ++ (glibc.text ++ arch.text)
  | other platform => platform.text

/-- Tags with dots between them. -/
def dotted : List Text → Text
  | [] => []
  | [t] => t
  | t :: ts => t ++ '.' :: dotted ts

def platformText (tags : List PlatformTag) : Text := dotted (tags.map PlatformTag.text)

/-! ### Wheels with tags -/

/-- A wheel, with the sets of tags in its name. -/
structure TaggedWheel where
  distribution : Component
  version : {t : Component // DigitFollows t.text}
  build : Option {t : Component // DigitFollows t.text}
  python : List Text
  python_chars : ∀ t ∈ python, t ∈ runs isWordChar ∧ t ≠ "none".toList
  abi : List Text
  abi_chars : ∀ t ∈ abi, t ∈ runs isWordChar
  platform : List PlatformTag

namespace TaggedWheel

def tagsText (w : TaggedWheel) : Text :=
  dotted w.python ++ '-' :: (dotted w.abi ++ '-' :: (platformText w.platform ++ ".whl".toList))

def text (w : TaggedWheel) : Text :=
  w.distribution.text ++ '-' :: (w.version.1.text ++ '-' ::
    match w.build with
    | none => w.tagsText
    | some build => build.1.text ++ '-' :: w.tagsText)

def entry (w : TaggedWheel) : Entry := ⟨some "bdist_wheel".toList, w.text⟩

/-- The wheel is for every platform. -/
def IsPurePython (w : TaggedWheel) : Prop := "none".toList ∈ w.abi ∧ .any ∈ w.platform

end TaggedWheel

/-- A version of CPython, which can be a free-threaded one. -/
structure Interpreter where
  major : ℕ
  minor : ℕ
  freeThreaded : Bool

namespace Interpreter

def cp (major minor : ℕ) : Text :=
  "cp".toList ++ (Nat.toDigits 10 major ++ Nat.toDigits 10 minor)

/-- `cpXY`, or `cpXYt` -/
def text (i : Interpreter) : Text := cp i.major i.minor ++ if i.freeThreaded then ['t'] else []

/-- The interpreter can use what has these tags: its own, the stable interface of a version that is
not later, or no interface at all. -/
def Fits (i : Interpreter) (python abi : Text) : Prop :=
  python = cp i.major i.minor ∧ abi = i.text ∨
    (i.freeThreaded = false ∧ abi = "abi3".toList ∧ ∃ minor ≤ i.minor, python = cp i.major minor) ∨
    python = "py3".toList ∧ abi = "none".toList

end Interpreter

/-- The wheel can be installed: one tag of each set fits. -/
def TaggedWheel.Installable (w : TaggedWheel) (target : ℤ × ℤ) (i : Interpreter) (arch : Arch) :
    Prop :=
  (∃ python ∈ w.python, ∃ abi ∈ w.abi, i.Fits python abi) ∧
    ∃ glibc, .linux glibc arch ∈ w.platform ∧ versionLe glibc.version target = true

/-! ### Texts -/

theorem not_mem_of_word {s : Text} (h : s ∈ runs isWordChar) {c : Char}
    (hc : isWordChar c = false) : c ∉ s := fun hmem => by
  rw [h c hmem] at hc
  cases hc

theorem dotted_cons_cons (s t : Text) (ts : List Text) :
    dotted (s :: t :: ts) = s ++ '.' :: dotted (t :: ts) := rfl

/-- Dots come between words, and words have no other characters than word characters. -/
theorem not_mem_dotted {ts : List Text} (h : ∀ t ∈ ts, t ∈ runs isWordChar) {c : Char}
    (hc : isWordChar c = false) (hdot : c ≠ '.') : c ∉ dotted ts := by
  induction ts with
  | nil => exact List.not_mem_nil
  | cons t ts ih =>
    obtain ⟨ht, hts⟩ := List.forall_mem_cons.mp h
    cases ts with
    | nil => exact not_mem_of_word ht hc
    | cons t' ts =>
      rw [dotted_cons_cons, List.mem_append, List.mem_cons, not_or, not_or]
      exact ⟨not_mem_of_word ht hc, hdot, ih hts⟩

theorem Glibc.text_mem_runs (g : Glibc) : g.text ∈ runs fun c => c.isDigit || c = '_' := by
  have hdigits (n : Number) : n.1 ∈ runs fun c => c.isDigit || c = '_' := fun c hc => by
    simp [n.2.2 c hc]
  rcases g with ⟨major, minor⟩ | a
  · have hline : ['_'] ∈ runs fun c => c.isDigit || c = '_' := by decide
    exact append_mem_runs hline (append_mem_runs (hdigits major)
      (append_mem_runs hline (append_mem_runs (hdigits minor) hline)))
  · cases a <;> decide

theorem PlatformTag.text_mem_runs (t : PlatformTag) : t.text ∈ runs isWordChar := by
  cases t with
  | any => decide
  | linux glibc arch =>
    have hname : "manylinux".toList ∈ runs isWordChar := by decide
    have hglibc : glibc.text ∈ runs isWordChar := fun c hc => by
      have h := glibc.text_mem_runs c hc
      simp only [Bool.or_eq_true, decide_eq_true_eq] at h
      rcases h with h | rfl
      · simp [isWordChar, Char.isAlphanum, h]
      · rfl
    exact append_mem_runs hname (append_mem_runs hglibc arch.word)
  | other platform => exact platform.word

theorem not_mem_platformText {tags : List PlatformTag} {c : Char} (hc : isWordChar c = false)
    (hdot : c ≠ '.') : c ∉ platformText tags := by
  refine not_mem_dotted (fun t ht => ?_) hc hdot
  obtain ⟨tag, -, rfl⟩ := List.mem_map.mp ht
  exact tag.text_mem_runs

theorem beforeLastDot_append {s suffix : Text} (h : '.' ∉ suffix) :
    beforeLastDot (s ++ '.' :: suffix) = s := by
  have hall : ∀ c ∈ suffix.reverse, decide (c ≠ '.') = true := fun c hc =>
    decide_eq_true fun heq => h (heq ▸ List.mem_reverse.mp hc)
  rw [beforeLastDot, if_pos (by simp), List.reverse_append, List.reverse_cons, List.append_assoc,
    List.dropWhile_append_of_pos hall]
  simp

namespace TaggedWheel

variable {w : TaggedWheel}

/-- What precedes the suffix of the name. -/
def stem (w : TaggedWheel) : Text :=
  w.distribution.text ++ '-' :: (w.version.1.text ++ '-' ::
    match w.build with
    | none => dotted w.python ++ '-' :: (dotted w.abi ++ '-' :: platformText w.platform)
    | some build => build.1.text ++ '-' ::
      (dotted w.python ++ '-' :: (dotted w.abi ++ '-' :: platformText w.platform)))

theorem text_eq_stem (w : TaggedWheel) : w.text = w.stem ++ ".whl".toList := by
  rw [text, stem]
  cases w.build <;> simp [tagsText]

theorem hyphen_not_mem_python (w : TaggedWheel) : '-' ∉ dotted w.python :=
  not_mem_dotted (fun t ht => (w.python_chars t ht).1) (by decide) (by decide)

theorem hyphen_not_mem_abi (w : TaggedWheel) : '-' ∉ dotted w.abi :=
  not_mem_dotted w.abi_chars (by decide) (by decide)

/-- The sets of tags are found in the name. -/
theorem exists_partsOf_eq (w : TaggedWheel) : ∃ a b rest, partsOf w.text =
    platformText w.platform :: dotted w.abi :: dotted w.python :: a :: b :: rest := by
  have hsuffix : ".whl".toList <:+ w.text := ⟨w.stem, w.text_eq_stem.symm⟩
  have hstem : beforeLastDot w.text = w.stem := by
    rw [text_eq_stem]
    exact beforeLastDot_append (by decide)
  have htags : (dotted w.python ++ '-' :: (dotted w.abi ++ '-' ::
      platformText w.platform)).splitOn '-' =
        [dotted w.python, dotted w.abi, platformText w.platform] := by
    rw [List.splitOn_append_cons_self_of_not_mem w.hyphen_not_mem_python,
      List.splitOn_append_cons_self_of_not_mem w.hyphen_not_mem_abi,
      List.splitOn_eq_singleton (not_mem_platformText (by decide) (by decide))]
  rw [partsOf, if_pos hsuffix, hstem, stem,
    List.splitOn_append_cons_self_of_not_mem w.distribution.no_hyphen,
    List.splitOn_append_cons_self_of_not_mem w.version.1.no_hyphen]
  cases w.build with
  | none =>
    rw [htags]
    exact ⟨_, _, _, rfl⟩
  | some build =>
    dsimp only
    rw [List.splitOn_append_cons_self_of_not_mem build.1.no_hyphen, htags]
    exact ⟨_, _, _, rfl⟩

/-- A single tag is a whole set when it has no dot. -/
theorem mem_of_dotted_eq {ts : List Text} {t : Text} (h : dotted ts = t) (hne : t ≠ [])
    (hdot : '.' ∉ t) : t ∈ ts := by
  cases ts with
  | nil => exact absurd h.symm hne
  | cons s ts =>
    cases ts with
    | nil => exact List.mem_singleton.mpr h.symm
    | cons s' ts =>
      refine absurd ?_ hdot
      rw [← h, dotted_cons_cons]
      simp

/-- A text that begins with the tag for all platforms begins with that tag. -/
theorem any_mem_of_prefix {tags : List PlatformTag}
    (h : "any".toList <+: platformText tags ++ ".whl".toList) : .any ∈ tags := by
  cases tags with
  | nil => exact absurd h (by decide)
  | cons tag tags =>
    have hpre : "any".toList <+: tag.text := by
      have hdot : '.' ∉ "any".toList := by decide
      cases tags with
      | nil => exact prefix_of_not_mem h hdot
      | cons tag' tags =>
        refine prefix_of_not_mem (c := '.') (x := platformText (tag' :: tags) ++ ".whl".toList)
          ?_ hdot
        have htext : platformText (tag :: tag' :: tags) =
            tag.text ++ '.' :: platformText (tag' :: tags) := rfl
        rwa [htext, List.append_assoc] at h
    cases tag with
    | any => exact List.mem_cons_self
    | linux glibc arch =>
      obtain ⟨rest, hrest⟩ := hpre
      exact absurd (List.cons.inj hrest).1 (by decide)
    | other platform => exact absurd hpre platform.not_any

/-- The text `part` begins after a hyphen, or where the other text begins. -/
def OccursAfterHyphen (part s : Text) : Prop := s = part ∨ ∃ u, s = u ++ '-' :: part

theorem OccursAfterHyphen.tail {part x y : Text} (h : OccursAfterHyphen part (x ++ '-' :: y))
    (hx : '-' ∉ x) (hpart : x ++ '-' :: y ≠ part) : OccursAfterHyphen part y := by
  obtain ⟨u, hu⟩ := h.resolve_left hpart
  rcases eq_or_exists_of_append_cons hu.symm hx with ⟨-, h⟩ | ⟨u', -, h⟩
  · exact Or.inl h.symm
  · exact Or.inr ⟨u', h.symm⟩

theorem eq_none_of_append_hyphen {x y rest : Text} (hx : '-' ∉ x)
    (h : x ++ '-' :: y = "none".toList ++ '-' :: rest) : x = "none".toList ∧ y = rest := by
  refine (eq_or_exists_of_append_cons h (by decide)).resolve_right ?_
  rintro ⟨x', rfl, -⟩
  simp at hx

/-- Only a wheel of pure Python has a part `none` in its name and then one that begins with
`any`. -/
theorem isPurePython_of_isPurePython_text (h : isPurePython w.text = true) : w.IsPurePython := by
  have hin : "-none-any".toList <:+: w.text := by
    rcases Bool.or_eq_true _ _ ▸ h with h | h
    · have hlast : "-none-any".toList <:+: "-py3-none-any.whl".toList := by decide
      exact hlast.trans (of_decide_eq_true h).isInfix
    · exact of_decide_eq_true h
  obtain ⟨u, v, huv⟩ := hin
  have hdigit {t : Component} {y : Text} (ht : DigitFollows t.text) :
      t.text ++ '-' :: y ≠ "none".toList ++ '-' :: ("any".toList ++ v) := fun heq => by
    rw [(eq_none_of_append_hyphen t.no_hyphen heq).1] at ht
    exact absurd ht (by decide)
  have hpython {y : Text} :
      dotted w.python ++ '-' :: y ≠ "none".toList ++ '-' :: ("any".toList ++ v) := fun heq => by
    have hnone := (eq_none_of_append_hyphen w.hyphen_not_mem_python heq).1
    exact (w.python_chars _ (mem_of_dotted_eq hnone (by decide) (by decide))).2 rfl
  have htext : w.text = u ++ '-' :: ("none".toList ++ '-' :: ("any".toList ++ v)) := by
    rw [← huv]
    simp
  have htags : OccursAfterHyphen ("none".toList ++ '-' :: ("any".toList ++ v)) w.tagsText := by
    have hversion : OccursAfterHyphen ("none".toList ++ '-' :: ("any".toList ++ v))
        (w.version.1.text ++ '-' :: match w.build with
          | none => w.tagsText
          | some build => build.1.text ++ '-' :: w.tagsText) := by
      rcases eq_or_exists_of_append_cons htext.symm w.distribution.no_hyphen with
        ⟨-, h⟩ | ⟨u', -, h⟩
      · exact Or.inl h.symm
      · exact Or.inr ⟨u', h.symm⟩
    have hbuild := hversion.tail w.version.1.no_hyphen (hdigit w.version.2)
    cases hsome : w.build with
    | none =>
      rw [hsome] at hbuild
      exact hbuild
    | some build =>
      rw [hsome] at hbuild
      exact OccursAfterHyphen.tail hbuild build.1.no_hyphen (hdigit build.2)
  rcases htags.tail w.hyphen_not_mem_python hpython with h | ⟨u', h⟩
  · obtain ⟨habi, hplatform⟩ := eq_none_of_append_hyphen w.hyphen_not_mem_abi h
    exact ⟨mem_of_dotted_eq habi (by decide) (by decide),
      any_mem_of_prefix (hplatform ▸ List.prefix_append _ _)⟩
  · have hhyphen : '-' ∉ platformText w.platform ++ ".whl".toList := by
      rw [List.mem_append, not_or]
      exact ⟨not_mem_platformText (by decide) (by decide), by decide⟩
    refine absurd ?_ hhyphen
    rcases eq_or_exists_of_append_cons h.symm w.hyphen_not_mem_abi with ⟨-, h⟩ | ⟨u'', -, h⟩
    · rw [← h]
      simp
    · rw [← h]
      simp

end TaggedWheel

end WantsCollector

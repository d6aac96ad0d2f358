import Mathlib.Data.List.TakeWhile
import CiInfra.Lib.Separators
import CiInfra.PypiCache.MergeIndexes

/-!
# Which links a text is read for

A link is read at the last `href` that a tag has, whether the tag is the link's own or not: the
value of an `href` ends only at a quote.
-/

namespace MergeIndexes

open Characters Separators

/-! ### Words in either case -/

/-- A text spells a word in either case. -/
def Spells (word found : Text) : Prop := found.map Char.toLower = word

instance (word found : Text) : Decidable (Spells word found) :=
  inferInstanceAs (Decidable (_ = _))

theorem afterWord_eq_some {word s found rest : Text} :
    afterWord word s = some (found, rest) ↔ s = found ++ rest ∧ Spells word found := by
  induction word, s using afterWord.induct generalizing found with
  | case1 s =>
    simp only [afterWord, Spells, List.map_eq_nil_iff, Option.some_inj, Prod.mk.injEq]
    constructor
    · rintro ⟨rfl, rfl⟩
      exact ⟨rfl, rfl⟩
    · rintro ⟨rfl, rfl⟩
      exact ⟨rfl, rfl⟩
  | case2 w word =>
    simp only [afterWord, reduceCtorEq, false_iff]
    rintro ⟨hs, hspells⟩
    cases (List.append_eq_nil_iff.mp hs.symm).1
    cases hspells
  | case3 word c s ih =>
    simp only [afterWord, if_true, Option.map_eq_some_iff, Prod.exists, Prod.mk.injEq]
    constructor
    · rintro ⟨found, rest, h, rfl, rfl⟩
      obtain ⟨rfl, hspells⟩ := ih.mp h
      exact ⟨rfl, congrArg (c.toLower :: ·) hspells⟩
    · rintro ⟨hs, hspells⟩
      cases found with
      | nil => cases hspells
      | cons d found =>
        obtain ⟨rfl, rfl⟩ := List.cons.inj hs
        exact ⟨found, rest, ih.mpr ⟨rfl, (List.cons.inj hspells).2⟩, rfl, rfl⟩
  | case4 w word c s hne =>
    simp only [afterWord, if_neg hne, reduceCtorEq, false_iff]
    rintro ⟨hs, hspells⟩
    cases found with
    | nil => cases hspells
    | cons d found =>
      obtain ⟨rfl, -⟩ := List.cons.inj hs
      exact hne (List.cons.inj hspells).1

/-- What is no letter is in a spelling only if it is in the word. -/
theorem Spells.not_mem {word found : Text} {c : Char} (h : Spells word found)
    (hc : c.toLower ∉ word) : c ∉ found := fun hmem =>
  hc (h ▸ List.mem_map_of_mem hmem)

theorem Spells.exists_endTag {close : Text} (h : Spells "</a>".toList close) :
    ∃ a, close = ['<', '/', a, '>'] ∧ a ≠ '<' ∧ a ≠ '>' := by
  have hlength : close.length = 4 := by simpa using congrArg List.length h
  obtain ⟨lt, slash, a, gt, rfl⟩ := List.length_eq_four.mp hlength
  have hchars : [lt, slash, a, gt].map Char.toLower = ['<', '/', 'a', '>'] := h
  simp only [List.map_cons, List.map_nil, List.cons.injEq, and_true] at hchars
  obtain ⟨hlt, hslash, ha, hgt⟩ := hchars
  rw [eq_of_toLower_eq (by decide) hlt, eq_of_toLower_eq (by decide) hslash,
    eq_of_toLower_eq (by decide) hgt]
  refine ⟨a, rfl, ?_, ?_⟩ <;> rintro rfl
  · exact absurd ha (by decide)
  · exact absurd ha (by decide)

theorem Spells.exists_name {attr : Text} (h : Spells "href=\"".toList attr) :
    ∃ name, attr = name ++ ['"'] ∧ Spells "href=".toList name := by
  have hword : attr.map Char.toLower = "href=".toList ++ ['"'] := h
  obtain ⟨name, last, rfl, hname, hlast⟩ := List.map_eq_append_iff.mp hword
  obtain ⟨c, rfl, hc⟩ := List.map_eq_singleton_iff.mp hlast
  rw [eq_of_toLower_eq (by decide) hc]
  exact ⟨name, rfl, hname⟩

/-! ### Links from their `href` on -/

/-- A link from its `href` on, in the parts that the text of one has. -/
structure Anchor where
  attr : Text
  href : Text
  tail : Text
  text : Text
  close : Text
  attr_spells : Spells "href=\"".toList attr
  quote_not_mem_href : '"' ∉ href
  gt_not_mem_tail : '>' ∉ tail
  lt_not_mem_text : '<' ∉ text
  close_spells : Spells "</a>".toList close

namespace Anchor

def attrs (a : Anchor) : Text := a.attr ++ (a.href ++ '"' :: a.tail)

/-- The text up to the end tag. -/
def body (a : Anchor) : Text := a.attrs ++ '>' :: a.text

/-- The link, with what its tag has before the `href`. -/
def link (a : Anchor) (before : Text) : Link := ⟨before ++ a.attrs, a.href, a.text⟩

end Anchor

theorem hrefOn_eq_some_iff {s rest : Text} {link : Link} : hrefOn s = some (link, rest) ↔
    ∃ a : Anchor, s = a.body ++ (a.close ++ rest) ∧ link = a.link [] := by
  simp only [hrefOn, Option.bind_eq_some_iff, Prod.exists]
  constructor
  · rintro ⟨attr, t, hattr, h⟩
    obtain ⟨rfl, hspells⟩ := afterWord_eq_some.mp hattr
    split at h
    · cases h
    · rename_i quote tail hquote
      obtain ⟨rfl, ht, hhref⟩ := dropWhile_ne_eq_cons hquote
      split at h
      · cases h
      · rename_i gt shown hgt
        obtain ⟨rfl, htail, hgt⟩ := dropWhile_ne_eq_cons hgt
        obtain ⟨⟨close, rest⟩, hclose, h⟩ := Option.map_eq_some_iff.mp h
        cases h
        obtain ⟨hshown, hspells'⟩ := afterWord_eq_some.mp hclose
        have hlt : '<' ∉ shown.takeWhile (· ≠ '<') := fun h => by
          simpa using List.mem_takeWhile_imp h
        refine ⟨⟨attr, _, _, _, close, hspells, hhref, hgt, hlt, hspells'⟩, ?_, ?_⟩
        · show attr ++ t = _
          rw [Anchor.body, Anchor.attrs]
          simp only [List.append_assoc, List.cons_append]
          rw [← hshown, List.takeWhile_append_dropWhile, ← htail, ← ht]
        · simp [Anchor.link, Anchor.attrs]
  · rintro ⟨a, rfl, rfl⟩
    refine ⟨a.attr, a.href ++ '"' :: (a.tail ++ '>' :: (a.text ++ (a.close ++ rest))), ?_, ?_⟩
    · rw [afterWord_eq_some]
      exact ⟨by simp [Anchor.body, Anchor.attrs], a.attr_spells⟩
    · obtain ⟨letter, hclose, -⟩ := a.close_spells.exists_endTag
      rw [takeWhile_ne_append a.quote_not_mem_href,
        dropWhile_ne_append a.quote_not_mem_href]
      dsimp only
      rw [takeWhile_ne_append a.gt_not_mem_tail, dropWhile_ne_append a.gt_not_mem_tail]
      dsimp only
      rw [Option.map_eq_some_iff]
      refine ⟨(a.close, rest), ?_, ?_⟩
      · rw [hclose, List.cons_append, dropWhile_ne_append a.lt_not_mem_text,
          afterWord_eq_some, ← List.cons_append, ← hclose]
        exact ⟨rfl, a.close_spells⟩
      · rw [hclose, List.cons_append, takeWhile_ne_append a.lt_not_mem_text]
        simp [Anchor.link, Anchor.attrs]

theorem hrefOn_body (a : Anchor) (rest : Text) :
    hrefOn (a.body ++ (a.close ++ rest)) = some (a.link [], rest) :=
  hrefOn_eq_some_iff.mpr ⟨a, rfl, rfl⟩

/-! ### Links from their attributes on -/

/-- The text has a link from an `href` on, after text that no tag ends in. -/
def HasAnchor (s before : Text) (a : Anchor) (rest : Text) : Prop :=
  '>' ∉ before ∧ s = before ++ (a.body ++ (a.close ++ rest))

theorem hasAnchor_nil {s rest : Text} {a : Anchor} :
    HasAnchor s [] a rest ↔ s = a.body ++ (a.close ++ rest) :=
  and_iff_right List.not_mem_nil

theorem hasAnchor_cons {s before rest : Text} {c : Char} {a : Anchor} :
    HasAnchor (c :: s) (c :: before) a rest ↔ c ≠ '>' ∧ HasAnchor s before a rest := by
  simp only [HasAnchor, List.mem_cons, not_or, List.cons_append, List.cons.injEq, true_and,
    and_assoc, ne_comm, ne_eq]

/-- The text has no link from a later `href` on. -/
def HasLastAnchor (s before : Text) (a : Anchor) (rest : Text) : Prop :=
  HasAnchor s before a rest ∧ ∀ before' a' rest', HasAnchor s before' a' rest' →
    before'.length ≤ before.length

theorem attrsOn_ne_none {s before rest : Text} {a : Anchor} (h : HasAnchor s before a rest) :
    attrsOn s ≠ none := by
  induction before generalizing s with
  | nil =>
    have hhref := hrefOn_eq_some_iff.mpr ⟨a, hasAnchor_nil.mp h, rfl⟩
    cases s with
    | nil => cases hhref
    | cons c s =>
      simp only [attrsOn]
      split
      · exact Option.some_ne_none _
      · rw [hhref]
        exact Option.some_ne_none _
  | cons c before ih =>
    cases s with
    | nil => cases h.2
    | cons d s =>
      obtain rfl : d = c := (List.cons.inj h.2).1
      obtain ⟨hc, h⟩ := hasAnchor_cons.mp h
      obtain ⟨found, hfound⟩ := Option.ne_none_iff_exists'.mp (ih h)
      simp only [attrsOn, if_neg hc, hfound]
      exact Option.some_ne_none _

theorem exists_of_attrsOn_eq_some {s rest : Text} {link : Link}
    (h : attrsOn s = some (link, rest)) :
    ∃ before a, HasLastAnchor s before a rest ∧ link = a.link before := by
  induction s generalizing link with
  | nil => cases h
  | cons c s ih =>
    simp only [attrsOn] at h
    split at h
    case h_1 found rest' hlater =>
      by_cases hc : c = '>'
      · rw [if_pos hc] at hlater
        cases hlater
      · rw [if_neg hc] at hlater
        cases h
        obtain ⟨before, a, ⟨hhas, hlast⟩, rfl⟩ := ih hlater
        refine ⟨c :: before, a, ⟨hasAnchor_cons.mpr ⟨hc, hhas⟩, ?_⟩, rfl⟩
        intro before' a' rest' h'
        cases before' with
        | nil => exact Nat.zero_le _
        | cons d before' =>
          obtain rfl : c = d := (List.cons.inj h'.2).1
          exact Nat.succ_le_succ (hlast _ _ _ (hasAnchor_cons.mp h').2)
    case h_2 hlater =>
      obtain ⟨a, ha, rfl⟩ := hrefOn_eq_some_iff.mp h
      refine ⟨[], a, ⟨hasAnchor_nil.mpr ha, ?_⟩, rfl⟩
      intro before' a' rest' h'
      cases before' with
      | nil => exact le_rfl
      | cons d before' =>
        obtain rfl : c = d := (List.cons.inj h'.2).1
        obtain ⟨hc, h'⟩ := hasAnchor_cons.mp h'
        rw [if_neg hc] at hlater
        exact absurd hlater (attrsOn_ne_none h')

theorem HasAnchor.unique {s before before' rest rest' : Text} {a a' : Anchor}
    (h : HasAnchor s before a rest) (h' : HasAnchor s before' a' rest')
    (hlength : before.length = before'.length) :
    before = before' ∧ a.link before = a'.link before' ∧ rest = rest' := by
  obtain ⟨rfl, hrest⟩ := List.append_inj (h.2.symm.trans h'.2) hlength
  have hhref := hrefOn_body a rest
  rw [hrest, hrefOn_body, Option.some_inj, Prod.mk.injEq] at hhref
  obtain ⟨hlink, rfl⟩ := hhref
  simp only [Anchor.link, Link.mk.injEq, List.nil_append] at hlink ⊢
  obtain ⟨hattrs, hhref, htext⟩ := hlink
  exact ⟨trivial, ⟨by rw [hattrs], hhref.symm, htext.symm⟩, trivial⟩

theorem attrsOn_eq_some_iff {s rest : Text} {link : Link} : attrsOn s = some (link, rest) ↔
    ∃ before a, HasLastAnchor s before a rest ∧ link = a.link before := by
  refine ⟨exists_of_attrsOn_eq_some, ?_⟩
  rintro ⟨before, a, ⟨hhas, hlast⟩, rfl⟩
  obtain ⟨⟨link, rest'⟩, hfound⟩ := Option.ne_none_iff_exists'.mp (attrsOn_ne_none hhas)
  obtain ⟨before', a', ⟨hhas', hlast'⟩, rfl⟩ := exists_of_attrsOn_eq_some hfound
  have hlength := le_antisymm (hlast' _ _ _ hhas) (hlast _ _ _ hhas')
  obtain ⟨-, hlink, rfl⟩ := hhas.unique hhas' hlength
  rw [hfound, hlink]

end MergeIndexes

import Mathlib.Data.List.TakeWhile
import CiInfra.PypiCache.WheelTags

/-!
# How a set of platform tags is read

Of a set with a legacy alias in it, all that follows the last place of the alias is taken for the
architecture, so that only the last tag of the set can be read. Of another set the first manylinux
tag is read. The reading depends on the order of the tags.
-/

namespace WantsCollector

open Regex Separators

/-! ### Texts with separators -/

section Separators

variable {sep s t : Text} {c : Char}

theorem afterLast?_eq_none (h : ¬ sep <:+: s) : afterLast? sep s = none := by
  induction s with
  | nil => rfl
  | cons c s ih =>
    rw [afterLast?, ih fun hs => h (hs.trans (List.suffix_cons c s).isInfix),
      if_neg fun hs => h hs.isInfix]
    rfl

/-- The last place is in the text after the separator, if there is one. -/
theorem afterLast?_append_cons (hne : sep ≠ []) (hc : c ∉ sep) :
    afterLast? sep (t ++ c :: s) =
      (afterLast? sep s).or ((afterLast? sep t).map (· ++ c :: s)) := by
  induction t with
  | nil =>
    have hpre : ¬ sep <+: c :: s := fun h =>
      hne (List.prefix_nil.mp (prefix_of_not_mem (s := []) h hc))
    show (afterLast? sep s).or (if sep <+: c :: s then _ else none) = _
    rw [if_neg hpre]
    rfl
  | cons d t ih =>
    have hpre : sep <+: d :: (t ++ c :: s) ↔ sep <+: d :: t :=
      ⟨fun h => prefix_of_not_mem (s := d :: t) h hc,
        fun h => h.trans (List.prefix_append (d :: t) _)⟩
    rw [List.cons_append, afterLast?, ih, afterLast?, Option.or_assoc]
    congr 1
    by_cases h : sep <+: d :: t
    · rw [if_pos (hpre.mpr h), if_pos h]
      have hdrop : (d :: (t ++ c :: s)).drop sep.length = (d :: t).drop sep.length ++ c :: s := by
        rw [← List.cons_append, List.drop_append_of_le_length h.length_le]
      cases afterLast? sep t <;> simp [hdrop]
    · rw [if_neg (mt hpre.mp h), if_neg h]
      cases afterLast? sep t <;> rfl

end Separators

/-! ### Single tags -/

/-- The name of the platform occurs only in what follows characters that it does not begin with. -/
theorem manylinux_infix_of_append {s t : Text} (hs : 'm' ∉ s)
    (h : "manylinux".toList <:+: s ++ t) : "manylinux".toList <:+: t := by
  obtain ⟨u, v, h⟩ := h
  rw [List.append_assoc] at h
  rcases List.append_eq_append_iff.mp h with ⟨z, rfl, hz⟩ | ⟨z, rfl, hz⟩
  · cases z with
    | nil => exact ⟨[], v, hz⟩
    | cons d z =>
      have hd : d = 'm' := (List.cons.inj hz).1.symm
      exact absurd (by rw [hd]; simp) hs
  · exact ⟨z, v, by rw [hz, List.append_assoc]⟩

theorem not_manylinux_infix_version (g : Glibc) (a : Arch) :
    ¬ "manylinux".toList <:+: g.text ++ a.text := fun h =>
  a.no_manylinux (manylinux_infix_of_append
    (fun hm => absurd (g.text_mem_runs _ hm) (by decide)) h)

/-- The name of the platform occurs only at the beginning of a tag. -/
theorem eq_linux_of_occurs {tag : PlatformTag} {u v : Text} (h : tag.text = u ++ v)
    (hv : "manylinux".toList <+: v) : u = [] ∧ ∃ g a, tag = .linux g a := by
  have hin : "manylinux".toList <:+: tag.text := by
    rw [h]
    exact hv.isInfix.trans (List.suffix_append u v).isInfix
  cases tag with
  | any => exact absurd hin (by decide)
  | other platform => exact absurd hin platform.no_manylinux
  | linux g a =>
    refine ⟨?_, g, a, rfl⟩
    rcases List.append_eq_append_iff.mp h with ⟨z, rfl, hz⟩ | ⟨z, hz, rfl⟩
    · exact absurd (hz ▸ hv.isInfix.trans (List.suffix_append z v).isInfix)
        (not_manylinux_infix_version g a)
    · cases z with
      | nil => exact absurd hv.isInfix (not_manylinux_infix_version g a)
      | cons d z =>
        obtain ⟨rest, hrest⟩ := hv
        have hd : d = 'm' := (List.cons.inj hrest).1.symm
        have htails : ∀ t ∈ "manylinux".toList.tails, t.head? = some 'm' →
            t = "manylinux".toList := by decide
        have hwhole := htails (d :: z) ((List.mem_tails _ _).mpr ⟨u, hz.symm⟩) (by rw [hd]; rfl)
        rw [hwhole] at hz
        simpa using hz

/-! ### Aliases -/

def LegacyAlias.text : LegacyAlias → Text
  | manylinux1 => "manylinux1".toList
  | manylinux2010 => "manylinux2010".toList
  | manylinux2014 => "manylinux2014".toList

/-- The aliases in the order in which they are looked for. -/
def legacyAliases : List LegacyAlias := [.manylinux1, .manylinux2010, .manylinux2014]

theorem manylinuxAliases_eq : manylinuxAliases = legacyAliases.map fun k => (k.text, k.version) :=
  rfl

theorem LegacyAlias.text_prefix (k : LegacyAlias) : "manylinux".toList <+: k.text := by
  cases k <;> decide

theorem LegacyAlias.dot_not_mem_text (k : LegacyAlias) : '.' ∉ k.text := by
  cases k <;> decide

theorem LegacyAlias.underscore_not_mem_text (k : LegacyAlias) : '_' ∉ k.text := by
  cases k <;> decide

theorem LegacyAlias.eq_of_text_prefix {k k' : LegacyAlias} (h : k.text <+: k'.text) : k = k' := by
  cases k <;> cases k' <;> first | rfl | exact absurd h (by decide)

theorem LegacyAlias.text_ne_nil (k : LegacyAlias) : k.text ≠ [] := by
  cases k <;> decide

theorem text_linux_legacy (k : LegacyAlias) (a : Arch) :
    (PlatformTag.linux (.legacy k) a).text = k.text ++ '_' :: a.text := by
  cases k <;> rfl

/-- An alias occurs in the tags for which it stands. -/
theorem alias_infix_text_iff {k : LegacyAlias} {tag : PlatformTag} :
    k.text <:+: tag.text ↔ ∃ a, tag = .linux (.legacy k) a := by
  constructor
  · rintro ⟨u, v, h⟩
    rw [List.append_assoc] at h
    obtain ⟨rfl, g, a, rfl⟩ := eq_linux_of_occurs h.symm
      (k.text_prefix.trans (List.prefix_append _ _))
    refine ⟨a, ?_⟩
    rw [List.nil_append] at h
    rcases g with ⟨major, minor⟩ | k'
    · have hpre : k.text <+: "manylinux".toList :=
        prefix_of_not_mem ⟨v, h⟩ k.underscore_not_mem_text
      cases k <;> exact absurd hpre (by decide)
    · rw [text_linux_legacy] at h
      have hpre : k.text <+: k'.text := prefix_of_not_mem ⟨v, h⟩ k.underscore_not_mem_text
      rw [LegacyAlias.eq_of_text_prefix hpre]
  · rintro ⟨a, rfl⟩
    rw [text_linux_legacy]
    exact (List.prefix_append _ _).isInfix

/-- Some tag of the set has the alias. -/
def HasAlias (tags : List PlatformTag) (k : LegacyAlias) : Prop :=
  ∃ a, .linux (.legacy k) a ∈ tags

/-- Of the aliases in the set this one stands for the oldest version. -/
def OldestAlias (tags : List PlatformTag) (k : LegacyAlias) : Prop :=
  HasAlias tags k ∧ ∀ j, HasAlias tags j → versionLe k.version j.version = true

variable {tags : List PlatformTag} {k : LegacyAlias}

theorem platformText_cons_cons (tag tag' : PlatformTag) (tags : List PlatformTag) :
    platformText (tag :: tag' :: tags) = tag.text ++ '.' :: platformText (tag' :: tags) := rfl

theorem alias_infix_platformText_iff : k.text <:+: platformText tags ↔ HasAlias tags k := by
  unfold HasAlias
  induction tags with
  | nil =>
    have hnil : ¬ k.text <:+: [] := fun h => k.text_ne_nil (List.infix_nil.mp h)
    simpa [platformText, dotted] using hnil
  | cons tag tags ih =>
    cases tags with
    | nil => simpa [platformText, dotted, eq_comm] using @alias_infix_text_iff k tag
    | cons tag' tags =>
      rw [platformText_cons_cons, infix_append_cons_iff k.dot_not_mem_text, ih,
        alias_infix_text_iff]
      simp only [List.mem_cons (b := tag), exists_or, eq_comm]

theorem exists_oldestAlias (h : ∃ k, HasAlias tags k) : ∃ k, OldestAlias tags k := by
  by_cases h1 : HasAlias tags .manylinux1
  · exact ⟨_, h1, fun j _ => by cases j <;> rfl⟩
  by_cases h2 : HasAlias tags .manylinux2010
  · refine ⟨_, h2, fun j hj => ?_⟩
    cases j with
    | manylinux1 => exact absurd hj h1
    | manylinux2010 => rfl
    | manylinux2014 => rfl
  · obtain ⟨k, hk⟩ := h
    refine ⟨k, hk, fun j hj => ?_⟩
    cases k <;> cases j <;> first | rfl | contradiction

/-- The oldest alias is the first one that is found. -/
theorem find?_alias_eq_some (h : OldestAlias tags k) :
    (manylinuxAliases.find? fun a => a.1 <:+: platformText tags) = some (k.text, k.version) := by
  have hpos := decide_eq_true (alias_infix_platformText_iff.mpr h.1)
  have hneg {j : LegacyAlias} (hj : versionLe k.version j.version = false) :
      decide (j.text <:+: platformText tags) = false := by
    refine decide_eq_false fun hin => ?_
    rw [h.2 j (alias_infix_platformText_iff.mp hin)] at hj
    cases hj
  rw [manylinuxAliases_eq]
  simp only [legacyAliases, List.map_cons, List.find?_cons]
  cases k with
  | manylinux1 => rw [hpos]
  | manylinux2010 => rw [hneg (j := .manylinux1) rfl, hpos]
  | manylinux2014 => rw [hneg (j := .manylinux1) rfl, hneg (j := .manylinux2010) rfl, hpos]

theorem find?_alias_eq_none (h : ∀ k, ¬ HasAlias tags k) :
    (manylinuxAliases.find? fun a => a.1 <:+: platformText tags) = none := by
  rw [manylinuxAliases_eq, List.find?_eq_none]
  intro a ha
  obtain ⟨k, -, rfl⟩ := List.mem_map.mp ha
  simpa using mt alias_infix_platformText_iff.mp (h k)

/-! ### What follows the last place of an alias -/

theorem afterLast?_text_linux_legacy (k : LegacyAlias) (a : Arch) :
    afterLast? k.text (PlatformTag.linux (.legacy k) a).text = some ('_' :: a.text) := by
  have harch : ¬ k.text <:+: a.text := fun h => a.no_manylinux (k.text_prefix.isInfix.trans h)
  have hself : afterLast? k.text k.text = some [] := by
    cases k <;> decide
  rw [text_linux_legacy, afterLast?_append_cons k.text_ne_nil k.underscore_not_mem_text,
    afterLast?_eq_none harch, hself]
  rfl

/-- With the alias in the last tag, its architecture follows. -/
theorem afterLast?_of_getLast? {a : Arch} (h : tags.getLast? = some (.linux (.legacy k) a)) :
    afterLast? k.text (platformText tags) = some ('_' :: a.text) := by
  induction tags with
  | nil => cases h
  | cons tag tags ih =>
    cases tags with
    | nil =>
      obtain rfl := Option.some.inj h
      exact afterLast?_text_linux_legacy k a
    | cons tag' tags =>
      rw [platformText_cons_cons, afterLast?_append_cons k.text_ne_nil k.dot_not_mem_text,
        ih (by rwa [List.getLast?_cons_cons] at h)]
      rfl

/-- Otherwise a dot and more tags follow. -/
theorem exists_afterLast?_of_getLast?_ne (h : HasAlias tags k)
    (hlast : ∀ a, tags.getLast? ≠ some (.linux (.legacy k) a)) :
    ∃ r, afterLast? k.text (platformText tags) = some r ∧ '.' ∈ r := by
  induction tags with
  | nil =>
    obtain ⟨a, ha⟩ := h
    cases ha
  | cons tag tags ih =>
    cases tags with
    | nil =>
      obtain ⟨a, ha⟩ := h
      exact absurd (congrArg some (List.mem_singleton.mp ha).symm) (hlast a)
    | cons tag' tags =>
      rw [platformText_cons_cons, afterLast?_append_cons k.text_ne_nil k.dot_not_mem_text]
      by_cases hrest : HasAlias (tag' :: tags) k
      · obtain ⟨r, hr, hdot⟩ := ih hrest fun a => by
          rw [← List.getLast?_cons_cons (a := tag)]
          exact hlast a
        exact ⟨r, by rw [hr]; rfl, hdot⟩
      · obtain ⟨a, ha⟩ := h
        obtain rfl := (List.mem_cons.mp ha).resolve_right fun hmem => hrest ⟨a, hmem⟩
        rw [afterLast?_eq_none (mt alias_infix_platformText_iff.mp hrest),
          afterLast?_text_linux_legacy]
        exact ⟨_, rfl, by simp⟩

/-! ### The first tag of a platform -/

/-- The tag names a version of glibc. -/
def PlatformTag.IsLinux (tag : PlatformTag) : Prop := ∃ g a, tag = .linux g a

theorem matchStart_reManylinux_eq_none {tag : PlatformTag} (htag : ¬ tag.IsLinux) {u v : Text}
    (h : tag.text = u ++ v) (s : Text) :
    reManylinux.matchStart v = none ∧ reManylinux.matchStart (v ++ '.' :: s) = none := by
  have hname : ¬ "manylinux_".toList <+: v := fun hv => htag
    (eq_linux_of_occurs h ((List.prefix_append "manylinux".toList ['_']).trans hv)).2
  exact ⟨matchStart_seq_text_eq_none hname, matchStart_seq_text_eq_none fun hv =>
    hname (prefix_of_not_mem hv (by decide))⟩

/-- Other tags are passed over. -/
theorem search_reManylinux_cons {tag tag' : PlatformTag} (htag : ¬ tag.IsLinux)
    (tags : List PlatformTag) :
    reManylinux.search (platformText (tag :: tag' :: tags)) =
      reManylinux.search (platformText (tag' :: tags)) := by
  have hsplit : platformText (tag :: tag' :: tags) =
      (tag.text ++ ['.']) ++ platformText (tag' :: tags) := by
    rw [platformText_cons_cons]
    simp
  rw [hsplit]
  refine search_append fun u v huv hv => ?_
  obtain ⟨v, c, rfl⟩ := (List.eq_nil_or_concat' v).resolve_left hv
  rw [← List.append_assoc] at huv
  obtain ⟨htext, hc⟩ := List.append_inj' huv rfl
  obtain rfl := (List.cons.inj hc).1
  rw [List.append_assoc]
  exact (matchStart_reManylinux_eq_none htag htext _).2

/-- Digits end where another character comes. -/
theorem eq_of_digits_append {m n s t : Text} {c : Char} (hm : m ∈ runs Char.isDigit)
    (hn : n ∈ runs Char.isDigit) (hc : c.isDigit = false) (h : m ++ c :: s = n ++ c :: t) :
    m = n ∧ s = t := by
  have hmem {l : Text} (hl : l ∈ runs Char.isDigit) : c ∉ l := fun hmem => by
    rw [hl c hmem] at hc
    cases hc
  refine (eq_or_exists_of_append_cons h (hmem hn)).resolve_right ?_
  rintro ⟨m', rfl, -⟩
  exact hmem hm (by simp)

theorem text_linux_numbers (major minor : Number) (a : Arch) (rest : Text) :
    (PlatformTag.linux (.numbers major minor) a).text ++ rest =
      "manylinux_".toList ++ (major.1 ++ '_' :: (minor.1 ++ '_' :: (a.text ++ rest))) := by
  have hname : "manylinux_".toList = "manylinux".toList ++ ['_'] := by decide
  have hassoc (name x y z : Text) : (name ++ (('_' :: (x ++ '_' :: (y ++ ['_']))) ++ z)) ++ rest =
      (name ++ ['_']) ++ (x ++ '_' :: (y ++ '_' :: (z ++ rest))) := by
    simp
  rw [hname]
  exact hassoc _ _ _ _

section Numbers

variable {r : Regex} {n : ℕ} {number rest : Text} {captures : List (ℕ × Text)} {m : Way}
  (hnumber : number ∈ nonemptyRuns Char.isDigit)
include hnumber

theorem mem_ways_number (h : m ∈ r.ways ⟨(n, number) :: captures, rest⟩) :
    m ∈ (seq (group n (plus (char Char.isDigit))) (seq (lit '_') r)).ways
      ⟨captures, number ++ '_' :: rest⟩ :=
  mem_ways_seq.mpr ⟨⟨(n, number) :: captures, '_' :: rest⟩,
    (hasLanguage_plus_char _).mem_ways_group.mpr ⟨number, hnumber, rfl, rfl⟩,
    mem_ways_seq.mpr ⟨⟨(n, number) :: captures, rest⟩, mem_ways_lit.mpr ⟨rfl, rfl⟩, h⟩⟩

/-- A number is captured up to the character that follows it. -/
theorem head?_ways_number (h : ((seq (group n (plus (char Char.isDigit))) (seq (lit '_') r)).ways
      ⟨captures, number ++ '_' :: rest⟩).head? = some m) :
    (r.ways ⟨(n, number) :: captures, rest⟩).head? = some m := by
  obtain ⟨u, hu, hhead, -⟩ := exists_of_head?_ways_seq
    ((pairwise_ways_group (R := fun v u => v.length < u.length)).mpr
      (greedy_ways_plus_char Char.isDigit _)) h
  obtain ⟨number', hnumber', hrest, hcaptures⟩ := (hasLanguage_plus_char _).mem_ways_group.mp hu
  obtain ⟨x, hx, hhead, -⟩ := exists_of_head?_ways_seq (pairwise_ways_char _ u) hhead
  obtain ⟨hx, hxcaptures⟩ := mem_ways_lit.mp hx
  obtain ⟨captures', rest'⟩ := x
  obtain rfl : captures' = _ := hxcaptures.trans hcaptures
  rw [hx] at hrest
  obtain ⟨rfl, rfl⟩ := eq_of_digits_append hnumber.2 hnumber'.2 (by decide) hrest
  exact hhead

end Numbers

/-- And the architecture is captured up to the next dot. -/
theorem capture_arch {n : ℕ} {a : Arch} {rest : Text} {captures : List (ℕ × Text)} {m : Way}
    (hrest : ∀ c ∈ rest.head?, c = '.')
    (h : ((group n (plus (char isWordChar))).ways ⟨captures, a.text ++ rest⟩).head? = some m) :
    m = ⟨(n, a.text) :: captures, rest⟩ := by
  have hmem : (⟨(n, a.text) :: captures, rest⟩ : Way) ∈
      (group n (plus (char isWordChar))).ways ⟨captures, a.text ++ rest⟩ :=
    (hasLanguage_plus_char _).mem_ways_group.mpr ⟨a.text, ⟨a.ne_nil, a.word⟩, rfl, rfl⟩
  refine ((eq_or_of_head? ((pairwise_ways_group (R := fun v u => v.length < u.length)).mpr
    (greedy_ways_plus_char isWordChar _)) h hmem).resolve_right fun hlt => ?_).symm
  obtain ⟨run, ⟨-, hrun⟩, hsplit, -⟩ :=
    (hasLanguage_plus_char _).mem_ways_group.mp (List.mem_of_head? h)
  have hlength := congrArg List.length hsplit
  have hpre : run <+: a.text := by
    cases rest with
    | nil => exact ⟨m.rest, by simpa using hsplit.symm⟩
    | cons c rest =>
      obtain rfl := hrest c rfl
      exact prefix_of_not_mem ⟨m.rest, hsplit.symm⟩ (not_mem_of_word hrun (by decide))
  have hle := hpre.length_le
  simp only [List.length_append] at hlength
  simp only at hlt
  omega

/-- The first tag with numbers is taken apart. -/
theorem exists_search_reManylinux {major minor : Number} {a : Arch} {rest : Text}
    (hrest : ∀ c ∈ rest.head?, c = '.') :
    ∃ m, reManylinux.search ((PlatformTag.linux (.numbers major minor) a).text ++ rest) = some m ∧
      m.capture 1 = major.1 ∧ m.capture 2 = minor.1 ∧ m.capture 3 = a.text := by
  have hwords : (⟨[(3, a.text), (2, minor.1), (1, major.1)], rest⟩ : Way) ∈
      (group 3 (plus (char isWordChar))).ways ⟨[(2, minor.1), (1, major.1)], a.text ++ rest⟩ :=
    (hasLanguage_plus_char _).mem_ways_group.mpr ⟨a.text, ⟨a.ne_nil, a.word⟩, rfl, rfl⟩
  obtain ⟨m, hm⟩ := Option.ne_none_iff_exists'.mp (mt List.head?_eq_none_iff.mp
    (List.ne_nil_of_mem (mem_ways_number major.2 (mem_ways_number minor.2 hwords))))
  have hcapture := capture_arch hrest (head?_ways_number minor.2 (head?_ways_number major.2 hm))
  refine ⟨m, ?_, by rw [hcapture]; rfl, by rw [hcapture]; rfl, by rw [hcapture]; rfl⟩
  rw [text_linux_numbers]
  exact search_eq_of_matchStart (matchStart_seq_text.trans hm)

/-- Without such a tag there is no match. -/
theorem search_reManylinux_eq_none {tags : List PlatformTag} (h : ∀ tag ∈ tags, ¬ tag.IsLinux) :
    reManylinux.search (platformText tags) = none := by
  induction tags with
  | nil => decide
  | cons tag tags ih =>
    obtain ⟨htag, htags⟩ := List.forall_mem_cons.mp h
    cases tags with
    | nil => exact search_eq_none fun u v huv => (matchStart_reManylinux_eq_none htag huv []).1
    | cons tag' tags =>
      rw [search_reManylinux_cons htag]
      exact ih htags

theorem search_reManylinux_append {before : List PlatformTag}
    (h : ∀ tag ∈ before, ¬ tag.IsLinux) (tag : PlatformTag) (after : List PlatformTag) :
    reManylinux.search (platformText (before ++ tag :: after)) =
      reManylinux.search (platformText (tag :: after)) := by
  induction before with
  | nil => rfl
  | cons tag' before ih =>
    obtain ⟨htag', hbefore⟩ := List.forall_mem_cons.mp h
    rw [← ih hbefore]
    cases before with
    | nil => exact search_reManylinux_cons htag' after
    | cons tag'' before => exact search_reManylinux_cons htag' _

theorem exists_platformText_cons_eq (tag : PlatformTag) (tags : List PlatformTag) :
    ∃ rest, platformText (tag :: tags) = tag.text ++ rest ∧ ∀ c ∈ rest.head?, c = '.' := by
  cases tags with
  | nil => exact ⟨[], (List.append_nil _).symm, fun c hc => by cases hc⟩
  | cons tag' tags => exact ⟨_, rfl, fun c hc => (Option.some.inj hc).symm⟩

/-- The first manylinux tag of a set, and what precedes it. -/
theorem exists_first_linux {tags : List PlatformTag} (h : ∃ tag ∈ tags, tag.IsLinux) :
    ∃ before g a after, tags = before ++ .linux g a :: after ∧
      ∀ tag ∈ before, ¬ tag.IsLinux := by
  induction tags with
  | nil =>
    obtain ⟨tag, htag, -⟩ := h
    cases htag
  | cons tag tags ih =>
    by_cases htag : tag.IsLinux
    · obtain ⟨g, a, rfl⟩ := htag
      exact ⟨[], g, a, tags, rfl, fun t ht => by cases ht⟩
    · have hrest : ∃ tag ∈ tags, tag.IsLinux := by
        obtain ⟨tag', hmem, hlinux⟩ := h
        rcases List.mem_cons.mp hmem with rfl | hmem
        · exact absurd hlinux htag
        · exact ⟨tag', hmem, hlinux⟩
      obtain ⟨before, g, a, after, rfl, hbefore⟩ := ih hrest
      exact ⟨tag :: before, g, a, after, rfl, List.forall_mem_cons.mpr ⟨htag, hbefore⟩⟩

/-! ### Readings of sets -/

/-- The set of tags is read as a platform that is compatible with the target, of this
architecture: with an alias in the set this is the one of the last tag, when that has the oldest
alias, and otherwise the one of the first manylinux tag. -/
inductive ReadAs (target : ℤ × ℤ) (tags : List PlatformTag) (a : Arch) : Prop
  | last (k : LegacyAlias) (oldest : OldestAlias tags k)
      (last : tags.getLast? = some (.linux (.legacy k) a))
      (le : versionLe k.version target = true)
  | first (before after : List PlatformTag) (g : Glibc) (no_alias : ∀ k, ¬ HasAlias tags k)
      (split : tags = before ++ .linux g a :: after)
      (before_other : ∀ tag ∈ before, ¬ tag.IsLinux) (le : versionLe g.version target = true)

theorem int?_number (n : Number) : PythonNumber.int? n.1 = some (PythonNumber.digitsValue n.1) := by
  obtain ⟨n, hne, hdigits⟩ := n
  exact PythonNumber.int?_digits hdigits hne

/-- The first element with a property is determined. -/
theorem first_unique {α : Type*} {P : α → Prop} {before after before' after' : List α} {x y : α}
    (h : before ++ x :: after = before' ++ y :: after') (hbefore : ∀ z ∈ before, ¬ P z)
    (hbefore' : ∀ z ∈ before', ¬ P z) (hx : P x) (hy : P y) : x = y := by
  rcases List.append_eq_append_iff.mp h with ⟨z, rfl, hz⟩ | ⟨z, rfl, hz⟩
  · cases z with
    | nil => exact (List.cons.inj hz).1
    | cons x' z =>
      obtain ⟨rfl, -⟩ := List.cons.inj hz
      exact absurd hx (hbefore' x (by simp))
  · cases z with
    | nil => exact (List.cons.inj hz).1.symm
    | cons y' z =>
      obtain ⟨rfl, -⟩ := List.cons.inj hz
      exact absurd hy (hbefore y (by simp))

theorem dropWhile_arch (a : Arch) : ('_' :: a.text).dropWhile (· = '_') = a.text := by
  rw [List.dropWhile_cons_of_pos (by decide)]
  cases htext : a.text with
  | nil => rfl
  | cons c s =>
    have hc : c ≠ '_' := fun h => a.head_ne (by rw [htext, h]; rfl)
    rw [List.dropWhile_cons_of_neg (by simpa using hc)]

theorem OldestAlias.unique {j : LegacyAlias} (h : OldestAlias tags k) (h' : OldestAlias tags j) :
    k = j := by
  have hle := h.2 j h'.1
  have hge := h'.2 k h.1
  cases k <;> cases j <;>
    first | rfl | exact absurd hle (by decide) | exact absurd hge (by decide)

theorem Arch.eq_of_text_eq {a b : Arch} (h : a.text = b.text) : a = b := by
  cases a
  cases b
  cases h
  rfl

section Compatible

variable {targetText : Text} {target : ℤ × ℤ} (htarget : targetVersion targetText = some target)
include htarget

theorem isManylinuxCompatible_of_alias (h : OldestAlias tags k) :
    ∃ r, afterLast? k.text (platformText tags) = some r ∧
      isManylinuxCompatible (platformText tags) targetText = some (versionLe k.version target,
        if r.dropWhile (· = '_') = [] then none else some (r.dropWhile (· = '_'))) := by
  obtain ⟨r, hr⟩ : ∃ r, afterLast? k.text (platformText tags) = some r := by
    by_cases hlast : ∃ a, tags.getLast? = some (.linux (.legacy k) a)
    · obtain ⟨a, ha⟩ := hlast
      exact ⟨_, afterLast?_of_getLast? ha⟩
    · obtain ⟨r, hr, -⟩ := exists_afterLast?_of_getLast?_ne h.1 fun a ha => hlast ⟨a, ha⟩
      exact ⟨r, hr⟩
  refine ⟨r, hr, ?_⟩
  rw [isManylinuxCompatible, htarget, find?_alias_eq_some h]
  simp [hr]

theorem isManylinuxCompatible_of_not_linux (h : ∀ tag ∈ tags, ¬ tag.IsLinux) :
    isManylinuxCompatible (platformText tags) targetText = some (false, none) := by
  have hnone (k : LegacyAlias) : ¬ HasAlias tags k := by
    rintro ⟨a, ha⟩
    exact h _ ha ⟨_, _, rfl⟩
  rw [isManylinuxCompatible, htarget, find?_alias_eq_none hnone, search_reManylinux_eq_none h]
  rfl

theorem isManylinuxCompatible_of_first {before after : List PlatformTag} {major minor : Number}
    {a : Arch} (hnone : ∀ k, ¬ HasAlias tags k)
    (hsplit : tags = before ++ .linux (.numbers major minor) a :: after)
    (hbefore : ∀ tag ∈ before, ¬ tag.IsLinux) :
    isManylinuxCompatible (platformText tags) targetText =
      some (versionLe (Glibc.numbers major minor).version target, some a.text) := by
  obtain ⟨rest, htext, hrest⟩ :=
    exists_platformText_cons_eq (.linux (.numbers major minor) a) after
  obtain ⟨m, hm, hmajor, hminor, harch⟩ := exists_search_reManylinux hrest
  rw [isManylinuxCompatible, htarget, find?_alias_eq_none hnone, hsplit,
    search_reManylinux_append hbefore, htext, hm]
  simp [hmajor, hminor, harch, int?_number, Glibc.version]

end Compatible

/-- What the code makes of a set of tags. -/
theorem exists_isManylinuxCompatible_eq {targetText : Text} {target : ℤ × ℤ}
    (htarget : targetVersion targetText = some target) (tags : List PlatformTag) :
    ∃ compatible arch, isManylinuxCompatible (platformText tags) targetText =
        some (compatible, arch) ∧
      ∀ a : Arch, compatible = true ∧ arch = some a.text ↔ ReadAs target tags a := by
  by_cases halias : ∃ k, HasAlias tags k
  · obtain ⟨k, hk⟩ := exists_oldestAlias halias
    obtain ⟨r, hr, hcompatible⟩ := isManylinuxCompatible_of_alias htarget hk
    refine ⟨_, _, hcompatible, fun b => ?_⟩
    have hread : ReadAs target tags b ↔ tags.getLast? = some (.linux (.legacy k) b) ∧
        versionLe k.version target = true := by
      constructor
      · rintro (⟨j, hj, hlast, hle⟩ | ⟨before, after, g, hnone, -, -, -⟩)
        · obtain rfl := hk.unique hj
          exact ⟨hlast, hle⟩
        · exact absurd hk.1 (hnone k)
      · exact fun h => .last k hk h.1 h.2
    rw [hread, and_comm]
    refine and_congr_left fun _ => ?_
    by_cases hlast : ∃ a, tags.getLast? = some (.linux (.legacy k) a)
    · obtain ⟨a, ha⟩ := hlast
      obtain rfl := Option.some.inj (hr.symm.trans (afterLast?_of_getLast? ha))
      rw [ha, dropWhile_arch, if_neg a.ne_nil]
      constructor
      · intro h
        rw [Arch.eq_of_text_eq (Option.some.inj h)]
      · rintro ⟨⟩
        rfl
    · obtain ⟨r', hr', hdot⟩ := exists_afterLast?_of_getLast?_ne hk.1 fun a ha => hlast ⟨a, ha⟩
      obtain rfl := Option.some.inj (hr.symm.trans hr')
      refine iff_of_false (fun h => ?_) fun h => hlast ⟨b, h⟩
      have hdrop : '.' ∈ r.dropWhile (· = '_') := by
        rw [← List.takeWhile_append_dropWhile (p := (· = '_')) (l := r)] at hdot
        refine (List.mem_append.mp hdot).resolve_left fun h => ?_
        exact absurd (List.mem_takeWhile_imp h) (by decide)
      split at h
      · cases h
      · rw [Option.some.inj h] at hdrop
        exact not_mem_of_word b.word (by decide) hdrop
  · have hnone (k : LegacyAlias) : ¬ HasAlias tags k := fun h => halias ⟨k, h⟩
    by_cases hlinux : ∃ tag ∈ tags, tag.IsLinux
    · obtain ⟨before, g, a, after, hsplit, hbefore⟩ := exists_first_linux hlinux
      rcases g with ⟨major, minor⟩ | k
      · refine ⟨_, _, isManylinuxCompatible_of_first htarget hnone hsplit hbefore, fun b => ?_⟩
        constructor
        · rintro ⟨hle, harch⟩
          rw [Arch.eq_of_text_eq (Option.some.inj harch)] at hsplit
          exact .first before after _ hnone hsplit hbefore hle
        · rintro (⟨k, hk, -, -⟩ | ⟨before', after', g, -, hsplit', hbefore', hle⟩)
          · exact absurd hk.1 (hnone k)
          · have hfirst := first_unique (hsplit.symm.trans hsplit') hbefore hbefore' ⟨_, _, rfl⟩
              ⟨_, _, rfl⟩
            obtain ⟨rfl, rfl⟩ := PlatformTag.linux.inj hfirst
            exact ⟨hle, rfl⟩
      · exact absurd ⟨a, by rw [hsplit]; simp⟩ (hnone k)
    · have hother : ∀ tag ∈ tags, ¬ tag.IsLinux := fun tag htag h => hlinux ⟨tag, htag, h⟩
      refine ⟨_, _, isManylinuxCompatible_of_not_linux htarget hother, fun b => ?_⟩
      refine iff_of_false (fun h => by cases h.1) ?_
      rintro (⟨k, hk, -, -⟩ | ⟨before, after, g, -, rfl, -, -⟩)
      · exact hnone k hk.1
      · exact hother _ (by simp) ⟨g, b, rfl⟩

end WantsCollector

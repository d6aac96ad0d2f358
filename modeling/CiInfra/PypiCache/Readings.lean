import Mathlib.Data.List.Chain
import CiInfra.Lib.Separators
import CiInfra.PypiCache.WantsCollector

/-!
# How the name of a file can be read

The pattern for downloads splits the name of a file into a name, a version of a form that it knows,
and a rest in which an archive's suffix occurs. There can be several such readings. The pattern
takes the one with the longest name, and of these the one with the longest version.
-/

namespace WantsCollector

open Regex Separators

/-- Numbers that are separated by dots, and after them words that numbers can follow. -/
def plainVersions : Language Char :=
  nonemptyRuns Char.isDigit * (KStar.kstar ({['.']} * nonemptyRuns Char.isDigit) *
    KStar.kstar ({['.']} * (texts suffixWords * runs Char.isDigit)))

theorem hasLanguage_versionPattern : HasLanguage versionPattern plainVersions := by
  have hdot {l : Language Char} : [] ∉ ({['.']} * l : Language Char) := by
    rw [Language.mem_mul]
    rintro ⟨_, rfl, s, -, h⟩
    cases h
  exact (hasLanguage_plus_char _).seq
    ((((hasLanguage_lit _).seq (hasLanguage_plus_char _)).star hdot).seq
      (((hasLanguage_lit _).seq ((hasLanguage_words _).seq (hasLanguage_star_char _))).star hdot))

/-- A number, and then parts that begin with a dot. -/
theorem exists_parts_of_mem_plainVersions {v : Text} (hv : v ∈ plainVersions) :
    ∃ number ∈ nonemptyRuns Char.isDigit, ∃ parts : List Text, v = number ++ parts.flatten ∧
      ∀ part ∈ parts, ∃ word ∈ [] :: suffixWords, ∃ run ∈ runs Char.isDigit,
        part = '.' :: (word ++ run) := by
  obtain ⟨number, hnumber, _, ⟨_, hnumbers, _, hwords, rfl⟩, rfl⟩ := hv
  obtain ⟨xs, rfl, hxs⟩ := Language.mem_kstar.mp hnumbers
  obtain ⟨ys, rfl, hys⟩ := Language.mem_kstar.mp hwords
  refine ⟨number, hnumber, xs ++ ys, by simp, fun part hpart => ?_⟩
  rcases List.mem_append.mp hpart with hpart | hpart
  · obtain ⟨_, rfl, run, ⟨-, hrun⟩, rfl⟩ := hxs part hpart
    exact ⟨[], List.mem_cons_self, run, hrun, rfl⟩
  · obtain ⟨_, rfl, _, ⟨word, hword, run, hrun, rfl⟩, rfl⟩ := hys part hpart
    exact ⟨word, List.mem_cons_of_mem _ hword, run, hrun, rfl⟩

theorem isAlphanum_of_mem_suffixWords : ∀ word ∈ suffixWords, ∀ c ∈ word,
    c.isAlphanum = true ∧ c.isDigit = false := by
  decide

/-- A version consists of letters, digits and dots. -/
theorem isAlphanum_or_eq_dot_of_mem {v : Text} (hv : v ∈ plainVersions) {c : Char} (hc : c ∈ v) :
    c.isAlphanum = true ∨ c = '.' := by
  have hdigit {c : Char} (h : c.isDigit = true) : c.isAlphanum = true := by
    simp [Char.isAlphanum, h]
  obtain ⟨number, ⟨-, hnumber⟩, parts, rfl, hparts⟩ := exists_parts_of_mem_plainVersions hv
  rcases List.mem_append.mp hc with hc | hc
  · exact Or.inl (hdigit (hnumber c hc))
  obtain ⟨part, hpart, hc⟩ := List.mem_flatten.mp hc
  obtain ⟨word, hword, run, hrun, rfl⟩ := hparts part hpart
  rcases List.mem_cons.mp hc with rfl | hc
  · exact Or.inr rfl
  rcases List.mem_append.mp hc with hc | hc
  · rcases List.mem_cons.mp hword with rfl | hword
    · cases hc
    · exact Or.inl (isAlphanum_of_mem_suffixWords word hword c hc).1
  · exact Or.inl (hdigit (hrun c hc))

/-- A digit is followed by a digit or by a dot. -/
def DigitsEnd (s : Text) : Prop :=
  s.IsChain fun c d => c.isDigit = true → d.isDigit = true ∨ d = '.'

theorem digitsEnd_of_mem_runs {s : Text} (hs : s ∈ runs Char.isDigit) : DigitsEnd s := by
  refine List.isChain_iff_forall_rel_of_append_cons_cons.mpr fun {c d l₁ l₂} h _ => Or.inl ?_
  exact hs d (by rw [h]; simp)

theorem DigitsEnd.append {s t : Text} (hs : DigitsEnd s) (ht : DigitsEnd t)
    (hdot : ∀ c ∈ t.head?, c = '.') : DigitsEnd (s ++ t) :=
  List.IsChain.append hs ht fun _ _ d hd _ => Or.inr (hdot d hd)

/-- Within a version a digit is followed by a digit or by a dot. -/
theorem digitsEnd_of_mem_plainVersions {v : Text} (hv : v ∈ plainVersions) : DigitsEnd v := by
  obtain ⟨number, ⟨-, hnumber⟩, parts, rfl, hparts⟩ := exists_parts_of_mem_plainVersions hv
  have hflatten : DigitsEnd parts.flatten ∧ ∀ c ∈ parts.flatten.head?, c = '.' := by
    clear hv
    induction parts with
    | nil => exact ⟨List.isChain_nil, fun c hc => by cases hc⟩
    | cons part parts ih =>
      obtain ⟨ih, hdot⟩ := ih fun p hp => hparts p (List.mem_cons_of_mem _ hp)
      obtain ⟨word, hword, run, hrun, rfl⟩ := hparts part List.mem_cons_self
      have hpart : DigitsEnd ('.' :: (word ++ run)) := by
        have hletters : ∀ c ∈ '.' :: word, c.isDigit = false := by
          rcases List.mem_cons.mp hword with rfl | hword
          · decide
          · exact List.forall_mem_cons.mpr
              ⟨by decide, fun c hc => (isAlphanum_of_mem_suffixWords word hword c hc).2⟩
        have hword : DigitsEnd ('.' :: word) := by
          refine List.isChain_iff_forall_rel_of_append_cons_cons.mpr fun {c d l₁ l₂} h hc => ?_
          rw [hletters c (by rw [h]; simp)] at hc
          cases hc
        refine List.IsChain.append hword (digitsEnd_of_mem_runs hrun) fun c hc d _ hdigit => ?_
        rw [hletters c (List.mem_of_getLast? hc)] at hdigit
        cases hdigit
      exact ⟨hpart.append ih hdot, fun c hc => (Option.some.inj hc).symm⟩
  exact (digitsEnd_of_mem_runs hnumber).append hflatten.1 hflatten.2

/-- A hyphen or a dot, and later in the same part of a path the suffix of an archive. -/
def ArchiveFollows (s : Text) : Prop :=
  ∃ c mid suffix rest, s = c :: (mid ++ '.' :: (suffix ++ rest)) ∧ (c = '-' ∨ c = '.') ∧
    '/' ∉ mid ∧ suffix ∈ archiveSuffixes

theorem archivePattern_ways_ne_nil_iff {w : Way} :
    archivePattern.ways w ≠ [] ↔ ArchiveFollows w.rest := by
  have hlanguage : HasLanguage archivePattern _ :=
    (hasLanguage_plus_char _).seq ((hasLanguage_star_char _).seq
      ((hasLanguage_lit _).seq (hasLanguage_words _)))
  rw [hlanguage.ways_ne_nil_iff]
  simp only [Language.mem_mul]
  constructor
  · rintro ⟨_, ⟨sep, ⟨hne, hsep⟩, _, ⟨mid, hmid, _, ⟨_, rfl, suffix, hsuffix, rfl⟩, rfl⟩, rfl⟩,
      rest, hrest⟩
    obtain ⟨c, sep, rfl⟩ := List.exists_cons_of_ne_nil hne
    obtain ⟨hc, hsep⟩ := List.forall_mem_cons.mp hsep
    refine ⟨c, sep ++ mid, suffix, rest, by simp [← hrest], by simpa using hc, ?_, hsuffix⟩
    rw [List.mem_append, not_or]
    constructor
    · intro h
      have hslash := hsep _ h
      simp at hslash
    · intro h
      have hslash := hmid _ h
      simp at hslash
  · rintro ⟨c, mid, suffix, rest, hrest, hc, hmid, hsuffix⟩
    refine ⟨_, ⟨[c], ⟨List.cons_ne_nil _ _, ?_⟩, _, ⟨mid, ?_, _,
      ⟨_, rfl, suffix, hsuffix, rfl⟩, rfl⟩, rfl⟩, rest, by simp [hrest]⟩
    · simpa using hc
    · intro c hc
      exact decide_eq_true fun h => hmid (h ▸ hc)

/-- The text begins with a name, a hyphen and a version, and then the suffix of an archive
follows. -/
structure Reads (t name version : Text) : Prop where
  name_ne_nil : name ≠ []
  isNameChar : ∀ c ∈ name, isNameChar c = true
  version_mem : version ∈ plainVersions
  split : ∃ rest, t = name ++ '-' :: (version ++ rest) ∧ ArchiveFollows rest

/-- The reading with the longest name, and of these the one with the longest version. -/
structure Preferred (t name version : Text) : Prop where
  reads : Reads t name version
  name_longest : ∀ {name' version'}, Reads t name' version' → name'.length ≤ name.length
  version_longest : ∀ {version'}, Reads t name version' → version'.length ≤ version.length

theorem Preferred.congr {s t name version : Text} (h : ∀ {name version}, Reads s name version ↔
    Reads t name version) (hs : Preferred s name version) : Preferred t name version :=
  ⟨h.mp hs.reads, fun hreads => hs.name_longest (h.mpr hreads),
    fun hreads => hs.version_longest (h.mpr hreads)⟩

theorem Preferred.unique {t name version name' version' : Text} (h : Preferred t name version)
    (h' : Preferred t name' version') : name = name' ∧ version = version' := by
  obtain ⟨rest, htext, -⟩ := h.reads.split
  obtain ⟨rest', htext', -⟩ := h'.reads.split
  obtain ⟨rfl, htail⟩ := List.append_inj (htext.symm.trans htext')
    (Nat.le_antisymm (h'.name_longest h.reads) (h.name_longest h'.reads))
  exact ⟨rfl, (List.append_inj (List.cons.inj htail).2
    (Nat.le_antisymm (h'.version_longest h.reads) (h.version_longest h'.reads))).1⟩

/-! ### The order of the versions -/

/-- A digit is left. -/
def DigitFollows (s : Text) : Prop := ∃ c ∈ s.head?, c.isDigit = true

instance (s : Text) : Decidable (DigitFollows s) :=
  decidable_of_iff (s.head?.any Char.isDigit = true) (Option.any_eq_true _ _)

theorem ArchiveFollows.not_digitFollows {s : Text} (h : ArchiveFollows s) : ¬ DigitFollows s := by
  obtain ⟨c, mid, suffix, rest, rfl, hc, -⟩ := h
  rintro ⟨d, hd, hdigit⟩
  obtain rfl := Option.some.inj hd
  rcases hc with rfl | rfl <;> exact absurd hdigit (by decide)

/-- What begins with a dot does not match where a digit is left. -/
theorem ways_seq_dot_of_digitFollows {r : Regex} {w : Way} (h : DigitFollows w.rest) :
    (seq (lit '.') r).ways w = [] := by
  rw [List.eq_nil_iff_forall_not_mem]
  intro v hv
  obtain ⟨u, hu, -⟩ := mem_ways_seq.mp hv
  obtain ⟨hrest, -⟩ := mem_ways_lit.mp hu
  obtain ⟨c, hc, hdigit⟩ := h
  rw [hrest] at hc
  obtain rfl := Option.some.inj hc
  exact absurd hdigit (by decide)

/-- Of what begins with a dot and ends with digits, all ways but the first leave a digit. -/
theorem pairwise_ways_seq_dot {r : Regex}
    (h : ∀ w, (r.ways w).Pairwise fun _ u => DigitFollows u.rest) (w : Way) :
    ((seq (lit '.') r).ways w).Pairwise fun _ u => DigitFollows u.rest :=
  pairwise_ways_seq (S := fun _ _ => False) (pairwise_ways_char _ w) (fun u _ => h u)
    fun _ _ h => h.elim

/-- After a dot a number or a word follows, not both. -/
theorem ways_dot_word_of_dot_number {w : Way}
    (h : (seq (lit '.') (plus (char Char.isDigit))).ways w ≠ []) :
    (seq (lit '.') (seq (words suffixWords) (star (char Char.isDigit)))).ways w = [] := by
  rw [((hasLanguage_lit _).seq (hasLanguage_plus_char _)).ways_ne_nil_iff] at h
  by_contra hne
  rw [← ne_eq, ((hasLanguage_lit _).seq
    ((hasLanguage_words _).seq (hasLanguage_star_char _))).ways_ne_nil_iff] at hne
  obtain ⟨_, ⟨_, rfl, number, ⟨hnumber, hdigits⟩, rfl⟩, rest, hrest⟩ := h
  obtain ⟨_, ⟨_, rfl, _, ⟨word, hword, run, -, rfl⟩, rfl⟩, rest', hrest'⟩ := hne
  obtain ⟨d, number, rfl⟩ := List.exists_cons_of_ne_nil hnumber
  have heq : d :: (number ++ rest) = word ++ (run ++ rest') := by
    simpa using hrest.trans hrest'.symm
  have hd : d.isDigit = true := (List.forall_mem_cons.mp hdigits).1
  have hhead : word.head? = some d := by
    have hempty : [] ∉ suffixWords := by decide
    have hne : word ≠ [] := fun h => hempty (h ▸ hword)
    rw [← List.head?_append_of_ne_nil _ hne, ← heq]
    rfl
  have hletters : ∀ s ∈ suffixWords, s.head?.any Char.isDigit = false := by decide
  have hletter := hletters word hword
  rw [hhead, Option.any_some, hd] at hletter
  cases hletter

/-- Of the versions with which a text begins, those that are not cut off within a number come with
the longest first. -/
theorem pairwise_ways_versionPattern (w : Way) :
    (versionPattern.ways w).Pairwise fun v u =>
      DigitFollows u.rest ∨ v.rest.length ≤ u.rest.length := by
  have hword : ∀ w, ((seq (words suffixWords) (star (char Char.isDigit))).ways w).Pairwise
      fun _ u => DigitFollows u.rest := fun w =>
    pairwise_ways_seq (pairwise_ways_words (by decide) (by decide) w)
      (fun u _ => pairwise_ways_star_char _ u) fun _ _ h => h.elim
  have hwords := pairwise_ways_star (pairwise_ways_seq_dot hword) fun _ =>
    ways_seq_dot_of_digitFollows
  have hnumbers := pairwise_ways_star (pairwise_ways_seq_dot (pairwise_ways_plus_char _)) fun _ =>
    ways_seq_dot_of_digitFollows
  have hstuck {w u : Way} (hw : DigitFollows w.rest) (hu : u ∈ (seq (star (seq (lit '.')
      (plus (char Char.isDigit)))) (star (seq (lit '.') (seq (words suffixWords)
        (star (char Char.isDigit)))))).ways w) : u = w := by
    rw [ways, ways_star_of_ways_eq_nil (ways_seq_dot_of_digitFollows hw), List.flatMap_singleton,
      ways_star_of_ways_eq_nil (ways_seq_dot_of_digitFollows hw)] at hu
    exact List.mem_singleton.mp hu
  refine pairwise_ways_seq (pairwise_ways_plus_char _ w) (fun u _ => ?_) fun u v hv x _ y hy => ?_
  · refine pairwise_ways_seq (hnumbers u) (fun v _ => (hwords v).imp fun h => h.imp_right And.right)
      fun v v' hv' x hx y hy => ?_
    rcases hv' with hdigit | ⟨hnumber, hlength⟩
    · rw [ways_star_of_ways_eq_nil (ways_seq_dot_of_digitFollows hdigit),
        List.mem_singleton] at hy
      exact Or.inl (hy ▸ hdigit)
    · rw [ways_star_of_ways_eq_nil (ways_dot_word_of_dot_number hnumber),
        List.mem_singleton] at hy
      exact Or.inr (hy ▸ (rest_suffix hx).length_le.trans hlength)
  · exact Or.inl (hstuck hv hy ▸ hv)

/-! ### Matches -/

/-- The first group captures a name. -/
theorem mem_ways_namePattern {v w : Way} :
    v ∈ (group 1 (plus (char isNameChar))).ways w ↔
      ∃ name ∈ nonemptyRuns isNameChar, w.rest = name ++ v.rest ∧
        v.captures = (1, name) :: w.captures :=
  (hasLanguage_plus_char _).mem_ways_group

/-- With a name and a version that have been captured, the rest of the pattern matches when the
suffix of an archive follows. -/
theorem mem_ways_version_archive {v w : Way} :
    v ∈ (seq (lit '-') (seq (group 2 versionPattern) archivePattern)).ways w ↔
      ∃ version ∈ plainVersions, ∃ rest, w.rest = '-' :: (version ++ rest) ∧
        v ∈ archivePattern.ways ⟨(2, version) :: w.captures, rest⟩ := by
  rw [mem_ways_seq]
  simp only [mem_ways_lit, mem_ways_seq, hasLanguage_versionPattern.mem_ways_group]
  constructor
  · rintro ⟨u, ⟨hu, hcaptures⟩, x, ⟨version, hversion, hx, hcaptures'⟩, hv⟩
    refine ⟨version, hversion, x.rest, by rw [hu, hx], ?_⟩
    rwa [← hcaptures, ← hcaptures']
  · rintro ⟨version, hversion, rest, hrest, hv⟩
    exact ⟨⟨w.captures, version ++ rest⟩, ⟨hrest, rfl⟩, _, ⟨version, hversion, rfl, rfl⟩, hv⟩

theorem archivePattern_captures {v w : Way} (h : v ∈ archivePattern.ways w) :
    v.captures = w.captures := by
  have hlanguage : HasLanguage archivePattern _ :=
    (hasLanguage_plus_char _).seq ((hasLanguage_star_char _).seq
      ((hasLanguage_lit _).seq (hasLanguage_words _)))
  obtain ⟨_, _, _, hcaptures⟩ := (hlanguage w v).mp h
  exact hcaptures

/-- The pattern matches the beginning of a text when the text has a reading. -/
theorem filePattern_ways_ne_nil_iff {t : Text} {captures : List (ℕ × Text)} :
    filePattern.ways ⟨captures, t⟩ ≠ [] ↔ ∃ name version, Reads t name version := by
  constructor
  · intro hne
    obtain ⟨v, hv⟩ := List.exists_mem_of_ne_nil _ hne
    obtain ⟨u, hu, hv⟩ := mem_ways_seq.mp hv
    obtain ⟨name, ⟨hne, hchars⟩, hrest, -⟩ := mem_ways_namePattern.mp hu
    obtain ⟨version, hversion, rest, hrest', hv⟩ := mem_ways_version_archive.mp hv
    exact ⟨name, version, hne, hchars, hversion, rest, hrest.trans (congrArg (name ++ ·) hrest'),
      archivePattern_ways_ne_nil_iff.mp (List.ne_nil_of_mem hv)⟩
  · rintro ⟨name, version, hne, hchars, hversion, rest, rfl, harchive⟩
    obtain ⟨v, hv⟩ := List.exists_mem_of_ne_nil _
      ((archivePattern_ways_ne_nil_iff (w := ⟨(2, version) :: (1, name) :: captures, rest⟩)).mpr
        harchive)
    exact List.ne_nil_of_mem (mem_ways_seq.mpr ⟨⟨(1, name) :: captures, '-' :: (version ++ rest)⟩,
      mem_ways_namePattern.mpr ⟨name, ⟨hne, hchars⟩, rfl, rfl⟩,
      mem_ways_version_archive.mpr ⟨version, hversion, rest, rfl, hv⟩⟩)

/-- And then it captures the preferred reading. -/
theorem preferred_of_head?_ways {t : Text} {captures : List (ℕ × Text)} {m : Way}
    (h : (filePattern.ways ⟨captures, t⟩).head? = some m) :
    Preferred t (m.capture 1) (m.capture 2) := by
  obtain ⟨u, hu, hhead, hlongest⟩ := exists_of_head?_ways_seq
    ((pairwise_ways_group (R := fun v u => v.length < u.length)).mpr
      (greedy_ways_plus_char isNameChar _)) h
  obtain ⟨name, ⟨hne, hchars⟩, hrest, hcaptures⟩ := mem_ways_namePattern.mp hu
  obtain ⟨x, hx, hhead, -⟩ := exists_of_head?_ways_seq (pairwise_ways_char _ u) hhead
  obtain ⟨hx, hxcaptures⟩ := mem_ways_lit.mp hx
  obtain ⟨y, hy, hhead, hversions⟩ := exists_of_head?_ways_seq
    ((pairwise_ways_group (R := fun v u => DigitFollows u ∨ v.length ≤ u.length)).mpr
      (pairwise_ways_versionPattern x)) hhead
  obtain ⟨version, hversion, hy, hycaptures⟩ := hasLanguage_versionPattern.mem_ways_group.mp hy
  have harchive := archivePattern_ways_ne_nil_iff.mp (List.ne_nil_of_mem (List.mem_of_head? hhead))
  have hm : m.captures = (2, version) :: (1, name) :: captures := by
    rw [archivePattern_captures (List.mem_of_head? hhead), hycaptures, hxcaptures, hcaptures]
  have hname : m.capture 1 = name := by simp [Way.capture, hm]
  have hversion' : m.capture 2 = version := by simp [Way.capture, hm]
  have ht : t = name ++ '-' :: (version ++ y.rest) := by
    rw [← hy, ← hx]
    exact hrest
  rw [hname, hversion']
  refine ⟨⟨hne, hchars, hversion, y.rest, ht, harchive⟩, fun {name' version'} hreads => ?_,
    fun {version'} hreads => ?_⟩
  · obtain ⟨hne', hchars', hversion', rest', ht', harchive'⟩ := hreads
    have hu' : (⟨(1, name') :: captures, '-' :: (version' ++ rest')⟩ : Way) ∈
        (group 1 (plus (char isNameChar))).ways ⟨captures, t⟩ :=
      mem_ways_namePattern.mpr ⟨name', ⟨hne', hchars'⟩, ht', rfl⟩
    obtain ⟨v, hv⟩ := List.exists_mem_of_ne_nil _
      ((archivePattern_ways_ne_nil_iff (w := ⟨(2, version') :: (1, name') :: captures,
        rest'⟩)).mpr harchive')
    have hlength := congrArg List.length (hrest.symm.trans ht')
    rcases hlongest _ hu' (List.ne_nil_of_mem (mem_ways_version_archive.mpr
        ⟨version', hversion', rest', rfl, hv⟩)) with heq | hlt
    · simp only [List.length_append, ← heq] at hlength
      omega
    · simp only [List.length_append] at hlength hlt
      omega
  · obtain ⟨-, -, hversion', rest', ht', harchive'⟩ := hreads
    have hrest' : version ++ y.rest = version' ++ rest' :=
      List.cons.inj (List.append_cancel_left (ht.symm.trans ht')) |>.2
    have hy' : (⟨(2, version') :: x.captures, rest'⟩ : Way) ∈
        (group 2 versionPattern).ways x :=
      hasLanguage_versionPattern.mem_ways_group.mpr ⟨version', hversion', hy.trans hrest', rfl⟩
    have hlength := congrArg List.length hrest'
    simp only [List.length_append] at hlength
    rcases hversions _ hy' (archivePattern_ways_ne_nil_iff.mpr harchive') with heq | hdigit | hle
    · simp only [← heq] at hlength
      omega
    · exact absurd hdigit harchive'.not_digitFollows
    · simp only at hle
      omega

/-! ### What a reading needs -/

/-- What a reading needs of the text: all of it up to the end of an archive's suffix. -/
theorem reads_iff_exists_isPrefix {t name version : Text} :
    Reads t name version ↔ name ≠ [] ∧ (∀ c ∈ name, isNameChar c = true) ∧
      version ∈ plainVersions ∧ ∃ c mid suffix, (c = '-' ∨ c = '.') ∧ '/' ∉ mid ∧
        suffix ∈ archiveSuffixes ∧
          name ++ '-' :: (version ++ c :: (mid ++ '.' :: suffix)) <+: t := by
  constructor
  · rintro ⟨hne, hchars, hversion, _, rfl, c, mid, suffix, rest, rfl, hc, hmid, hsuffix⟩
    exact ⟨hne, hchars, hversion, c, mid, suffix, hc, hmid, hsuffix, rest, by simp⟩
  · rintro ⟨hne, hchars, hversion, c, mid, suffix, hc, hmid, hsuffix, rest, rfl⟩
    exact ⟨hne, hchars, hversion, c :: (mid ++ '.' :: (suffix ++ rest)), by simp,
      c, mid, suffix, rest, rfl, hc, hmid, hsuffix⟩

/-- A reading stays within a part of a path. -/
theorem reads_append_slash_iff {s x name version : Text} :
    Reads (s ++ '/' :: x) name version ↔ Reads s name version := by
  rw [reads_iff_exists_isPrefix, reads_iff_exists_isPrefix]
  refine and_congr_right fun _ => and_congr_right fun hchars => and_congr_right fun hversion =>
    exists_congr fun c => exists_congr fun mid => exists_congr fun suffix =>
    and_congr_right fun hc => and_congr_right fun hmid => and_congr_right fun hsuffix => ?_
  constructor
  · intro h
    refine prefix_of_not_mem h ?_
    have hname : '/' ∉ name := fun h => absurd (hchars _ h) (by decide)
    have hversion' : '/' ∉ version := fun h =>
      absurd (isAlphanum_or_eq_dot_of_mem hversion h) (by decide)
    have hsuffixes : ∀ suffix ∈ archiveSuffixes, '/' ∉ suffix := by decide
    have hc' : '/' ≠ c := by
      rintro rfl
      exact absurd hc (by decide)
    simp [hname, hversion', hc', hmid, hsuffixes suffix hsuffix]
  · exact fun h => h.trans (List.prefix_append _ _)

/-- A reading ends with the suffix of an archive. -/
theorem reads_concat_iff {s name version : Text} {c : Char}
    (hc : ∀ suffix ∈ archiveSuffixes, suffix.getLast? ≠ some c) :
    Reads (s ++ [c]) name version ↔ Reads s name version := by
  rw [reads_iff_exists_isPrefix, reads_iff_exists_isPrefix]
  refine and_congr_right fun _ => and_congr_right fun _ => and_congr_right fun _ =>
    exists_congr fun d => exists_congr fun mid => exists_congr fun suffix =>
    and_congr_right fun _ => and_congr_right fun _ => and_congr_right fun hsuffix => ?_
  rw [List.prefix_concat_iff, or_iff_right]
  intro heq
  have hne : suffix ≠ [] := by
    rintro rfl
    exact absurd hsuffix (by decide)
  refine hc suffix hsuffix ?_
  have hlast := congrArg List.getLast? heq
  rwa [List.getLast?_concat, show name ++ '-' :: (version ++ d :: (mid ++ '.' :: suffix)) =
    (name ++ '-' :: (version ++ d :: (mid ++ ['.']))) ++ suffix by simp,
    List.getLast?_append_of_ne_nil _ hne] at hlast

/-! ### Parts of a path -/

/-- The text begins at a slash of a request, which is not its first character. -/
structure IsPart (request t : Text) : Prop where
  split : ∃ before, request = before ++ '/' :: t ∧ before ≠ [] ∧
    ∀ c ∈ before, isSpace c = false

section Lines

variable {line before request : Text} (hline : line = before ++ ("GET /".toList ++ request))
  (honce : ∀ u v, line = u ++ v → "GET /".toList <+: v → u = before)
include hline honce

theorem search_reDownload :
    reDownload.search line =
      (seq (plus (char fun c => !isSpace c)) (seq (lit '/') filePattern)).matchStart request := by
  subst hline
  rw [reDownload, search_seq_text honce, matchStart_seq_text]

/-- The pattern for downloads matches when some part of the request has a reading. -/
theorem search_reDownload_eq_none_iff :
    reDownload.search line = none ↔
      ∀ t, IsPart request t → ∀ name version, ¬ Reads t name version := by
  rw [search_reDownload hline honce, matchStart, List.head?_eq_none_iff,
    List.eq_nil_iff_forall_not_mem]
  constructor
  · rintro hnone t ⟨before, rfl, hne, hspace⟩ name version hreads
    obtain ⟨v, hv⟩ := List.exists_mem_of_ne_nil _
      ((@filePattern_ways_ne_nil_iff _ []).mpr ⟨name, version, hreads⟩)
    refine hnone v (mem_ways_seq.mpr ⟨⟨[], '/' :: t⟩, mem_ways_plus_char.mpr
      ⟨before, rfl, hne, fun c hc => ?_, rfl⟩, mem_ways_seq.mpr ⟨⟨[], t⟩,
        mem_ways_lit.mpr ⟨rfl, rfl⟩, hv⟩⟩)
    rw [hspace c hc]
    rfl
  · intro hnone v hv
    obtain ⟨u, hu, hv⟩ := mem_ways_seq.mp hv
    obtain ⟨before, hrest, hne, hspace, hcaptures⟩ := mem_ways_plus_char.mp hu
    obtain ⟨x, hx, hv⟩ := mem_ways_seq.mp hv
    obtain ⟨hx, hxcaptures⟩ := mem_ways_lit.mp hx
    obtain ⟨name, version, hreads⟩ := filePattern_ways_ne_nil_iff.mp (List.ne_nil_of_mem hv)
    refine hnone x.rest ⟨before, hrest.trans (congrArg (before ++ ·) hx), hne, fun c hc => ?_⟩
      name version hreads
    simpa using hspace c hc

/-- And then it takes the last such part. -/
theorem exists_preferred_of_search_reDownload {m : Way} (h : reDownload.search line = some m) :
    ∃ t, IsPart request t ∧ Preferred t (m.capture 1) (m.capture 2) ∧
      ∀ t', IsPart request t' → (∃ name version, Reads t' name version) →
        t.length ≤ t'.length := by
  rw [search_reDownload hline honce] at h
  obtain ⟨u, hu, hhead, hlongest⟩ := exists_of_head?_ways_seq (greedy_ways_plus_char _ _) h
  obtain ⟨before, hrest, hne, hspace, hcaptures⟩ := mem_ways_plus_char.mp hu
  obtain ⟨x, hx, hhead, -⟩ := exists_of_head?_ways_seq (pairwise_ways_char _ u) hhead
  obtain ⟨hx, -⟩ := mem_ways_lit.mp hx
  refine ⟨x.rest, ⟨before, hrest.trans (congrArg (before ++ ·) hx), hne, fun c hc => ?_⟩,
    preferred_of_head?_ways hhead, ?_⟩
  · simpa using hspace c hc
  · rintro t' ⟨before', hsplit, hne', hspace'⟩ hreads
    obtain ⟨v, hv⟩ := List.exists_mem_of_ne_nil _
      ((@filePattern_ways_ne_nil_iff _ []).mpr hreads)
    have hu' : (⟨[], '/' :: t'⟩ : Way) ∈ (plus (char fun c => !isSpace c)).ways ⟨[], request⟩ := by
      refine mem_ways_plus_char.mpr ⟨before', hsplit, hne', fun c hc => ?_, rfl⟩
      rw [hspace' c hc]
      rfl
    have hlength := congrArg List.length hx
    rcases hlongest _ hu' (List.ne_nil_of_mem (mem_ways_seq.mpr ⟨⟨[], t'⟩,
        mem_ways_lit.mpr ⟨rfl, rfl⟩, hv⟩)) with rfl | hlt
    · simp only [List.length_cons] at hlength
      omega
    · simp only [List.length_cons] at hlength hlt
      omega

/-- The pattern for queries matches where a name follows. -/
theorem search_reSimple_eq_none_iff :
    reSimple.search line = none ↔
      ¬ ∃ name rest, request = "simple/".toList ++ (name ++ '/' :: rest) ∧ name ≠ [] ∧
        '/' ∉ name := by
  have honce' (u v : Text) (huv : before ++ ("GET /".toList ++ request) = u ++ v)
      (hlit : "GET /simple/".toList <+: v) : u = before := by
    have hpre : "GET /".toList <+: "GET /simple/".toList := ⟨"simple/".toList, rfl⟩
    exact honce u v (hline.trans huv) (hpre.trans hlit)
  have hlit (q : Text) : "GET /".toList ++ ("simple/".toList ++ q) = "GET /simple/".toList ++ q :=
    rfl
  rw [hline, reSimple, search_seq_text honce', iff_not_comm]
  constructor
  · rintro ⟨name, rest, rfl, hne, hslash⟩
    rw [hlit, matchStart_seq_text, matchStart, List.head?_eq_none_iff]
    have hname : (⟨[(1, name)], '/' :: rest⟩ : Way) ∈
        (group 1 (plus (char (· ≠ '/')))).ways ⟨[], name ++ '/' :: rest⟩ :=
      (hasLanguage_plus_char _).mem_ways_group.mpr
        ⟨name, ⟨hne, fun c hc => decide_eq_true fun h => hslash (h ▸ hc)⟩, rfl, rfl⟩
    have hslash' : (⟨[(1, name)], rest⟩ : Way) ∈ (lit '/').ways ⟨[(1, name)], '/' :: rest⟩ :=
      mem_ways_lit.mpr ⟨rfl, rfl⟩
    exact List.ne_nil_of_mem (mem_ways_seq.mpr ⟨_, hname, hslash'⟩)
  · intro hmatch
    by_cases hpre : "GET /simple/".toList <+: "GET /".toList ++ request
    · obtain ⟨q, hq⟩ := hpre
      obtain rfl : "simple/".toList ++ q = request := List.append_cancel_left ((hlit q).trans hq)
      rw [hlit, matchStart_seq_text, matchStart, List.head?_eq_none_iff] at hmatch
      obtain ⟨v, hv⟩ := List.exists_mem_of_ne_nil _ hmatch
      obtain ⟨u, hu, hv⟩ := mem_ways_seq.mp hv
      obtain ⟨name, ⟨hne, hname⟩, hrest, -⟩ := (hasLanguage_plus_char _).mem_ways_group.mp hu
      obtain ⟨hslash, -⟩ := mem_ways_lit.mp hv
      exact ⟨name, v.rest, congrArg ("simple/".toList ++ ·) (hrest.trans (hslash ▸ rfl)), hne,
        fun h => of_decide_eq_true (hname _ h) rfl⟩
    · exact absurd (matchStart_seq_text_eq_none hpre) hmatch

end Lines

end WantsCollector

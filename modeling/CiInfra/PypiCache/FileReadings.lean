import Mathlib.Data.List.Infix
import Mathlib.Data.List.TakeWhile
import CiInfra.PypiCache.ReleaseFiles

/-!
# How the files of a release are read

A wheel of a plain version can be read as what it is, and otherwise only at a build tag. A source
archive is never read as what it is, since its suffix directly follows the version and the pattern
needs something between them.
-/

namespace WantsCollector

open Characters Regex Separators

/-! ### Names -/

theorem countP_isDigit_collapse (inRun : Bool) (s : Text) :
    (collapse inRun s).countP Char.isDigit = s.countP Char.isDigit := by
  induction s generalizing inRun with
  | nil => rfl
  | cons c s ih =>
    rw [collapse]
    split
    · rename_i hc
      have hdigit : c.isDigit = false := by
        revert c
        decide
      rw [List.countP_cons_of_neg (by simp [hdigit])]
      split
      · exact ih _
      · rw [List.countP_cons_of_neg (by decide), ih]
    · rw [List.countP_cons, List.countP_cons, ih]

/-- Normalization keeps the digits of a name. -/
theorem countP_isDigit_normalizeName (s : Text) :
    (normalizeName s).countP Char.isDigit = s.countP Char.isDigit := by
  rw [normalizeName, List.countP_map, ← countP_isDigit_collapse false s]
  congr 1
  funext c
  exact isDigit_toLower c

theorem normalizeName_append_ne {s t : Text} (h : ∃ c ∈ t, c.isDigit = true) :
    normalizeName (s ++ t) ≠ normalizeName s := by
  intro heq
  have hcount := congrArg (List.countP Char.isDigit) heq
  rw [countP_isDigit_normalizeName, countP_isDigit_normalizeName, List.countP_append] at hcount
  have hpos := List.countP_pos_iff.mpr h
  omega

theorem DigitFollows.exists_mem {s : Text} (h : DigitFollows s) : ∃ c ∈ s, c.isDigit = true := by
  obtain ⟨c, hc, hdigit⟩ := h
  exact ⟨c, List.mem_of_head? hc, hdigit⟩

theorem digitFollows_append_of_mem_plainVersions {v : Text} (hv : v ∈ plainVersions) (s : Text) :
    DigitFollows (v ++ s) := by
  obtain ⟨number, ⟨hne, hnumber⟩, parts, rfl, -⟩ := exists_parts_of_mem_plainVersions hv
  obtain ⟨c, number, rfl⟩ := List.exists_cons_of_ne_nil hne
  exact ⟨c, rfl, hnumber c List.mem_cons_self⟩

/-! ### Digits at the beginning -/

/-- After the digits with which a text begins there is a character other than a dot. -/
def RunsOn (t : Text) : Prop := ∃ c ∈ (t.dropWhile Char.isDigit).head?, c ≠ '.'

theorem DigitFollows.exists_run {s : Text} (h : DigitFollows s) :
    ∃ run, run ≠ [] ∧ run ∈ runs Char.isDigit ∧ s = run ++ s.dropWhile Char.isDigit := by
  refine ⟨s.takeWhile Char.isDigit, ?_, fun c hc => List.mem_takeWhile_imp hc,
    List.takeWhile_append_dropWhile.symm⟩
  obtain ⟨c, hc, hdigit⟩ := h
  cases s with
  | nil => cases hc
  | cons d s =>
    obtain rfl := Option.some.inj hc
    rw [List.takeWhile_cons_of_pos hdigit]
    exact List.cons_ne_nil _ _

/-- A number is a plain version. -/
theorem mem_plainVersions_of_digits {run : Text} (hne : run ≠ [])
    (hrun : run ∈ runs Char.isDigit) : run ∈ plainVersions :=
  ⟨run, ⟨hne, hrun⟩, [], ⟨[], Language.nil_mem_kstar _, [], Language.nil_mem_kstar _, rfl⟩,
    List.append_nil run⟩

/-- A version that is read ends where the first digits end, or a dot follows them. -/
theorem eq_dot_or_hyphen_of_reading {v rest run s : Text} {c : Char} (hv : v ∈ plainVersions)
    (hrest : ArchiveFollows rest) (h : v ++ rest = run ++ c :: s) (hne : run ≠ [])
    (hrun : run ∈ runs Char.isDigit) (hc : c.isDigit = false) : c = '-' ∨ c = '.' := by
  obtain ⟨d, mid, suffix, tail, hd, hsep, -, -⟩ := id hrest
  have hend : rest = c :: s → c = '-' ∨ c = '.' := fun h => by
    rw [hd] at h
    rwa [← (List.cons.inj h).1]
  rcases List.append_eq_append_iff.mp h with ⟨z, rfl, hz⟩ | ⟨z, rfl, hz⟩
  · cases z with
    | nil => exact hend hz
    | cons d z => exact absurd ⟨d, by rw [hz]; rfl, hrun d (by simp)⟩ hrest.not_digitFollows
  · cases z with
    | nil => exact hend hz.symm
    | cons d z =>
      obtain ⟨rfl, -⟩ := List.cons.inj hz
      obtain rfl | ⟨run, d, rfl⟩ := List.eq_nil_or_concat' run
      · exact absurd rfl hne
      have hchain := List.isChain_iff_forall_rel_of_append_cons_cons.mp
        (digitsEnd_of_mem_plainVersions hv) (by rw [List.append_assoc]; rfl) (hrun d (by simp))
      rw [hc] at hchain
      exact hchain.elim (fun h => by cases h) Or.inr

/-! ### Wheels -/

theorem archiveFollows_whl {c : Char} (hc : c = '-' ∨ c = '.') {s : Text} (hs : '/' ∉ s) :
    ArchiveFollows (c :: (s ++ ".whl".toList)) :=
  ⟨c, s, "whl".toList, [], by simp, hc, hs, by decide⟩

namespace Wheel

variable {w : Wheel} {name version : Text}

theorem hyphen_not_mem_version (v : Version) : '-' ∉ v.text := fun h =>
  absurd (v.spelled _ h) (by decide)

theorem slash_not_mem_version (v : Version) : '/' ∉ v.text := fun h =>
  absurd (v.spelled _ h) (by decide)

/-- The tags end with the suffix of an archive. -/
theorem exists_tagsText_eq (w : Wheel) : ∃ s, w.tagsText = s ++ ".whl".toList ∧ '/' ∉ s :=
  ⟨w.python.1.text ++ '-' :: (w.abi.1.text ++ '-' :: w.platform.1.text), by simp [tagsText],
    by simp [w.python.1.no_slash, w.abi.1.no_slash, w.platform.1.no_slash]⟩

/-- What follows the version ends with the suffix of an archive. -/
theorem exists_afterVersion_eq (w : Wheel) :
    ∃ s, w.afterVersion = s ++ ".whl".toList ∧ '/' ∉ s := by
  obtain ⟨s, hs, hslash⟩ := w.exists_tagsText_eq
  rw [afterVersion]
  split
  · exact ⟨s, hs, hslash⟩
  · rename_i build _
    exact ⟨build.1.text ++ '-' :: s, by simp [hs], by simp [build.1.no_slash, hslash]⟩

/-- A plain version can be read. -/
theorem reads_of_isPlain (h : w.version.IsPlain) : Reads w.text w.name w.version.text := by
  obtain ⟨s, hs, hslash⟩ := w.exists_afterVersion_eq
  exact ⟨w.name_ne_nil, fun c hc => (w.name_chars c hc).1, h, '-' :: w.afterVersion, rfl,
    hs ▸ archiveFollows_whl (Or.inl rfl) hslash⟩

/-- The tags cannot be read as a version. -/
theorem tagsText_ne (w : Wheel) {rest : Text} (hversion : version ∈ plainVersions) :
    version ++ rest ≠ w.tagsText ∧ ∀ s, s ++ '-' :: (version ++ rest) ≠ w.tagsText := by
  have htag (t : {t : Component // ¬ DigitFollows t.text}) {s rest : Text} {c : Char}
      (hc : c.isDigit = false) : version ++ rest ≠ t.1.text ++ c :: s := by
    intro h
    obtain ⟨d, hd, hdigit⟩ := h ▸ digitFollows_append_of_mem_plainVersions hversion rest
    cases ht : t.1.text with
    | nil =>
      rw [ht] at hd
      obtain rfl := Option.some.inj hd
      rw [hc] at hdigit
      cases hdigit
    | cons e l =>
      rw [ht] at hd
      exact t.2 ⟨d, by rw [ht]; exact hd, hdigit⟩
  refine ⟨htag _ (by decide), fun s h => ?_⟩
  rcases eq_or_exists_of_append_cons h w.python.1.no_hyphen with ⟨-, h⟩ | ⟨s, -, h⟩
  · exact htag _ (by decide) h
  rcases eq_or_exists_of_append_cons h w.abi.1.no_hyphen with ⟨-, h⟩ | ⟨s, -, h⟩
  · exact htag (c := '.') _ (by decide) h
  · have hhyphen : '-' ∈ w.platform.1.text ++ ".whl".toList := by rw [← h]; simp
    simp [w.platform.1.no_hyphen] at hhyphen

/-- A version is read after the name, or a build tag is. -/
theorem eq_name_or_of_reads (h : Reads w.text name version) :
    name = w.name ∨ name = w.name ++ '-' :: w.version.text ∧
      ∃ build, w.build = some build ∧ ¬ RunsOn build.1.text := by
  obtain ⟨-, -, hversion, rest, htext, hrest⟩ := h
  have hhyphen : '-' ∉ w.name := fun h => (w.name_chars _ h).2 rfl
  rcases eq_or_exists_of_append_cons htext.symm hhyphen with ⟨rfl, -⟩ | ⟨s, rfl, h⟩
  · exact Or.inl rfl
  right
  have hafter : s = w.version.text ∧ version ++ rest = w.afterVersion ∨
      ∃ s', s' ++ '-' :: (version ++ rest) = w.afterVersion := by
    rcases eq_or_exists_of_append_cons h (hyphen_not_mem_version _) with h | ⟨s', -, h⟩
    · exact Or.inl h
    · exact Or.inr ⟨s', h⟩
  rw [afterVersion] at hafter
  cases hbuild : w.build with
  | none =>
    rw [hbuild] at hafter
    rcases hafter with ⟨-, h⟩ | ⟨s', h⟩
    · exact absurd h (w.tagsText_ne hversion).1
    · exact absurd h ((w.tagsText_ne hversion).2 s')
  | some build =>
    rw [hbuild] at hafter
    dsimp only at hafter
    rcases hafter with ⟨rfl, hreads⟩ | ⟨s', h⟩
    · refine ⟨rfl, build, rfl, ?_⟩
      rintro ⟨c, hc, hdot⟩
      obtain ⟨run, hne, hrun, hsplit⟩ := build.2.exists_run
      obtain ⟨s, hs⟩ := List.head?_eq_some_iff.mp hc
      have hdigit : c.isDigit = false := by
        simpa [hs] using List.head?_dropWhile_not Char.isDigit build.1.text
      rw [hs] at hsplit
      rw [hsplit, List.append_assoc] at hreads
      rcases eq_dot_or_hyphen_of_reading hversion hrest hreads hne hrun hdigit with rfl | rfl
      · exact build.1.no_hyphen (by rw [hsplit]; simp)
      · exact hdot rfl
    · rcases eq_or_exists_of_append_cons h build.1.no_hyphen with ⟨-, h⟩ | ⟨s', -, h⟩
      · exact absurd h (w.tagsText_ne hversion).1
      · exact absurd h ((w.tagsText_ne hversion).2 s')

/-- A build tag that does not run on is read after a plain version. -/
theorem exists_reads_of_build {build : {t : Component // DigitFollows t.text}}
    (hversion : w.version.IsPlain) (hbuild : w.build = some build) (hrun : ¬ RunsOn build.1.text) :
    ∃ version, Reads w.text (w.name ++ '-' :: w.version.text) version := by
  obtain ⟨run, hne, hdigits, hsplit⟩ := build.2.exists_run
  obtain ⟨s, hs, hslash⟩ := w.exists_tagsText_eq
  refine ⟨run, by simp, fun c hc => ?_, mem_plainVersions_of_digits hne hdigits,
    build.1.text.dropWhile Char.isDigit ++ '-' :: w.tagsText, ?_, ?_⟩
  · rcases List.mem_append.mp hc with hc | hc
    · exact (w.name_chars c hc).1
    rcases List.mem_cons.mp hc with rfl | hc
    · rfl
    · rcases isAlphanum_or_eq_dot_of_mem hversion hc with h | rfl
      · simp [isNameChar, h]
      · rfl
  · rw [text, afterVersion, hbuild, ← List.append_assoc run, ← hsplit]
    simp
  · rw [hs]
    cases hdrop : build.1.text.dropWhile Char.isDigit with
    | nil => exact archiveFollows_whl (Or.inl rfl) hslash
    | cons c t =>
      have hdot : c = '.' := by
        by_contra hdot
        exact hrun ⟨c, by rw [hdrop]; rfl, hdot⟩
      have ht : '/' ∉ t := fun h => build.1.no_slash (by rw [hsplit, hdrop]; simp [h])
      have htext : c :: t ++ '-' :: (s ++ ".whl".toList) =
          c :: ((t ++ '-' :: s) ++ ".whl".toList) := by
        simp
      rw [htext]
      exact archiveFollows_whl (Or.inr hdot) (by simp [ht, hslash])

/-- The version is plain, and a build tag does not look like one. -/
def IsAttributed (w : Wheel) : Prop :=
  w.version.IsPlain ∧ ∀ build, w.build = some build → RunsOn build.1.text

/-- The preferred reading of a wheel's name is right for exactly these wheels. -/
theorem eq_iff_of_preferred (h : Preferred w.text name version) :
    normalizeName name = normalizeName w.name ∧ version = w.version.text ↔ w.IsAttributed := by
  constructor
  · rintro ⟨hname, rfl⟩
    have hplain : w.version.IsPlain := h.reads.version_mem
    refine ⟨hplain, fun build hbuild => ?_⟩
    by_contra hrun
    have heq : name = w.name := by
      refine (eq_name_or_of_reads h.reads).resolve_right ?_
      rintro ⟨rfl, -⟩
      obtain ⟨c, hc, hdigit⟩ := w.version.begins.exists_mem
      exact normalizeName_append_ne ⟨c, List.mem_cons_of_mem _ hc, hdigit⟩ hname
    obtain ⟨version, hreads⟩ := exists_reads_of_build hplain hbuild hrun
    have hlength := h.name_longest hreads
    rw [heq, List.length_append, List.length_cons] at hlength
    omega
  · rintro ⟨hplain, hbuild⟩
    obtain rfl : name = w.name := by
      refine (eq_name_or_of_reads h.reads).resolve_right ?_
      rintro ⟨-, build, hsome, hrun⟩
      exact hrun (hbuild build hsome)
    refine ⟨rfl, ?_⟩
    have hlength := h.version_longest (reads_of_isPlain hplain)
    obtain ⟨-, -, hversion, rest, htext, -⟩ := h.reads
    have hpre : version <+: w.version.text := by
      refine prefix_of_not_mem (c := '-') (x := w.afterVersion) ⟨rest, ?_⟩ fun h =>
        absurd (isAlphanum_or_eq_dot_of_mem hversion h) (by decide)
      exact (List.cons.inj (List.append_cancel_left htext)).2.symm
    exact hpre.eq_of_length_le hlength

theorem exists_reads_of_isAttributed (h : w.IsAttributed) :
    ∃ name version, Reads w.text name version := ⟨_, _, reads_of_isPlain h.1⟩

end Wheel

/-! ### Source archives -/

namespace Sdist

variable {s : Sdist} {name version : Text}

/-- A source archive's suffix has no second suffix in it. -/
theorem not_archiveFollows_suffix (s : Sdist) : ¬ ArchiveFollows s.suffix := by
  rintro ⟨c, mid, suffix, rest, hsuffix, -, -, hmem⟩
  have htails : ∀ suffix ∈ [".tar.gz".toList, ".zip".toList], ∀ t ∈ suffix.tail.tails,
      t.head? = some '.' → t.length < 4 := by decide
  have hlong : ∀ suffix ∈ archiveSuffixes, 3 ≤ suffix.length := by decide
  have hshort := htails s.suffix s.suffix_mem ('.' :: (suffix ++ rest))
    ((List.mem_tails _ _).mpr ⟨mid, by rw [hsuffix]; rfl⟩) rfl
  have hlength := hlong suffix hmem
  simp only [List.length_cons, List.length_append] at hshort
  omega

/-- No reading of a source archive's name is right. -/
theorem ne_of_reads (h : Reads s.text name version) :
    ¬ (normalizeName name = normalizeName s.name ∧ version = s.version.text) := by
  rintro ⟨hname, rfl⟩
  obtain ⟨-, -, hversion, rest, htext, hrest⟩ := h
  have hhyphen : '-' ∉ s.version.text ++ s.suffix := by
    have hsuffix : ∀ suffix ∈ [".tar.gz".toList, ".zip".toList], '-' ∉ suffix := by decide
    simp [Wheel.hyphen_not_mem_version, hsuffix s.suffix s.suffix_mem]
  rcases List.append_eq_append_iff.mp htext with ⟨z, rfl, hz⟩ | ⟨z, hz, htail⟩
  · cases z with
    | nil =>
      have hsuffix : s.suffix = rest := List.append_cancel_left (List.cons.inj hz).2
      exact s.not_archiveFollows_suffix (hsuffix ▸ hrest)
    | cons c z =>
      obtain ⟨-, hz⟩ := List.cons.inj hz
      exact hhyphen (by rw [hz]; simp)
  · cases z with
    | nil =>
      have hsuffix : rest = s.suffix := List.append_cancel_left (List.cons.inj htail).2
      exact s.not_archiveFollows_suffix (hsuffix ▸ hrest)
    | cons c z =>
      obtain ⟨rfl, hrest'⟩ := List.cons.inj htail
      obtain ⟨d, hd, hdigit⟩ := digitFollows_append_of_mem_plainVersions hversion rest
      have hmem : ∃ c ∈ '-' :: z, c.isDigit = true := by
        cases z with
        | nil =>
          rw [hrest'] at hd
          obtain rfl := Option.some.inj hd
          exact absurd hdigit (by decide)
        | cons e z =>
          rw [hrest'] at hd
          obtain rfl := Option.some.inj hd
          exact ⟨e, by simp, hdigit⟩
      rw [hz] at hname
      exact normalizeName_append_ne hmem hname.symm

end Sdist

theorem slash_ne_of_isNameChar {s : Text} (h : ∀ c ∈ s, isNameChar c = true) : '/' ∉ s := fun hc =>
  absurd (h _ hc) (by decide)

/-- The name of a file has no slash. -/
theorem ReleaseFile.slash_not_mem_text (f : ReleaseFile) : '/' ∉ f.text := by
  cases f with
  | wheel w =>
    obtain ⟨s, hs, hslash⟩ := w.exists_afterVersion_eq
    have hname : '/' ∉ w.name := slash_ne_of_isNameChar fun c hc => (w.name_chars c hc).1
    simp [text, Wheel.text, hs, hname, Wheel.slash_not_mem_version, hslash]
  | sdist s =>
    have hsuffix : ∀ suffix ∈ [".tar.gz".toList, ".zip".toList], '/' ∉ suffix := by decide
    simp [text, Sdist.text, slash_ne_of_isNameChar s.name_chars, Wheel.slash_not_mem_version,
      hsuffix s.suffix s.suffix_mem]

end WantsCollector

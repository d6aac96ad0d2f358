import CiInfra.Lib.TextLines
import CiInfra.PypiCache.CheckPypi
import CiInfra.PypiCache.Readings
import Mathlib.Data.Char
import Mathlib.Data.Finset.Prod
import Mathlib.Data.Finset.Sort
import Mathlib.Data.List.Lex
import Mathlib.Data.Prod.Lex

/-!
# The cache of releases that are already built

The collectors of all clusters share one file in a bucket. It lists the releases for which the index
has the wheels of a matrix of interpreters and architectures, and its first line names the matrix. A
collector that has another matrix takes the file for an empty one.
-/

namespace WantsCollector

open Regex TextLines

/-- A release: its normalized name and its version. -/
abbrev Package := Text × Text

/-- `name==version` -/
def entryOf (p : Package) : Text := p.1 ++ "==".toList ++ p.2

/-! ### Logs -/

/-- A file in the directory of the logs, with the lines that could be read. -/
structure LogFile where
  name : Text
  isFile : Bool
  lines : List Text

/-- The release that a line tells. Queries tell no version. -/
def parsedVersion? (line : Text) : Option Package :=
  (parseLogLine line).filter fun p => p.2 ≠ []

/-- The releases in the logs of a directory. -/
def scanLogs (logDir : List LogFile) : Finset Package :=
  ((logDir.filter fun f => f.isFile && decide (".log".toList <:+ f.name)).flatMap
    fun f => f.lines.filterMap parsedVersion?).toFinset

/-! ### The matrix -/

/-- What a collector is told to collect for: lists that are separated by commas, and a version of
manylinux. The lists have no blanks, since the script that deploys the collector deletes them. -/
structure Target where
  targetPython : Text
  targetArch : Text
  targetManylinux : Text
  isBlank_python : ∀ c ∈ targetPython, isBlank c = false
  isBlank_arch : ∀ c ∈ targetArch, isBlank c = false
  isBlank_manylinux : ∀ c ∈ targetManylinux, isBlank c = false

/-- The first line of the file, but for the words that every such line begins with. -/
def matrixHeader (pythonVersions architectures : List Text) (manylinux : Text) : Text :=
  [','].intercalate (pythonVersions.map ("py".toList ++ ·)) ++
    ' ' :: ([','].intercalate architectures ++ ' ' :: ("manylinux_".toList ++ manylinux))

/-- The pairs of an interpreter and an architecture. -/
def matrixCombos (pythonVersions architectures : List Text) : Finset (Text × Text) :=
  (pythonVersions.map fun v => "cp".toList ++ v.filter (· ≠ '.')).toFinset ×ˢ
    architectures.toFinset

/-- Build the target matrix. -/
def buildMatrix (pythonVersions architectures : List Text) (manylinux : Text) :
    Text × Finset (Text × Text) :=
  (matrixHeader pythonVersions architectures manylinux,
    matrixCombos pythonVersions architectures)

def Target.matrix (t : Target) : Text × Finset (Text × Text) :=
  buildMatrix (t.targetPython.splitOn ',') (t.targetArch.splitOn ',') t.targetManylinux

def Target.header (t : Target) : Text := t.matrix.1

def Target.combos (t : Target) : Finset (Text × Text) := t.matrix.2

/-! ### The files -/

/-- Lines that are joined, and a newline. -/
def joinLines (lines : List Text) : Text := ['\n'].intercalate lines ++ ['\n']

/-- Format the wants as a sorted list. -/
def formatWants (packages : Finset Text) : Text :=
  if packages = ∅ then [] else joinLines (packages.sort (· ≤ ·))

/-- What the first line of the cache begins with. -/
def matrixPrefix : Text := "# matrix: ".toList

/-- Format the cache: the header, and the sorted entries. -/
def formatPrebuiltCache (header : Text) (entries : Finset Text) : Text :=
  joinLines ((matrixPrefix ++ header) :: entries.sort (· ≤ ·))

/-- The lines of the content with their ends stripped, but for empty ones. -/
def strippedLines (lines : List Text) : List Text := (lines.map strip).filter (· ≠ [])

/-- Parse the cache. With another header than the expected one it is taken to be empty. -/
def parsePrebuiltCache (content : Option Text) (expectedHeader : Text) : Finset Text :=
  match content with
  | none => ∅
  | some content =>
    match splitLines (strip content) with
    | [] => ∅
    | first :: lines =>
      if matrixPrefix <+: first ∧ first.drop matrixPrefix.length = expectedHeader then
        (strippedLines lines).toFinset
      else ∅

/-- Parse the list of packages that are always built. Lines that begin with `#` are comments. -/
def parseNeedbuild (content : Option Text) : Finset Text :=
  match content with
  | none => ∅
  | some content =>
    (((strippedLines (splitLines (strip content))).filter fun l => ¬ ['#'] <+: l).map
      normalizeName).toFinset

/-! ### What is wanted -/

section Filter

variable {ε : Type} (matrix : Finset (Text × Text)) (target : Text)
  (httpGet : Text → Except ε (ℕ × List Entry)) (needbuild : Finset Text)

/-- The wants and the entries that are prebuilt after one more package. -/
def filterPackage (state : Finset Text × Finset Text) (p : Package) :
    Except (PypiError ε) (Finset Text × Finset Text) :=
  if p.1 ∈ needbuild then .ok (insert (entryOf p) state.1, state.2)
  else if entryOf p ∈ state.2 then .ok state
  else
    match checkPypi p.1 p.2 matrix target httpGet with
    | .error e => .error e
    | .ok true => .ok (insert (entryOf p) state.1, state.2)
    | .ok false => .ok (state.1, insert (entryOf p) state.2)

/-- The packages in their order as pairs. -/
def sortedPackages (packages : Finset Package) : List Package :=
  ((packages.map toLex.toEmbedding).sort (· ≤ ·)).map ofLex

/-- Filter packages: what is wanted, and what is prebuilt. Errors of requests end the cycle. -/
def filterPackages (packages : Finset Package) (prebuilt : Finset Text) :
    Except (PypiError ε) (Finset Text × Finset Text) :=
  (sortedPackages packages).foldlM (filterPackage matrix target httpGet needbuild) (∅, prebuilt)

end Filter

/-! ### What a target says -/

namespace Target

theorem ext_texts {t t' : Target} (hpython : t.targetPython = t'.targetPython)
    (harch : t.targetArch = t'.targetArch) (hmanylinux : t.targetManylinux = t'.targetManylinux) :
    t = t' := by
  cases t
  cases t'
  simp_all

/-- The interpreters, as the header lists them. -/
def pythonList (t : Target) : Text :=
  [','].intercalate ((t.targetPython.splitOn ',').map ("py".toList ++ ·))

theorem header_eq (t : Target) :
    t.header = t.pythonList ++ ' ' :: (t.targetArch ++ ' ' ::
      ("manylinux_".toList ++ t.targetManylinux)) := by
  have harch : [','].intercalate (t.targetArch.splitOn ',') = t.targetArch :=
    List.intercalate_splitOn ','
  unfold header matrix buildMatrix matrixHeader pythonList
  rw [harch]

theorem isBlank_pythonList (t : Target) : ∀ c ∈ t.pythonList, isBlank c = false := by
  intro c hc
  by_contra hblank
  rw [Bool.not_eq_false] at hblank
  refine Separators.not_mem_intercalate ?_ (fun part hpart hcpart => ?_) hc
  · rintro rfl
    exact absurd hblank (by decide)
  · obtain ⟨v, hv, rfl⟩ := List.mem_map.mp hpart
    rcases List.mem_append.mp hcpart with hpy | hcv
    · have hletters : ∀ c ∈ "py".toList, isBlank c = false := by decide
      rw [hletters c hpy] at hblank
      cases hblank
    · rw [t.isBlank_python c (Separators.mem_of_mem_splitOn hv hcv)] at hblank
      cases hblank

theorem isBlank_platform (t : Target) :
    ∀ c ∈ "manylinux_".toList ++ t.targetManylinux, isBlank c = false := by
  intro c hc
  have hletters : ∀ c ∈ "manylinux_".toList, isBlank c = false := by decide
  exact (List.mem_append.mp hc).elim (hletters c) (t.isBlank_manylinux c)

theorem pythonList_inj {t t' : Target} (h : t.pythonList = t'.pythonList) :
    t.targetPython = t'.targetPython := by
  have hcomma (t : Target) :
      ∀ l ∈ (t.targetPython.splitOn ',').map ("py".toList ++ ·), ',' ∉ l := by
    intro l hl
    obtain ⟨v, hv, rfl⟩ := List.mem_map.mp hl
    have hv' : ',' ∉ v := Separators.not_mem_of_mem_splitOn hv
    simpa using hv'
  have hne (t : Target) : (t.targetPython.splitOn ',').map ("py".toList ++ ·) ≠ [] := by
    simp
  have hsplit := congrArg (List.splitOn ',') h
  rw [pythonList, pythonList, List.splitOn_intercalate ',' (hcomma t) (hne t),
    List.splitOn_intercalate ',' (hcomma t') (hne t')] at hsplit
  have hparts : t.targetPython.splitOn ',' = t'.targetPython.splitOn ',' :=
    List.map_injective_iff.mpr (fun _ _ heq => List.append_cancel_left heq) hsplit
  calc t.targetPython = [','].intercalate (t.targetPython.splitOn ',') :=
        (List.intercalate_splitOn ',').symm
    _ = [','].intercalate (t'.targetPython.splitOn ',') := by rw [hparts]
    _ = t'.targetPython := List.intercalate_splitOn ','

/-- The header tells the target. -/
theorem header_inj {t t' : Target} (h : t.header = t'.header) : t = t' := by
  have hspace {s : Text} (hs : ∀ c ∈ s, isBlank c = false) : ' ' ∉ s := fun hmem =>
    absurd (hs ' ' hmem) (by decide)
  rw [header_eq, header_eq] at h
  obtain ⟨hpython, hrest⟩ := Separators.append_cons_inj h (hspace t.isBlank_pythonList)
    (hspace t'.isBlank_pythonList)
  obtain ⟨harch, hrest⟩ := Separators.append_cons_inj hrest (hspace t.isBlank_arch)
    (hspace t'.isBlank_arch)
  exact ext_texts (pythonList_inj hpython) harch (List.append_cancel_left hrest)

/-- The header makes a plain line. -/
theorem isStripped_header (t : Target) : IsStripped (matrixPrefix ++ t.header) := by
  have hne : "manylinux_".toList ++ t.targetManylinux ≠ [] := List.cons_ne_nil _ _
  rw [header_eq]
  refine ⟨⟨List.cons_ne_nil _ _, fun c hc => ?_, fun c hc => ?_⟩, fun c hc => ?_⟩
  · have hhead : c = '#' := (Option.some.inj hc).symm
    rw [hhead]
    decide
  · have hsplit : matrixPrefix ++ (t.pythonList ++ ' ' :: (t.targetArch ++ ' ' ::
        ("manylinux_".toList ++ t.targetManylinux))) =
        (matrixPrefix ++ t.pythonList ++ ' ' :: (t.targetArch ++ [' '])) ++
          ("manylinux_".toList ++ t.targetManylinux) := by
      simp
    rw [hsplit, List.getLast?_append_of_ne_nil _ hne] at hc
    exact t.isBlank_platform c (List.mem_of_getLast? hc)
  · have hpre : ∀ c ∈ matrixPrefix, isBreak c = false := by decide
    have hspace : isBreak ' ' = false := by decide
    simp only [List.mem_append, List.mem_cons] at hc
    rcases hc with hc | hc | rfl | hc | rfl | hc
    · exact hpre c hc
    · exact isBreak_eq_false (t.isBlank_pythonList c hc)
    · exact hspace
    · exact isBreak_eq_false (t.isBlank_arch c hc)
    · exact hspace
    · exact isBreak_eq_false (t.isBlank_platform c (List.mem_append.mpr hc))

end Target

/-! ### What the files say -/

theorem isStripped_lines {header : Text} (hheader : IsStripped (matrixPrefix ++ header))
    {entries : Finset Text} (hentries : ∀ e ∈ entries, IsStripped e) :
    ∀ l ∈ (matrixPrefix ++ header) :: entries.sort (· ≤ ·), IsStripped l :=
  List.forall_mem_cons.mpr ⟨hheader, fun l hl => hentries l ((Finset.mem_sort _).mp hl)⟩

/-- The entries of a cache that was written with the expected header. -/
theorem parse_format_of_eq {header : Text} (hheader : IsStripped (matrixPrefix ++ header))
    {entries : Finset Text} (hentries : ∀ e ∈ entries, IsStripped e) :
    parsePrebuiltCache (some (formatPrebuiltCache header entries)) header = entries := by
  have hlines := isStripped_lines hheader hentries
  have hstripped : strippedLines (entries.sort (· ≤ ·)) = entries.sort (· ≤ ·) := by
    have hmap : (entries.sort (· ≤ ·)).map strip = entries.sort (· ≤ ·) :=
      (List.map_congr_left fun l hl => (hlines l (List.mem_cons_of_mem _ hl)).strip_eq).trans
        (List.map_id _)
    rw [strippedLines, hmap, List.filter_eq_self]
    exact fun l hl => decide_eq_true (hlines l (List.mem_cons_of_mem _ hl)).ne_nil
  rw [parsePrebuiltCache, formatPrebuiltCache, joinLines]
  simp only [splitLines_strip_intercalate (List.cons_ne_nil _ _) hlines]
  rw [if_pos ⟨List.prefix_append _ _, List.drop_left⟩, hstripped, Finset.sort_toFinset]

/-- With another header nothing is read. -/
theorem parse_format_of_ne {header header' : Text} (hheader : IsStripped (matrixPrefix ++ header))
    {entries : Finset Text} (hentries : ∀ e ∈ entries, IsStripped e) (hne : header ≠ header') :
    parsePrebuiltCache (some (formatPrebuiltCache header entries)) header' = ∅ := by
  have hlines := isStripped_lines hheader hentries
  rw [parsePrebuiltCache, formatPrebuiltCache, joinLines]
  simp only [splitLines_strip_intercalate (List.cons_ne_nil _ _) hlines]
  rw [if_neg]
  rintro ⟨-, hdrop⟩
  rw [List.drop_left] at hdrop
  exact hne hdrop

/-- Every entry of a cache is a plain line. -/
theorem isStripped_of_mem_parse {content : Option Text} {header e : Text}
    (he : e ∈ parsePrebuiltCache content header) : IsStripped e := by
  unfold parsePrebuiltCache at he
  split at he
  · simp at he
  · split at he
    · simp at he
    · rename_i first lines hsplit
      split at he
      · obtain ⟨hmap, hne⟩ := List.mem_filter.mp (List.mem_toFinset.mp he)
        obtain ⟨l, hl, rfl⟩ := List.mem_map.mp hmap
        have hbreak := isBreak_of_mem_splitLines (s := strip _)
          (hsplit ▸ List.mem_cons_of_mem first hl)
        exact isStripped_strip hbreak (of_decide_eq_true hne)
      · simp at he

/-- The lines of a file of wants. -/
theorem mem_splitLines_formatWants {wants : Finset Text} (h : ∀ e ∈ wants, IsStripped e)
    {e : Text} : e ∈ splitLines (formatWants wants) ↔ e ∈ wants := by
  rw [formatWants]
  split
  · rename_i hempty
    rw [hempty]
    simp [splitLines, linesFrom]
  · rename_i hne
    have hsort : wants.sort (· ≤ ·) ≠ [] := by
      intro hnil
      rw [← Finset.sort_toFinset wants (· ≤ ·), hnil] at hne
      exact hne rfl
    rw [joinLines, splitLines_intercalate_newline hsort
      fun l hl => (h l ((Finset.mem_sort _).mp hl)).isBreak, Finset.mem_sort]

/-! ### What the logs say -/

theorem isBlank_of_isNameChar {c : Char} (h : isNameChar c = true) : isBlank c = false := by
  rw [isNameChar, Bool.or_eq_true, decide_eq_true_eq] at h
  rcases h with h | h
  · have hnat := Characters.toNat_of_isAlphanum h
    exact isBlank_of_toNat ⟨by omega, by omega⟩
  · have hblank : ∀ c ∈ ['_', '.', '-'], isBlank c = false := by decide
    exact hblank c h

theorem mem_collapse {inRun : Bool} {s : Text} {c : Char} (h : c ∈ collapse inRun s) :
    c = '-' ∨ c ∈ s := by
  induction s generalizing inRun with
  | nil => cases h
  | cons d s ih =>
    have htail {inRun : Bool} (h : c ∈ collapse inRun s) : c = '-' ∨ c ∈ d :: s :=
      (ih h).imp_right (List.mem_cons_of_mem d)
    rw [collapse] at h
    split at h
    · split at h
      · exact htail h
      · exact (List.mem_cons.mp h).elim Or.inl htail
    · exact (List.mem_cons.mp h).elim (fun heq => Or.inr (heq ▸ List.mem_cons_self)) htail

theorem collapse_ne_nil {s : Text} (h : s ≠ []) : collapse false s ≠ [] := by
  obtain ⟨c, s, rfl⟩ := List.exists_cons_of_ne_nil h
  rw [collapse]
  split <;> exact List.cons_ne_nil _ _

/-- A letter of a normalized name is visible, and no equals sign. -/
theorem isBlank_of_mem_normalizeName {name : Text} (hname : ∀ c ∈ name, isNameChar c = true)
    {c : Char} (hc : c ∈ normalizeName name) : isBlank c = false ∧ c ≠ '=' := by
  obtain ⟨d, hd, rfl⟩ := List.mem_map.mp hc
  have hchar : isNameChar d = true := by
    rcases mem_collapse hd with rfl | hd
    · decide
    · exact hname d hd
  have hne : d ≠ '=' := by
    rintro rfl
    exact absurd hchar (by decide)
  by_cases hletter : d.toLower < 'a' ∨ 'z' < d.toLower
  · rw [← Characters.eq_of_toLower_eq hletter rfl]
    exact ⟨isBlank_of_isNameChar hchar, hne⟩
  · rw [not_or, Char.not_lt, Char.not_lt, Char.le_def, Char.le_def, UInt32.le_iff_toNat_le,
      UInt32.le_iff_toNat_le] at hletter
    have hrange : 97 ≤ d.toLower.toNat ∧ d.toLower.toNat ≤ 122 := hletter
    refine ⟨isBlank_of_toNat ⟨by omega, by omega⟩, fun heq => ?_⟩
    rw [heq] at hrange
    exact absurd hrange (by decide)

/-- A name and a version that a line tells. -/
structure IsRelease (p : Package) : Prop where
  name_ne_nil : p.1 ≠ []
  isBlank_name : ∀ c ∈ p.1, isBlank c = false ∧ c ≠ '='
  version_ne_nil : p.2 ≠ []
  isBlank_version : ∀ c ∈ p.2, isBlank c = false

theorem isRelease_of_reads {t name version : Text} (h : Reads t name version)
    (hne : version ≠ []) : IsRelease (normalizeName name, version) where
  name_ne_nil hnil := collapse_ne_nil h.name_ne_nil (List.map_eq_nil_iff.mp hnil)
  isBlank_name _ hc := isBlank_of_mem_normalizeName h.isNameChar hc
  version_ne_nil := hne
  isBlank_version c hc := by
    rcases isAlphanum_or_eq_dot_of_mem h.version_mem hc with halnum | rfl
    · have hnat := Characters.toNat_of_isAlphanum halnum
      exact isBlank_of_toNat ⟨by omega, by omega⟩
    · decide

/-- Where the pattern for downloads matches, there is a reading. -/
theorem exists_reads_of_search_reDownload {line : Text} {m : Way}
    (h : reDownload.search line = some m) : ∃ t, Reads t (m.capture 1) (m.capture 2) := by
  obtain ⟨s, hs⟩ := exists_matchStart_of_search h
  have hlit : "GET /".toList <+: s := by
    by_contra hno
    rw [reDownload, matchStart_seq_text_eq_none hno] at hs
    cases hs
  obtain ⟨request, rfl⟩ := hlit
  rw [reDownload, matchStart_seq_text] at hs
  obtain ⟨u, -, hu, -⟩ := exists_of_head?_ways_seq (greedy_ways_plus_char _ _) hs
  obtain ⟨v, -, hv, -⟩ := exists_of_head?_ways_seq (pairwise_ways_char _ u) hu
  exact ⟨v.rest, (preferred_of_head?_ways hv).reads⟩

theorem isRelease_of_mem_scanLogs {logDir : List LogFile} {p : Package} (h : p ∈ scanLogs logDir) :
    IsRelease p := by
  obtain ⟨f, -, hf⟩ := List.mem_flatMap.mp (List.mem_toFinset.mp h)
  obtain ⟨line, -, hline⟩ := List.mem_filterMap.mp hf
  obtain ⟨hparsed, hversion⟩ := Option.filter_eq_some_iff.mp hline
  rw [parseLogLine] at hparsed
  split at hparsed
  · rename_i m hm
    obtain ⟨t, ht⟩ := exists_reads_of_search_reDownload hm
    cases hparsed
    exact isRelease_of_reads ht (of_decide_eq_true hversion)
  · split at hparsed
    · cases hparsed
      simp at hversion
    · cases hparsed

theorem isStripped_entryOf {p : Package} (h : IsRelease p) : IsStripped (entryOf p) := by
  apply IsStripped.of_forall
  · simp [entryOf, h.name_ne_nil]
  · intro c hc
    have hequals : ∀ c ∈ "==".toList, isBlank c = false := by decide
    rw [entryOf, List.mem_append, List.mem_append] at hc
    rcases hc with (hc | hc) | hc
    · exact (h.isBlank_name c hc).1
    · exact hequals c hc
    · exact h.isBlank_version c hc

/-- The entry of a release tells the release. -/
theorem entryOf_inj {p q : Package} (hp : IsRelease p) (hq : IsRelease q)
    (h : entryOf p = entryOf q) : p = q := by
  have hequals {p : Package} (hp : IsRelease p) : '=' ∉ p.1 := fun hmem =>
    (hp.isBlank_name '=' hmem).2 rfl
  have hsplit (p : Package) : entryOf p = p.1 ++ '=' :: ('=' :: p.2) := by simp [entryOf]
  rw [hsplit, hsplit] at h
  obtain ⟨hname, hrest⟩ := Separators.append_cons_inj h (hequals hp) (hequals hq)
  exact Prod.ext hname (List.cons.inj hrest).2

/-! ### What is filtered -/

section Filter

variable {ε : Type} {matrix : Finset (Text × Text)} {target : Text}
  {httpGet : Text → Except ε (ℕ × List Entry)} {needbuild : Finset Text}

/-- What makes a package wanted, with what is prebuilt before. -/
def Wanted (matrix : Finset (Text × Text)) (target : Text)
    (httpGet : Text → Except ε (ℕ × List Entry)) (needbuild prebuilt : Finset Text) (p : Package) :
    Prop :=
  p.1 ∈ needbuild ∨
    entryOf p ∉ prebuilt ∧ checkPypi p.1 p.2 matrix target httpGet = .ok true

/-- What is prebuilt after a loop over packages, and what is wanted. -/
structure Filtered (matrix : Finset (Text × Text)) (target : Text)
    (httpGet : Text → Except ε (ℕ × List Entry)) (needbuild : Finset Text) (packages : List Package)
    (state state' : Finset Text × Finset Text) : Prop where
  mem_wants : ∀ e, e ∈ state'.1 ↔ e ∈ state.1 ∨
    ∃ p ∈ packages, entryOf p = e ∧ Wanted matrix target httpGet needbuild state.2 p
  mem_prebuilt : ∀ e, e ∈ state'.2 ↔ e ∈ state.2 ∨ ∃ p ∈ packages, entryOf p = e ∧
    p.1 ∉ needbuild ∧ checkPypi p.1 p.2 matrix target httpGet = .ok false
  settled : ∀ p ∈ packages, entryOf p ∈ state'.1 ∨ entryOf p ∈ state'.2

theorem filtered_filterPackage {state state' : Finset Text × Finset Text} {p : Package}
    (h : filterPackage matrix target httpGet needbuild state p = .ok state') :
    Filtered matrix target httpGet needbuild [p] state state' := by
  unfold filterPackage at h
  split at h
  · rename_i hneed
    cases h
    refine ⟨fun e => ?_, fun e => ?_,
      List.forall_mem_singleton.mpr (Or.inl (Finset.mem_insert_self _ _))⟩
    · simp [Wanted, hneed, eq_comm, or_comm]
    · simp [hneed]
  · rename_i hneed
    split at h
    · rename_i hprebuilt
      cases h
      refine ⟨fun e => ?_, fun e => ?_, List.forall_mem_singleton.mpr (Or.inr hprebuilt)⟩
      · simp [Wanted, hneed, hprebuilt]
      · simp only [List.mem_singleton, exists_eq_left]
        constructor
        · exact Or.inl
        · rintro (he | ⟨rfl, -⟩)
          · exact he
          · exact hprebuilt
    · rename_i hprebuilt
      split at h
      · cases h
      · rename_i hcheck
        cases h
        refine ⟨fun e => ?_, fun e => ?_,
          List.forall_mem_singleton.mpr (Or.inl (Finset.mem_insert_self _ _))⟩
        · simp [Wanted, hneed, hprebuilt, hcheck, eq_comm, or_comm]
        · simp [hcheck]
      · rename_i hcheck
        cases h
        refine ⟨fun e => ?_, fun e => ?_,
          List.forall_mem_singleton.mpr (Or.inr (Finset.mem_insert_self _ _))⟩
        · simp [Wanted, hneed, hcheck]
        · simp [hneed, hcheck, eq_comm, or_comm]

/-- A loop over different releases. What it finds about one of them it does not use for another. -/
theorem filtered_foldlM {packages : List Package} (hnodup : packages.Nodup)
    (hrelease : ∀ p ∈ packages, IsRelease p) {state state' : Finset Text × Finset Text}
    (h : packages.foldlM (filterPackage matrix target httpGet needbuild) state = .ok state') :
    Filtered matrix target httpGet needbuild packages state state' := by
  induction packages generalizing state with
  | nil =>
    cases h
    exact ⟨by simp, by simp, by simp⟩
  | cons p packages ih =>
    rw [List.foldlM_cons] at h
    obtain ⟨mid, hmid, h⟩ : ∃ mid, filterPackage matrix target httpGet needbuild state p = .ok mid ∧
        packages.foldlM (filterPackage matrix target httpGet needbuild) mid = .ok state' := by
      cases hp : filterPackage matrix target httpGet needbuild state p with
      | error e =>
        rw [hp] at h
        cases h
      | ok mid =>
        rw [hp] at h
        exact ⟨mid, rfl, h⟩
    obtain ⟨hfresh, hnodup⟩ := List.nodup_cons.mp hnodup
    obtain ⟨hp, hrest⟩ := List.forall_mem_cons.mp hrelease
    have hfirst := filtered_filterPackage hmid
    have htail := ih hnodup hrest h
    -- No later package has the entry of this one.
    have hentry : ∀ q ∈ packages, entryOf p ≠ entryOf q := by
      intro q hq heq
      rw [entryOf_inj hp (hrest q hq) heq] at hfresh
      exact hfresh hq
    have hwanted : ∀ q ∈ packages, Wanted matrix target httpGet needbuild mid.2 q ↔
        Wanted matrix target httpGet needbuild state.2 q := by
      intro q hq
      have hmem := hfirst.mem_prebuilt (entryOf q)
      simp only [List.mem_singleton, exists_eq_left, hentry q hq, false_and, or_false] at hmem
      rw [Wanted, Wanted, hmem]
    refine ⟨fun e => ?_, fun e => ?_, List.forall_mem_cons.mpr ⟨?_, htail.settled⟩⟩
    · rw [htail.mem_wants, hfirst.mem_wants, or_assoc]
      simp only [List.mem_cons, exists_eq_or_imp, List.not_mem_nil, or_false, exists_eq_left]
      refine or_congr_right (or_congr_right (exists_congr fun q => and_congr_right fun hq => ?_))
      rw [hwanted q hq]
    · rw [htail.mem_prebuilt, hfirst.mem_prebuilt, or_assoc]
      simp only [List.mem_cons, exists_eq_or_imp, List.not_mem_nil, or_false, exists_eq_left]
    · rcases hfirst.settled p List.mem_cons_self with hin | hin
      · exact Or.inl ((htail.mem_wants _).mpr (Or.inl hin))
      · exact Or.inr ((htail.mem_prebuilt _).mpr (Or.inl hin))

theorem mem_sortedPackages {packages : Finset Package} {p : Package} :
    p ∈ sortedPackages packages ↔ p ∈ packages := by
  unfold sortedPackages
  simp

theorem nodup_sortedPackages (packages : Finset Package) : (sortedPackages packages).Nodup :=
  (Finset.sort_nodup _ _).map ofLex.injective

theorem filtered_filterPackages {packages : Finset Package}
    (hrelease : ∀ p ∈ packages, IsRelease p) {prebuilt : Finset Text}
    {result : Finset Text × Finset Text}
    (h : filterPackages matrix target httpGet needbuild packages prebuilt = .ok result) :
    Filtered matrix target httpGet needbuild (sortedPackages packages) (∅, prebuilt) result :=
  filtered_foldlM (nodup_sortedPackages packages)
    (fun p hp => hrelease p (mem_sortedPackages.mp hp)) h

/-- All that is prebuilt after a cycle are plain lines. -/
theorem Filtered.isStripped {packages : List Package} {state state' : Finset Text × Finset Text}
    (h : Filtered matrix target httpGet needbuild packages state state')
    (hrelease : ∀ p ∈ packages, IsRelease p) (hstate : ∀ e ∈ state.2, IsStripped e) :
    ∀ e ∈ state'.2, IsStripped e := by
  intro e he
  rcases (h.mem_prebuilt e).mp he with he | ⟨p, hp, rfl, -⟩
  · exact hstate e he
  · exact isStripped_entryOf (hrelease p hp)

end Filter

/-- What one collector has found is read by the collectors that have the same target, and by no
other one. -/
theorem parse_format_filterPackages {ε : Type} (t t' : Target) (logDir : List LogFile)
    (content : Option Text) (needbuild : Finset Text)
    (httpGet : Text → Except ε (ℕ × List Entry)) {wants prebuilt : Finset Text}
    (h : filterPackages t.combos t.targetManylinux httpGet needbuild (scanLogs logDir)
      (parsePrebuiltCache content t.header) = .ok (wants, prebuilt)) :
    (t' = t → parsePrebuiltCache (some (formatPrebuiltCache t.header prebuilt)) t'.header =
      prebuilt) ∧
    (t' ≠ t → parsePrebuiltCache (some (formatPrebuiltCache t.header prebuilt)) t'.header = ∅) := by
  have hstripped : ∀ e ∈ prebuilt, IsStripped e :=
    (filtered_filterPackages (fun p => isRelease_of_mem_scanLogs) h).isStripped
      (fun p hp => isRelease_of_mem_scanLogs (mem_sortedPackages.mp hp))
      fun e => isStripped_of_mem_parse
  constructor
  · rintro rfl
    exact parse_format_of_eq t'.isStripped_header hstripped
  · intro hne
    apply parse_format_of_ne t.isStripped_header hstripped
    intro heq
    exact hne (Target.header_inj heq).symm

/-! ### Two clusters -/

/-- A target with one interpreter. -/
def targetOf (version : {s : Text // ∀ c ∈ s, isBlank c = false}) : Target where
  targetPython := version.1
  targetArch := "x86_64".toList
  targetManylinux := "2_17".toList
  isBlank_python := version.2
  isBlank_arch := by decide
  isBlank_manylinux := by decide

def target310 : Target := targetOf ⟨"3.10".toList, by decide⟩

def target311 : Target := targetOf ⟨"3.11".toList, by decide⟩

/-- A log that tells one download. -/
def downloadLog : List LogFile :=
  [⟨"access.log".toList, true, ["\"GET /cpu/foo-2.0-py3-none-any.whl HTTP/1.1\"".toList]⟩]

/-- The release that it tells. -/
def foo : Package := ("foo".toList, "2.0".toList)

theorem scanLogs_downloadLog : scanLogs downloadLog = {foo} := by decide +kernel

/-- A release that the index does not know needs no build. -/
theorem filterPackages_downloadLog (matrix : Finset (Text × Text)) (target : Text)
    (prebuilt : Finset Text) (h : entryOf foo ∉ prebuilt) :
    filterPackages matrix target (fun _ => (.ok (404, []) : Except Empty (ℕ × List Entry))) ∅
      (scanLogs downloadLog) prebuilt = .ok (∅, insert (entryOf foo) prebuilt) := by
  have hsorted : sortedPackages {foo} = [foo] := by simp [sortedPackages]
  rw [scanLogs_downloadLog, filterPackages, hsorted, List.foldlM_cons, filterPackage,
    if_neg (Finset.notMem_empty _), if_neg h]
  rfl

theorem parse_format_downloadLog :
    parsePrebuiltCache (some (formatPrebuiltCache target310.header {"foo==2.0".toList}))
        target310.header = {"foo==2.0".toList} ∧
      parsePrebuiltCache (some (formatPrebuiltCache target310.header {"foo==2.0".toList}))
        target311.header = ∅ := by
  have hfilter := filterPackages_downloadLog target310.combos target310.targetManylinux ∅
    (Finset.notMem_empty _)
  have hne : target311 ≠ target310 := fun h =>
    absurd (congrArg Target.targetPython h) (by decide)
  exact ⟨(parse_format_filterPackages target310 target310 downloadLog none ∅ _ hfilter).1 rfl,
    (parse_format_filterPackages target310 target311 downloadLog none ∅ _ hfilter).2 hne⟩

end WantsCollector

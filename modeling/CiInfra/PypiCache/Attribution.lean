import CiInfra.PypiCache.FileReadings

/-!
# To which release a download is attributed

A line of the log holds one request, for the file of a release. The line is attributed to the
release of the last part of the path that can be read as one: this is the file, when it can be read,
and otherwise a directory. Without any such part a path under `simple` counts as a query.
-/

namespace WantsCollector

open Regex Separators

/-- A line of the log. -/
structure LogLine where
  before : Text
  path : Text
  file : ReleaseFile
  after : Text
  path_ne_nil : path ≠ []
  path_visible : ∀ c ∈ path, isSpace c = false
  once : ∀ s ∈ (before ++ ("GET /".toList ++ (path ++ '/' :: (file.text ++
      " HTTP/".toList ++ after)))).tails, "GET /".toList <+: s →
    s = "GET /".toList ++ (path ++ '/' :: (file.text ++ " HTTP/".toList ++ after))

namespace LogLine

/-- What follows the path. -/
def fileText (l : LogLine) : Text := l.file.text ++ " HTTP/".toList ++ l.after

def request (l : LogLine) : Text := l.path ++ '/' :: l.fileText

def text (l : LogLine) : Text := l.before ++ ("GET /".toList ++ l.request)

/-- The line is attributed to the release of the file, or to none. -/
def AttributedRight (l : LogLine) : Prop :=
  parseLogLine l.text = none ∨
    parseLogLine l.text = some (normalizeName l.file.name, l.file.version.text)

variable {l : LogLine} {name version : Text}

theorem only (l : LogLine) (u v : Text) (h : l.text = u ++ v) (hlit : "GET /".toList <+: v) :
    u = l.before := by
  have hsuffix : v ∈ l.text.tails := (List.mem_tails _ _).mpr ⟨u, h.symm⟩
  obtain rfl : v = "GET /".toList ++ l.request := l.once v hsuffix hlit
  exact (List.append_cancel_right h).symm

/-- The file can be read from the line as it can be read by itself. -/
theorem reads_fileText_iff : Reads l.fileText name version ↔ Reads l.file.text name version := by
  have hsplit : l.fileText =
      (l.file.text ++ [' '] ++ ['H'] ++ ['T'] ++ ['T'] ++ ['P']) ++ '/' :: l.after := by
    simp [fileText]
  rw [hsplit, reads_append_slash_iff, reads_concat_iff (by decide), reads_concat_iff (by decide),
    reads_concat_iff (by decide), reads_concat_iff (by decide), reads_concat_iff (by decide)]

/-- What follows a slash of the path, which is not its first character. -/
def Below (path t : Text) : Prop := ∃ before, path = before ++ '/' :: t ∧ before ≠ []

/-- The parts of a request are the file and what follows the slashes of the path. -/
theorem isPart_request_iff {t : Text} :
    IsPart l.request t ↔ t = l.fileText ∨ ∃ s, Below l.path s ∧ t = s ++ '/' :: l.fileText := by
  constructor
  · rintro ⟨before, hsplit, hne, hvisible⟩
    rcases List.append_eq_append_iff.mp hsplit with ⟨z, rfl, hz⟩ | ⟨z, hpath, hz⟩
    · cases z with
      | nil => exact Or.inl (List.cons.inj hz).2.symm
      | cons c z =>
        obtain ⟨rfl, hfile⟩ := List.cons.inj hz
        -- A blank precedes every slash that follows the file.
        have hblank : z ++ ['/'] <+: l.file.text := by
          refine prefix_of_not_mem (c := ' ') (x := "HTTP/".toList ++ l.after) ⟨t, ?_⟩ fun h => ?_
          · simpa [fileText] using hfile.symm
          · rcases List.mem_append.mp h with h | h
            · exact absurd (hvisible ' ' (by simp [h])) (by decide)
            · exact absurd h (by decide)
        exact absurd (hblank.mem (by simp)) l.file.slash_not_mem_text
    · cases z with
      | nil => exact Or.inl (List.cons.inj hz).2
      | cons c z =>
        obtain ⟨rfl, ht⟩ := List.cons.inj hz
        exact Or.inr ⟨z, ⟨before, hpath, hne⟩, ht⟩
  · rintro (rfl | ⟨s, ⟨before, hpath, hne⟩, rfl⟩)
    · exact ⟨l.path, rfl, l.path_ne_nil, l.path_visible⟩
    · exact ⟨before, by simp [request, hpath], hne, fun c hc =>
        l.path_visible c (by simp [hpath, hc])⟩

/-- The path is one that a query for a package has. -/
def IsQuery (path : Text) : Prop :=
  path = "simple".toList ∨ ∃ c s, path = "simple/".toList ++ c :: s ∧ c ≠ '/'

theorem search_reSimple_eq_none_iff_not_isQuery :
    reSimple.search l.text = none ↔ ¬ IsQuery l.path := by
  rw [@search_reSimple_eq_none_iff l.text _ _ rfl l.only, not_iff_not]
  constructor
  · rintro ⟨name, rest, hrequest, hne, hslash⟩
    rcases List.append_eq_append_iff.mp (show l.path ++ '/' :: l.fileText = "simple".toList ++
        '/' :: (name ++ '/' :: rest) from hrequest) with ⟨z, hz, hfile⟩ | ⟨z, hz, hfile⟩
    · cases z with
      | nil => exact Or.inl (by simpa using hz.symm)
      | cons c z =>
        obtain ⟨rfl, -⟩ := List.cons.inj hfile
        exact absurd (show '/' ∈ "simple".toList by rw [hz]; simp) (by decide)
    · cases z with
      | nil => exact Or.inl (by simpa using hz)
      | cons c z =>
        obtain ⟨rfl, hname⟩ := List.cons.inj hfile
        obtain ⟨d, name, rfl⟩ := List.exists_cons_of_ne_nil hne
        have hd : d ≠ '/' := fun h => hslash (by simp [h])
        cases z with
        | nil => exact absurd (List.cons.inj hname).1 hd
        | cons e z =>
          obtain ⟨rfl, -⟩ := List.cons.inj hname
          exact Or.inr ⟨d, z, hz, hd⟩
  · rintro (hpath | ⟨c, s, hpath, hc⟩)
    · refine ⟨l.file.text ++ " HTTP".toList, l.after, by simp [request, fileText, hpath], by simp,
        ?_⟩
      rw [List.mem_append, not_or]
      exact ⟨l.file.slash_not_mem_text, by decide⟩
    · obtain ⟨name, rest, hsplit, hslash⟩ := List.eq_append_cons_of_mem
        (show '/' ∈ c :: s ++ '/' :: l.fileText by simp)
      refine ⟨name, rest, by rw [request, hpath, List.append_assoc, hsplit], ?_, hslash⟩
      rintro rfl
      exact hc (List.cons.inj hsplit).1

/-- The file is a wheel that its name attributes to its release. -/
def FileAttributed : ReleaseFile → Prop
  | .wheel w => w.IsAttributed
  | .sdist _ => False

/-- The last directory that can be read as a release is read as this one. -/
def DirectoryAttributed (l : LogLine) : Prop :=
  ∃ s, Below l.path s ∧
    (∃ name, Preferred s name l.file.version.text ∧
      normalizeName name = normalizeName l.file.name) ∧
    ∀ s', Below l.path s' → (∃ name version, Reads s' name version) → s.length ≤ s'.length

theorem below_eq {path s s' : Text} (hs : Below path s) (hs' : Below path s')
    (h : s.length ≤ s'.length) (h' : s'.length ≤ s.length) : s = s' := by
  obtain ⟨before, hpath, -⟩ := hs
  obtain ⟨before', hpath', -⟩ := hs'
  have htail := (List.append_inj' (hpath.symm.trans hpath')
    (congrArg (· + 1) (Nat.le_antisymm h h'))).2
  exact (List.cons.inj htail).2

/-- A match decides what the line is attributed to. -/
theorem attributedRight_of_search {m : Way} (h : reDownload.search l.text = some m) :
    l.AttributedRight ↔ normalizeName (m.capture 1) = normalizeName l.file.name ∧
      m.capture 2 = l.file.version.text := by
  simp [AttributedRight, parseLogLine, h]

/-- A file that can be read decides. -/
theorem attributedRight_of_reads (h : ∃ name version, Reads l.file.text name version) :
    l.AttributedRight ↔ FileAttributed l.file := by
  have hfile : IsPart l.request l.fileText := isPart_request_iff.mpr (Or.inl rfl)
  have hreads : ∃ name version, Reads l.fileText name version := by
    obtain ⟨name, version, h⟩ := h
    exact ⟨name, version, reads_fileText_iff.mpr h⟩
  cases hsearch : reDownload.search l.text with
  | none =>
    obtain ⟨name, version, hreads⟩ := hreads
    exact absurd hreads
      ((search_reDownload_eq_none_iff rfl l.only).mp hsearch _ hfile name version)
  | some m =>
    obtain ⟨t, ht, hpreferred, hlast⟩ := exists_preferred_of_search_reDownload rfl l.only hsearch
    obtain rfl : t = l.fileText := by
      refine (isPart_request_iff.mp ht).resolve_right ?_
      rintro ⟨s, -, rfl⟩
      have hlength := hlast _ hfile hreads
      simp only [List.length_append, List.length_cons] at hlength
      omega
    have hpreferred := hpreferred.congr reads_fileText_iff
    rw [attributedRight_of_search hsearch]
    cases hkind : l.file with
    | wheel w =>
      rw [hkind] at hpreferred
      exact Wheel.eq_iff_of_preferred hpreferred
    | sdist s =>
      rw [hkind] at hpreferred
      exact iff_of_false (Sdist.ne_of_reads hpreferred.reads) id

/-- A file that cannot be read leaves it to the directories, and then to queries. -/
theorem attributedRight_of_not_reads (h : ¬ ∃ name version, Reads l.file.text name version) :
    l.AttributedRight ↔
      (∀ s, Below l.path s → ∀ name version, ¬ Reads s name version) ∧ ¬ IsQuery l.path ∨
        l.DirectoryAttributed := by
  cases hsearch : reDownload.search l.text with
  | none =>
    have hnone := (search_reDownload_eq_none_iff rfl l.only).mp hsearch
    have hbelow (s : Text) (hs : Below l.path s) (name version : Text) :
        ¬ Reads s name version := fun hreads =>
      hnone _ (isPart_request_iff.mpr (Or.inr ⟨s, hs, rfl⟩)) name version
        (reads_append_slash_iff.mpr hreads)
    have hright : l.AttributedRight ↔ ¬ IsQuery l.path := by
      rw [← search_reSimple_eq_none_iff_not_isQuery]
      have hne : l.file.version.text ≠ [] := by
        obtain ⟨c, hc, -⟩ := l.file.version.begins.exists_mem
        exact List.ne_nil_of_mem hc
      cases hsimple : reSimple.search l.text with
      | none => simp [AttributedRight, parseLogLine, hsearch, hsimple]
      | some m => simp [AttributedRight, parseLogLine, hsearch, hsimple, hne.symm]
    rw [hright]
    constructor
    · exact fun hquery => Or.inl ⟨hbelow, hquery⟩
    · rintro (⟨-, hquery⟩ | ⟨s, hs, ⟨name, hpreferred, -⟩, -⟩)
      · exact hquery
      · exact absurd hpreferred.reads (hbelow s hs _ _)
  | some m =>
    obtain ⟨t, ht, hpreferred, hlast⟩ := exists_preferred_of_search_reDownload rfl l.only hsearch
    have hdirectory : ∃ s, Below l.path s ∧ t = s ++ '/' :: l.fileText := by
      refine (isPart_request_iff.mp ht).resolve_left ?_
      rintro rfl
      exact h ⟨_, _, reads_fileText_iff.mp hpreferred.reads⟩
    obtain ⟨s, hs, rfl⟩ := hdirectory
    have hpreferred := hpreferred.congr reads_append_slash_iff
    have hlast (s' : Text) (hs' : Below l.path s')
        (hreads : ∃ name version, Reads s' name version) : s.length ≤ s'.length := by
      obtain ⟨name, version, hreads⟩ := hreads
      have hlength := hlast _ (isPart_request_iff.mpr (Or.inr ⟨s', hs', rfl⟩))
        ⟨name, version, reads_append_slash_iff.mpr hreads⟩
      simp only [List.length_append] at hlength
      omega
    rw [attributedRight_of_search hsearch]
    constructor
    · rintro ⟨hname, hversion⟩
      exact Or.inr ⟨s, hs, ⟨m.capture 1, hversion ▸ hpreferred, hname⟩, hlast⟩
    · rintro (⟨hnone, -⟩ | ⟨s', hs', ⟨name, hpreferred', hname⟩, hlast'⟩)
      · exact absurd hpreferred.reads (hnone s hs _ _)
      · obtain rfl := below_eq hs hs' (hlast s' hs' ⟨_, _, hpreferred'.reads⟩)
          (hlast' s hs ⟨_, _, hpreferred.reads⟩)
        obtain ⟨hname', hversion⟩ := hpreferred.unique hpreferred'
        exact ⟨hname' ▸ hname, hversion⟩

/-- When a line is attributed to the right release or to none. -/
theorem attributedRight_iff (l : LogLine) :
    l.AttributedRight ↔ FileAttributed l.file ∨
      (∀ name version, ¬ Reads l.file.text name version) ∧
        ((∀ s, Below l.path s → ∀ name version, ¬ Reads s name version) ∧ ¬ IsQuery l.path ∨
          l.DirectoryAttributed) := by
  have hfile : FileAttributed l.file → ∃ name version, Reads l.file.text name version := by
    cases l.file with
    | wheel w => exact Wheel.exists_reads_of_isAttributed
    | sdist s => exact False.elim
  by_cases h : ∃ name version, Reads l.file.text name version
  · rw [attributedRight_of_reads h]
    refine (or_iff_left ?_).symm
    obtain ⟨name, version, hreads⟩ := h
    exact fun hnone => hnone.1 name version hreads
  · have hnone (name version : Text) : ¬ Reads l.file.text name version := fun hreads =>
      h ⟨name, version, hreads⟩
    rw [attributedRight_of_not_reads h, or_iff_right (mt hfile h)]
    exact (and_iff_right hnone).symm

/-- A wheel with a local part in its version. -/
def localWheel : Wheel where
  name := "torch".toList
  name_ne_nil := by decide
  name_chars := by decide
  version := ⟨"2.5.0+cpu".toList, by decide, by decide⟩
  build := none
  python := ⟨⟨"cp312".toList, by decide, by decide⟩, by decide⟩
  abi := ⟨⟨"cp312".toList, by decide, by decide⟩, by decide⟩
  platform := ⟨⟨"linux_x86_64".toList, by decide, by decide⟩, by decide⟩

def localWheelLine : LogLine where
  before := "\"".toList
  path := "cpu".toList
  file := .wheel localWheel
  after := "1.1\" 200".toList
  path_ne_nil := by decide
  path_visible := by decide
  once := by decide +kernel

/-- The local part is cut off, and with it the last number. -/
theorem not_attributedRight_localWheelLine : ¬ localWheelLine.AttributedRight := by
  have hparse : parseLogLine localWheelLine.text = some ("torch".toList, "2.5".toList) := by
    decide +kernel
  rintro (h | h)
  · rw [hparse] at h
    cases h
  · rw [hparse] at h
    exact absurd (congrArg Prod.snd (Option.some.inj h)) (by decide)

end LogLine

end WantsCollector

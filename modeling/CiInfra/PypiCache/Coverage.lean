import CiInfra.PypiCache.PlatformReadings

/-!
# When a release counts as built

The answer depends on what the collector reads from the names of the wheels, and this on the order
of the tags in a name. So the answer can only be right in every order when each pair is covered in
every order, or when in no order all pairs are.
-/

namespace WantsCollector

/-- A file of a release: a wheel, or something else. -/
inductive ListedFile
  | wheel (w : TaggedWheel)
  | other (e : Entry) (not_wheel : e.isWheel = false)

namespace ListedFile

def entry : ListedFile → Entry
  | wheel w => w.entry
  | other e _ => e

/-- The wheels among the files. -/
def wheels (files : List ListedFile) : List TaggedWheel :=
  files.filterMap fun
    | wheel w => some w
    | other _ _ => none

end ListedFile

/-- What the release is to be built for. -/
structure BuildTarget where
  pairs : List (Interpreter × Arch)
  major : Number
  minor : Number

namespace BuildTarget

def matrix (t : BuildTarget) : Finset (Text × Text) :=
  (t.pairs.map fun pair => (pair.1.text, pair.2.text)).toFinset

def text (t : BuildTarget) : Text := t.major.1 ++ '_' :: t.minor.1

def glibc (t : BuildTarget) : ℤ × ℤ :=
  (PythonNumber.digitsValue t.major.1, PythonNumber.digitsValue t.minor.1)

theorem targetVersion_text (t : BuildTarget) : targetVersion t.text = some t.glibc := by
  have hline (n : Number) : '_' ∉ n.1 := fun h => absurd (n.2.2 _ h) (by decide)
  rw [targetVersion, text, List.splitOn_append_cons_self_of_not_mem (hline _),
    List.splitOn_eq_singleton (hline _)]
  simp [int?_number, glibc]

end BuildTarget

/-- The answer about a package of which the index has the files. -/
def checkFiles (package version : Text) (t : BuildTarget) (files : List ListedFile) :
    Except (PypiError Empty) Bool :=
  checkPypi package version t.matrix t.text fun _ => .ok (200, files.map ListedFile.entry)

variable {package version : Text} {t : BuildTarget} {files : List ListedFile}

/-- The collector counts the pair as covered by the wheel. -/
def Covers (t : BuildTarget) (w : TaggedWheel) (i : Interpreter) (a : Arch) : Prop :=
  i.text <:+: dotted w.python ∧ ReadAs t.glibc w.platform a

/-! ### What is covered -/

/-- A set of pairs that are covered, of the matrix and by some of the wheels. -/
structure CoveredBy (t : BuildTarget) (wheels : List TaggedWheel)
    (covered : Finset (Text × Text)) : Prop where
  subset : covered ⊆ t.matrix
  mem_iff : ∀ i a, (i, a) ∈ t.pairs →
    ((i.text, a.text) ∈ covered ↔ ∃ w ∈ wheels, Covers t w i a)

theorem BuildTarget.mem_matrix {i : Interpreter} {a : Arch} (h : (i, a) ∈ t.pairs) :
    (i.text, a.text) ∈ t.matrix :=
  List.mem_toFinset.mpr (List.mem_map.mpr ⟨(i, a), h, rfl⟩)

theorem exists_cover_wheel {covered : Finset (Text × Text)} {wheels : List TaggedWheel}
    (h : CoveredBy t wheels covered) (w : TaggedWheel) :
    ∃ covered', cover t.matrix t.text covered w.entry = some covered' ∧
      CoveredBy t (w :: wheels) covered' := by
  obtain ⟨x, y, rest, hparts⟩ := w.exists_partsOf_eq
  obtain ⟨compatible, arch, hcompatible, hread⟩ :=
    exists_isManylinuxCompatible_eq t.targetVersion_text w.platform
  have hcover : cover t.matrix t.text covered w.entry =
      some (if compatible = true then arch.elim covered fun arch =>
          covered ∪ t.matrix.filter fun pair => arch = pair.2 ∧ pair.1 <:+: dotted w.python
        else covered) := by
    have hwheel : w.entry.isWheel = true := decide_eq_true rfl
    have hfilename : w.entry.filename = w.text := rfl
    rw [cover, if_pos hwheel, hfilename, hparts]
    simp only [hcompatible]
    cases compatible <;> cases arch <;> rfl
  refine ⟨_, hcover, ?_, fun i a hpair => ?_⟩
  · split
    · cases arch with
      | none => exact h.subset
      | some arch => exact Finset.union_subset h.subset (Finset.filter_subset _ _)
    · exact h.subset
  · have hcovers : Covers t w i a ↔
        i.text <:+: dotted w.python ∧ compatible = true ∧ arch = some a.text :=
      and_congr_right fun _ => (hread a).symm
    simp only [List.exists_mem_cons_iff, hcovers, ← h.mem_iff i a hpair]
    cases compatible with
    | false => exact (or_iff_right fun h => by cases h.2.1).symm
    | true =>
      cases arch with
      | none => exact (or_iff_right fun h => by cases h.2.2).symm
      | some arch =>
        rw [if_pos rfl, Option.elim_some, Finset.mem_union, Finset.mem_filter, or_comm]
        simp [BuildTarget.mem_matrix hpair, and_comm]

/-- The files are gone through, and each wheel adds what it covers. -/
theorem exists_foldlM_cover (files : List ListedFile) {covered : Finset (Text × Text)}
    {wheels : List TaggedWheel} (h : CoveredBy t wheels covered) :
    ∃ covered', (files.map ListedFile.entry).foldlM (cover t.matrix t.text) covered =
        some covered' ∧
      CoveredBy t (wheels ++ ListedFile.wheels files) covered' := by
  induction files generalizing covered wheels with
  | nil => exact ⟨covered, rfl, by simpa [ListedFile.wheels] using h⟩
  | cons f files ih =>
    cases f with
    | wheel w =>
      obtain ⟨covered₁, hcover, hcovered₁⟩ := exists_cover_wheel h w
      obtain ⟨covered', hfold, hcovered'⟩ := ih hcovered₁
      refine ⟨covered', ?_, hcovered'.subset, fun i a hpair => ?_⟩
      · rw [List.map_cons, List.foldlM_cons, ListedFile.entry, hcover]
        exact hfold
      · rw [hcovered'.mem_iff i a hpair]
        simp only [ListedFile.wheels, List.filterMap_cons, List.cons_append, List.mem_cons,
          List.mem_append]
        refine exists_congr fun v => and_congr_left fun _ => ?_
        rw [← or_assoc, ← or_assoc, or_comm (a := v = w)]
    | other e hother =>
      obtain ⟨covered', hfold, hcovered'⟩ := ih h
      refine ⟨covered', ?_, hcovered'⟩
      have hcover : cover t.matrix t.text covered e = some covered := by
        rw [cover, if_neg (by simp [hother])]
        rfl
      rw [List.map_cons, List.foldlM_cons, ListedFile.entry, hcover]
      exact hfold

/-- Without a wheel of pure Python the answer is that nothing has to be built exactly when each pair
is covered by some wheel. -/
theorem checkFiles_eq (hpure : ∀ w ∈ ListedFile.wheels files, ¬ w.IsPurePython) :
    ∃ build, checkFiles package version t files = .ok build ∧
      (build = false ↔ ∀ i a, (i, a) ∈ t.pairs →
        ∃ w ∈ ListedFile.wheels files, Covers t w i a) := by
  have hno : ((files.map ListedFile.entry).any fun e => e.isWheel && isPurePython e.filename) =
      false := by
    rw [List.any_eq_false]
    intro e he
    obtain ⟨f, hf, rfl⟩ := List.mem_map.mp he
    cases f with
    | wheel w =>
      have hmem : w ∈ ListedFile.wheels files := List.mem_filterMap.mpr ⟨.wheel w, hf, rfl⟩
      have hname : isPurePython w.entry.filename = false :=
        Bool.eq_false_iff.mpr fun h =>
          hpure w hmem (TaggedWheel.isPurePython_of_isPurePython_text h)
      simp [ListedFile.entry, hname]
    | other e hother => simp [ListedFile.entry, hother]
  have hempty : CoveredBy t [] ∅ :=
    ⟨Finset.empty_subset _, fun i a _ => by simp⟩
  obtain ⟨covered, hfold, hcovered⟩ := exists_foldlM_cover files hempty
  refine ⟨covered ≠ t.matrix, ?_, ?_⟩
  · rw [checkFiles, checkPypi]
    simp [hno, hfold]
  · rw [decide_eq_false_iff_not, not_not]
    constructor
    · rintro heq i a hpair
      exact (hcovered.mem_iff i a hpair).mp (heq ▸ BuildTarget.mem_matrix hpair)
    · intro hall
      refine Finset.Subset.antisymm hcovered.subset fun pair hmem => ?_
      obtain ⟨⟨i, a⟩, hpair, rfl⟩ := List.mem_map.mp (List.mem_toFinset.mp hmem)
      exact (hcovered.mem_iff i a hpair).mpr (hall i a hpair)

/-! ### Orders of tags -/

section Orders

variable {target : ℤ × ℤ} {tags tags' : List PlatformTag} {k : LegacyAlias} {a b : Arch}

theorem HasAlias.perm (h : HasAlias tags k) (hperm : tags.Perm tags') : HasAlias tags' k :=
  h.imp fun _ => hperm.mem_iff.mp

theorem OldestAlias.perm (h : OldestAlias tags k) (hperm : tags.Perm tags') :
    OldestAlias tags' k :=
  ⟨h.1.perm hperm, fun j hj => h.2 j (hj.perm hperm.symm)⟩

/-- In every order of the tags the set is read as this architecture: all tags are one alias with the
architecture, or there is no alias and all manylinux tags are within the target and have the
architecture. -/
def ReadAlways (target : ℤ × ℤ) (tags : List PlatformTag) (a : Arch) : Prop :=
  (∃ tag ∈ tags, tag.IsLinux) ∧
    ((∃ k, versionLe k.version target = true ∧ ∀ tag ∈ tags, tag = .linux (.legacy k) a) ∨
      (∀ k, ¬ HasAlias tags k) ∧
        ∀ g b, .linux g b ∈ tags → b = a ∧ versionLe g.version target = true)

/-- In some order it is: a tag with the oldest alias has the architecture, or there is no alias and
some manylinux tag has it. -/
def ReadSometimes (target : ℤ × ℤ) (tags : List PlatformTag) (a : Arch) : Prop :=
  ∃ g, .linux g a ∈ tags ∧ versionLe g.version target = true ∧
    ∀ k, OldestAlias tags k → g = .legacy k

/-- A set of tags is read as one architecture at most. -/
theorem ReadAs.unique (ha : ReadAs target tags a) (hb : ReadAs target tags b) : a = b := by
  rcases ha with ⟨k, hk, hlast, -⟩ | ⟨before, after, g, hnone, hsplit, hbefore, -⟩
  · rcases hb with ⟨j, hj, hlast', -⟩ | ⟨before, after, g, hnone, -, -, -⟩
    · exact (PlatformTag.linux.inj (Option.some.inj (hlast.symm.trans hlast'))).2
    · exact absurd hk.1 (hnone k)
  · rcases hb with ⟨j, hj, -, -⟩ | ⟨before', after', g', -, hsplit', hbefore', -⟩
    · exact absurd hj.1 (hnone j)
    · exact (PlatformTag.linux.inj (first_unique (hsplit.symm.trans hsplit') hbefore hbefore'
        ⟨_, _, rfl⟩ ⟨_, _, rfl⟩)).2

theorem ReadAlways.readAs (h : ReadAlways target tags a) (hperm : tags.Perm tags') :
    ReadAs target tags' a := by
  obtain ⟨⟨tag, htag, g, b, rfl⟩, ⟨k, hle, hall⟩ | ⟨hnone, hall⟩⟩ := h
  · have hall' : ∀ tag ∈ tags', tag = .linux (.legacy k) a := fun tag h =>
      hall tag (hperm.mem_iff.mpr h)
    have hk : OldestAlias tags' k := by
      refine ⟨⟨a, hall _ htag ▸ hperm.mem_iff.mp htag⟩, fun j hj => ?_⟩
      obtain ⟨b, hb⟩ := hj
      obtain ⟨hj, -⟩ := PlatformTag.linux.inj (hall' _ hb)
      obtain rfl := Glibc.legacy.inj hj
      cases j <;> rfl
    refine .last k hk ?_ hle
    cases hlast : tags'.getLast? with
    | none =>
      rw [List.getLast?_eq_none_iff.mp hlast] at hperm
      rw [hperm.eq_nil] at htag
      cases htag
    | some tag => rw [hall' tag (List.mem_of_getLast? hlast)]
  · obtain ⟨before, g', b', after, hsplit, hbefore⟩ :=
      exists_first_linux ⟨_, hperm.mem_iff.mp htag, g, b, rfl⟩
    obtain ⟨rfl, hle⟩ := hall g' b' (hperm.mem_iff.mpr (by rw [hsplit]; simp))
    exact .first before after g' (fun k hk => hnone k (hk.perm hperm.symm)) hsplit hbefore hle

/-- Otherwise an order shows it. -/
theorem exists_not_readAs (h : ¬ ReadAlways target tags a) :
    ∃ tags', tags.Perm tags' ∧ ¬ ReadAs target tags' a := by
  by_contra hall
  have hread (tags' : List PlatformTag) (hperm : tags.Perm tags') : ReadAs target tags' a := by
    by_contra hnot
    exact hall ⟨tags', hperm, hnot⟩
  refine h ⟨?_, ?_⟩
  · rcases hread tags (List.Perm.refl _) with
      ⟨k, hk, hlast, -⟩ | ⟨before, after, g, -, hsplit, -, -⟩
    · exact ⟨_, List.mem_of_getLast? hlast, _, _, rfl⟩
    · exact ⟨.linux g a, by rw [hsplit]; simp, _, _, rfl⟩
  · by_cases halias : ∃ k, HasAlias tags k
    · left
      obtain ⟨k, hk⟩ := exists_oldestAlias halias
      have hlast {tags' : List PlatformTag} (hperm : tags.Perm tags') :
          tags'.getLast? = some (.linux (.legacy k) a) ∧ versionLe k.version target = true := by
        rcases hread tags' hperm with ⟨j, hj, hlast, hle⟩ | ⟨before, after, g, hnone, -, -, -⟩
        · obtain rfl := (hk.perm hperm).unique hj
          exact ⟨hlast, hle⟩
        · exact absurd (hk.perm hperm).1 (hnone k)
      refine ⟨k, (hlast (List.Perm.refl _)).2, fun tag htag => ?_⟩
      obtain ⟨s, t, rfl⟩ := List.append_of_mem htag
      have hperm : (s ++ tag :: t).Perm ((s ++ t) ++ [tag]) :=
        List.perm_middle.trans (List.perm_append_singleton tag (s ++ t)).symm
      have htag' := (hlast hperm).1
      rw [List.getLast?_concat] at htag'
      exact Option.some.inj htag'
    · right
      have hnone (k : LegacyAlias) : ¬ HasAlias tags k := fun h => halias ⟨k, h⟩
      refine ⟨hnone, fun g b hmem => ?_⟩
      obtain ⟨s, t, rfl⟩ := List.append_of_mem hmem
      have hperm : (s ++ .linux g b :: t).Perm (.linux g b :: (s ++ t)) := List.perm_middle
      rcases hread _ hperm with ⟨j, hj, -, -⟩ | ⟨before, after, g', -, hsplit, hbefore, hle⟩
      · exact absurd (hj.1.perm hperm.symm) (hnone j)
      · have hsplit' : [] ++ .linux g b :: (s ++ t) = before ++ .linux g' a :: after := hsplit
        have hfirst := first_unique hsplit' (fun z hz => by cases hz) hbefore
          ⟨_, _, rfl⟩ ⟨_, _, rfl⟩
        obtain ⟨rfl, rfl⟩ := PlatformTag.linux.inj hfirst
        exact ⟨rfl, hle⟩

theorem ReadAs.readSometimes (h : ReadAs target tags' a) (hperm : tags.Perm tags') :
    ReadSometimes target tags a := by
  rcases h with ⟨k, hk, hlast, hle⟩ | ⟨before, after, g, hnone, hsplit, -, hle⟩
  · refine ⟨.legacy k, hperm.mem_iff.mpr (List.mem_of_getLast? hlast), hle, fun j hj => ?_⟩
    rw [hk.unique (hj.perm hperm)]
  · refine ⟨g, hperm.mem_iff.mpr (by rw [hsplit]; simp), hle, fun j hj => ?_⟩
    exact absurd (hj.1.perm hperm) (hnone j)

theorem ReadSometimes.exists_readAs (h : ReadSometimes target tags a) :
    ∃ tags', tags.Perm tags' ∧ ReadAs target tags' a := by
  obtain ⟨g, hmem, hle, holdest⟩ := h
  obtain ⟨s, t, rfl⟩ := List.append_of_mem hmem
  by_cases halias : ∃ k, HasAlias (s ++ .linux g a :: t) k
  · obtain ⟨k, hk⟩ := exists_oldestAlias halias
    obtain rfl := holdest k hk
    have hperm : (s ++ .linux (.legacy k) a :: t).Perm ((s ++ t) ++ [.linux (.legacy k) a]) :=
      List.perm_middle.trans (List.perm_append_singleton _ (s ++ t)).symm
    exact ⟨_, hperm, .last k (hk.perm hperm) List.getLast?_concat hle⟩
  · have hperm : (s ++ .linux g a :: t).Perm (.linux g a :: (s ++ t)) := List.perm_middle
    exact ⟨_, hperm, .first [] (s ++ t) g (fun k hk => halias ⟨k, hk.perm hperm.symm⟩) rfl
      (fun tag h => by cases h) hle⟩

end Orders

/-! ### Orders of files -/

/-- The same file, apart from the order of the platform tags in its name. -/
inductive SameFile : ListedFile → ListedFile → Prop
  | wheel (w : TaggedWheel) (platform : List PlatformTag) (h : w.platform.Perm platform) :
    SameFile (.wheel w) (.wheel { w with platform })
  | other (e : Entry) (h : e.isWheel = false) : SameFile (.other e h) (.other e h)

/-- The same files, in another order and with other orders of the tags in their names. -/
def Reordered (files files' : List ListedFile) : Prop :=
  ∃ files₁, List.Forall₂ SameFile files files₁ ∧ files₁.Perm files'

/-- Every pair can install some wheel. -/
def AllInstallable (t : BuildTarget) (files : List ListedFile) : Prop :=
  ∀ i a, (i, a) ∈ t.pairs → ∃ w, .wheel w ∈ files ∧ w.Installable t.glibc i a

/-- Every pair is counted as covered. -/
def AllCovered (t : BuildTarget) (files : List ListedFile) : Prop :=
  ∀ i a, (i, a) ∈ t.pairs → ∃ w, .wheel w ∈ files ∧ Covers t w i a

/-- Nothing has to be built exactly when every pair can install a wheel, and no order matters. -/
structure AnsweredRight (package version : Text) (t : BuildTarget) (files : List ListedFile) :
    Prop where
  iff : checkFiles package version t files = .ok false ↔ AllInstallable t files
  order : ∀ files', Reordered files files' →
    checkFiles package version t files' = checkFiles package version t files

theorem mem_wheels {w : TaggedWheel} : w ∈ ListedFile.wheels files ↔ .wheel w ∈ files := by
  rw [ListedFile.wheels, List.mem_filterMap]
  constructor
  · rintro ⟨f, hf, hw⟩
    cases f with
    | wheel w' =>
      obtain rfl := Option.some.inj hw
      exact hf
    | other e h => cases hw
  · exact fun h => ⟨_, h, rfl⟩

/-- No file is a wheel of pure Python. -/
def NoPurePython (files : List ListedFile) : Prop := ∀ w, .wheel w ∈ files → ¬ w.IsPurePython

theorem exists_original {files' : List ListedFile} (h : List.Forall₂ SameFile files files')
    {w' : TaggedWheel} (hmem : .wheel w' ∈ files') :
    ∃ w, .wheel w ∈ files ∧ SameFile (.wheel w) (.wheel w') := by
  induction h with
  | nil => cases hmem
  | cons hsame _ ih =>
    rcases List.mem_cons.mp hmem with rfl | hmem
    · cases hsame with
      | wheel w platform hperm => exact ⟨w, List.mem_cons_self, .wheel w platform hperm⟩
    · obtain ⟨w, hw, hsame⟩ := ih hmem
      exact ⟨w, List.mem_cons_of_mem _ hw, hsame⟩

theorem exists_copy {files' : List ListedFile}
    (h : List.Forall₂ SameFile files files') {w : TaggedWheel} (hmem : .wheel w ∈ files) :
    ∃ w', .wheel w' ∈ files' ∧ SameFile (.wheel w) (.wheel w') := by
  induction h with
  | nil => cases hmem
  | cons hsame _ ih =>
    rcases List.mem_cons.mp hmem with rfl | hmem
    · cases hsame with
      | wheel w platform hperm => exact ⟨_, List.mem_cons_self, .wheel w platform hperm⟩
    · obtain ⟨w', hw', hsame⟩ := ih hmem
      exact ⟨w', List.mem_cons_of_mem _ hw', hsame⟩

theorem NoPurePython.reordered {files' : List ListedFile} (h : NoPurePython files)
    (hfiles : Reordered files files') : NoPurePython files' := by
  obtain ⟨files₁, hsame, hperm⟩ := hfiles
  intro w' hw' hpure
  obtain ⟨w, hw, hsame⟩ := exists_original hsame (hperm.mem_iff.mpr hw')
  cases hsame with
  | wheel _ platform hplatform => exact h w hw ⟨hpure.1, hplatform.mem_iff.mpr hpure.2⟩

/-- What is answered about the files in some order. -/
theorem exists_checkFiles_eq (package version : Text) (t : BuildTarget)
    (hpure : NoPurePython files) :
    ∃ build, checkFiles package version t files = .ok build ∧
      (build = false ↔ AllCovered t files) := by
  obtain ⟨build, hbuild, hiff⟩ := @checkFiles_eq package version t files fun w hw =>
    hpure w (mem_wheels.mp hw)
  refine ⟨build, hbuild, hiff.trans ?_⟩
  simp only [AllCovered, mem_wheels]

theorem reordered_refl (files : List ListedFile) : Reordered files files := by
  refine ⟨files, List.forall₂_same.mpr fun f _ => ?_, List.Perm.refl _⟩
  cases f with
  | wheel w => exact .wheel w w.platform (List.Perm.refl _)
  | other e h => exact .other e h

/-- The answer is right in every order. -/
theorem answeredRight_iff_forall (hpure : NoPurePython files) :
    AnsweredRight package version t files ↔
      ∀ files', Reordered files files' → (AllCovered t files' ↔ AllInstallable t files) := by
  have hanswer {files' : List ListedFile} (h : Reordered files files') :=
    exists_checkFiles_eq package version t (hpure.reordered h)
  obtain ⟨build, hbuild, hiff⟩ := hanswer (reordered_refl files)
  constructor
  · intro h files' hfiles'
    obtain ⟨build', hbuild', hiff'⟩ := hanswer hfiles'
    have hsame : build' = build :=
      Except.ok.inj (hbuild'.symm.trans ((h.order files' hfiles').trans hbuild))
    rw [← hiff', hsame, ← h.iff, hbuild, Except.ok.injEq]
  · intro h
    refine ⟨?_, fun files' hfiles' => ?_⟩
    · rw [hbuild, Except.ok.injEq, hiff, h files (reordered_refl files)]
    · obtain ⟨build', hbuild', hiff'⟩ := hanswer hfiles'
      rw [hbuild, hbuild', Except.ok.injEq]
      have hfalse : build' = false ↔ build = false := by
        rw [hiff', hiff, h files' hfiles', h files (reordered_refl files)]
      cases build <;> cases build' <;> simp_all

/-! ### What can be read in some order, and what in all orders -/

/-- What can be read from the name of the file in some order of its tags, if anything is. -/
def CanBeRead (t : BuildTarget) : ListedFile → Option Arch → Prop
  | .wheel w, r => ∀ a ∈ r, ReadSometimes t.glibc w.platform a
  | .other _ _, r => r = none

/-- A choice of what is read from the files covers the pair. -/
def Chosen (files : List ListedFile) (reading : List (Option Arch)) (i : Interpreter) (a : Arch) :
    Prop :=
  ∃ w, (.wheel w, some a) ∈ files.zip reading ∧ i.text <:+: dotted w.python

/-- In every order the pair is covered by this wheel. -/
def AlwaysCovers (t : BuildTarget) (w : TaggedWheel) (i : Interpreter) (a : Arch) : Prop :=
  i.text <:+: dotted w.python ∧ ReadAlways t.glibc w.platform a

theorem exists_order_of_canBeRead {reading : List (Option Arch)}
    (h : List.Forall₂ (CanBeRead t) files reading) :
    ∃ files', List.Forall₂ SameFile files files' ∧
      ∀ i a, Chosen files reading i a → ∃ w, .wheel w ∈ files' ∧ Covers t w i a := by
  induction h with
  | nil =>
    refine ⟨[], .nil, fun i a hchosen => ?_⟩
    obtain ⟨w, hw, -⟩ := hchosen
    cases hw
  | @cons f r files reading hf _ ih =>
    obtain ⟨files', hsame, hcovers⟩ := ih
    obtain ⟨f', hf', hread⟩ : ∃ f', SameFile f f' ∧ ∀ i a, Chosen [f] [r] i a →
        ∃ w, f' = .wheel w ∧ Covers t w i a := by
      cases f with
      | other e he =>
        refine ⟨_, .other e he, fun i a hchosen => ?_⟩
        obtain ⟨w, hw, -⟩ := hchosen
        cases List.mem_singleton.mp hw
      | wheel w =>
        cases r with
        | none =>
          refine ⟨_, .wheel w w.platform (List.Perm.refl _), fun i a hchosen => ?_⟩
          obtain ⟨v, hv, -⟩ := hchosen
          cases List.mem_singleton.mp hv
        | some b =>
          obtain ⟨tags, hperm, hread⟩ := (hf b rfl).exists_readAs
          refine ⟨_, .wheel w tags hperm, fun i a hchosen => ?_⟩
          obtain ⟨v, hv, hpython⟩ := hchosen
          cases List.mem_singleton.mp hv
          exact ⟨_, rfl, hpython, hread⟩
    refine ⟨f' :: files', .cons hf' hsame, fun i a hchosen => ?_⟩
    obtain ⟨w, hw, hpython⟩ := hchosen
    rcases List.mem_cons.mp hw with hw | hw
    · obtain ⟨w', rfl, hw'⟩ := hread i a ⟨w, List.mem_singleton.mpr hw, hpython⟩
      exact ⟨w', List.mem_cons_self, hw'⟩
    · obtain ⟨w', hmem, hw'⟩ := hcovers i a ⟨w, hw, hpython⟩
      exact ⟨w', List.mem_cons_of_mem _ hmem, hw'⟩

theorem exists_canBeRead_of_order {files' : List ListedFile}
    (h : List.Forall₂ SameFile files files') :
    ∃ reading, List.Forall₂ (CanBeRead t) files reading ∧
      ∀ i a, (∃ w, .wheel w ∈ files' ∧ Covers t w i a) → Chosen files reading i a := by
  induction h with
  | nil =>
    refine ⟨[], .nil, fun i a hcovers => ?_⟩
    obtain ⟨w, hw, -⟩ := hcovers
    cases hw
  | @cons f f' files files' hf _ ih =>
    obtain ⟨reading, hreading, hchosen⟩ := ih
    obtain ⟨r, hr, hread⟩ : ∃ r, CanBeRead t f r ∧ ∀ w i a, f' = .wheel w → Covers t w i a →
        Chosen [f] [r] i a := by
      cases hf with
      | other e he => exact ⟨none, rfl, fun w i a hw => by cases hw⟩
      | wheel w tags hperm =>
        by_cases hread : ∃ b, ReadAs t.glibc tags b
        · obtain ⟨b, hb⟩ := hread
          refine ⟨some b, fun a ha => ?_, fun v i a hv hcovers => ?_⟩
          · obtain rfl := Option.some.inj ha
            exact hb.readSometimes hperm
          · cases hv
            obtain rfl := hb.unique hcovers.2
            exact ⟨w, List.mem_singleton.mpr rfl, hcovers.1⟩
        · refine ⟨none, (fun a ha => by cases ha), fun v i a hv hcovers => ?_⟩
          cases hv
          exact absurd ⟨a, hcovers.2⟩ hread
    refine ⟨r :: reading, .cons hr hreading, fun i a hcovers => ?_⟩
    obtain ⟨w', hw', hcovers⟩ := hcovers
    rcases List.mem_cons.mp hw' with hw' | hw'
    · obtain ⟨w, hw, hpython⟩ := hread w' i a hw'.symm hcovers
      exact ⟨w, List.mem_cons.mpr (Or.inl (List.mem_singleton.mp hw)), hpython⟩
    · obtain ⟨w, hw, hpython⟩ := hchosen i a ⟨w', hw', hcovers⟩
      exact ⟨w, List.mem_cons_of_mem _ hw, hpython⟩

/-- An order in which nothing more than what is always covered covers the pair. -/
theorem exists_order_against (t : BuildTarget) (files : List ListedFile) (i : Interpreter)
    (a : Arch) :
    ∃ files', List.Forall₂ SameFile files files' ∧
      ((∃ w, .wheel w ∈ files' ∧ Covers t w i a) →
        ∃ w, .wheel w ∈ files ∧ AlwaysCovers t w i a) := by
  induction files with
  | nil =>
    refine ⟨[], .nil, fun hcovers => ?_⟩
    obtain ⟨w, hw, -⟩ := hcovers
    cases hw
  | cons f files ih =>
    obtain ⟨files', hsame, hcovers⟩ := ih
    obtain ⟨f', hf', halways⟩ : ∃ f', SameFile f f' ∧ ∀ w', f' = .wheel w' → Covers t w' i a →
        ∃ w, f = .wheel w ∧ AlwaysCovers t w i a := by
      cases f with
      | other e he => exact ⟨_, .other e he, fun w' hw' => by cases hw'⟩
      | wheel w =>
        by_cases hread : ReadAlways t.glibc w.platform a
        · refine ⟨_, .wheel w w.platform (List.Perm.refl _), fun w' hw' hcovers => ?_⟩
          cases hw'
          exact ⟨w, rfl, hcovers.1, hread⟩
        · obtain ⟨tags, hperm, hnot⟩ := exists_not_readAs hread
          refine ⟨_, .wheel w tags hperm, fun w' hw' hcovers => ?_⟩
          cases hw'
          exact absurd hcovers.2 hnot
    refine ⟨f' :: files', .cons hf' hsame, fun hmem => ?_⟩
    obtain ⟨w', hw', hw'covers⟩ := hmem
    rcases List.mem_cons.mp hw' with hw' | hw'
    · obtain ⟨w, rfl, hw⟩ := halways w' hw'.symm hw'covers
      exact ⟨w, List.mem_cons_self, hw⟩
    · obtain ⟨w, hw, halways⟩ := hcovers ⟨w', hw', hw'covers⟩
      exact ⟨w, List.mem_cons_of_mem _ hw, halways⟩

/-! ### When the answer is right -/

/-- When the answer about a release is right. -/
theorem answeredRight_iff (package version : Text) (t : BuildTarget) (files : List ListedFile)
    (hpure : NoPurePython files) :
    AnsweredRight package version t files ↔
      (AllInstallable t files ∧ ∀ i a, (i, a) ∈ t.pairs →
        ∃ w, .wheel w ∈ files ∧ AlwaysCovers t w i a) ∨
      (¬ AllInstallable t files ∧ ∀ reading, List.Forall₂ (CanBeRead t) files reading →
        ∃ i a, (i, a) ∈ t.pairs ∧ ¬ Chosen files reading i a) := by
  rw [answeredRight_iff_forall hpure]
  by_cases hall : AllInstallable t files
  · simp only [hall, iff_true, true_and, not_true_eq_false, false_and, or_false]
    constructor
    · intro h i a hpair
      obtain ⟨files', hsame, halways⟩ := exists_order_against t files i a
      exact halways (h files' ⟨files', hsame, List.Perm.refl _⟩ i a hpair)
    · rintro h files' ⟨files₁, hsame, hperm⟩ i a hpair
      obtain ⟨w, hw, hpython, hread⟩ := h i a hpair
      obtain ⟨w', hw', hsame⟩ := exists_copy hsame hw
      cases hsame with
      | wheel _ platform hplatform =>
        exact ⟨_, hperm.mem_iff.mp hw', hpython, hread.readAs hplatform⟩
  · simp only [hall, iff_false, false_and, not_false_eq_true, true_and, false_or]
    constructor
    · intro h reading hreading
      obtain ⟨files', hsame, hcovers⟩ := exists_order_of_canBeRead hreading
      by_contra hnot
      refine h files' ⟨files', hsame, List.Perm.refl _⟩ fun i a hpair => hcovers i a ?_
      by_contra hchosen
      exact hnot ⟨i, a, hpair, hchosen⟩
    · rintro h files' ⟨files₁, hsame, hperm⟩ hcovered
      obtain ⟨reading, hreading, hchosen⟩ := exists_canBeRead_of_order (t := t) hsame
      obtain ⟨i, a, hpair, hnot⟩ := h reading hreading
      obtain ⟨w, hw, hcovers⟩ := hcovered i a hpair
      exact hnot (hchosen i a ⟨w, hperm.mem_iff.mpr hw, hcovers⟩)

/-! A wheel for CPython 3.10, with one tag and with two. -/

def x86 : Arch := ⟨"x86_64".toList, by decide, by decide, by decide, by decide⟩

def glibc217 : Glibc :=
  .numbers ⟨"2".toList, by decide, by decide⟩ ⟨"17".toList, by decide, by decide⟩

def cpythonTarget : BuildTarget :=
  ⟨[(⟨3, 10, false⟩, x86)], ⟨"2".toList, by decide, by decide⟩, ⟨"17".toList, by decide, by decide⟩⟩

def cpythonWheel (platform : List PlatformTag) : TaggedWheel where
  distribution := ⟨"numpy".toList, by decide, by decide⟩
  version := ⟨⟨"1.26.4".toList, by decide, by decide⟩, by decide⟩
  build := none
  python := ["cp310".toList]
  python_chars := by decide
  abi := ["cp310".toList]
  abi_chars := by decide
  platform := platform

theorem noPurePython_cpythonWheel (platform : List PlatformTag) :
    NoPurePython [.wheel (cpythonWheel platform)] := by
  intro w hw hpure
  cases List.mem_singleton.mp hw
  have habi : "none".toList ∉ ["cp310".toList] := by decide
  exact habi hpure.1

theorem allInstallable_cpythonWheel {platform : List PlatformTag}
    (h : .linux glibc217 x86 ∈ platform) :
    AllInstallable cpythonTarget [.wheel (cpythonWheel platform)] := by
  intro i a hpair
  cases List.mem_singleton.mp hpair
  exact ⟨_, List.mem_singleton.mpr rfl, ⟨_, List.mem_singleton.mpr rfl, _,
    List.mem_singleton.mpr rfl, Or.inl ⟨by decide +kernel, by decide +kernel⟩⟩, glibc217, h,
    by decide⟩

/-- With a single platform tag the answer is right. -/
theorem answeredRight_one_tag :
    AnsweredRight "numpy".toList "1.26.4".toList cpythonTarget
      [.wheel (cpythonWheel [.linux glibc217 x86])] := by
  refine (answeredRight_iff _ _ _ _ (noPurePython_cpythonWheel _)).mpr
    (Or.inl ⟨allInstallable_cpythonWheel List.mem_cons_self, fun i a hpair => ?_⟩)
  cases List.mem_singleton.mp hpair
  refine ⟨_, List.mem_singleton.mpr rfl, by decide +kernel, ⟨_, List.mem_singleton.mpr rfl, _, _,
    rfl⟩, Or.inr ⟨fun k hk => ?_, fun g b hmem => ?_⟩⟩
  · obtain ⟨a, ha⟩ := hk
    cases List.mem_singleton.mp ha
  · cases List.mem_singleton.mp hmem
    exact ⟨rfl, by decide⟩

/-- The architecture is not found when an alias precedes another tag. -/
theorem not_answeredRight_alias_first :
    ¬ AnsweredRight "numpy".toList "1.26.4".toList cpythonTarget
      [.wheel (cpythonWheel [.linux (.legacy .manylinux2014) x86, .linux glibc217 x86])] := by
  intro h
  have hanswer : (checkFiles "numpy".toList "1.26.4".toList cpythonTarget
      [.wheel (cpythonWheel [.linux (.legacy .manylinux2014) x86,
        .linux glibc217 x86])]).toOption = some true := by
    decide +kernel
  rw [h.iff.mpr (allInstallable_cpythonWheel (by simp))] at hanswer
  exact absurd hanswer (by decide)

end WantsCollector

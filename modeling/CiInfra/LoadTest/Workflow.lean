import CiInfra.LoadTest.Monitor
import Mathlib.Data.List.Range

/-!
# The workflow of a load test

A load test is a workflow with jobs for every type of runner, and the monitor reads the type back
from the name that GitHub gives to a job. The key of a job is made from the label of the type, with
other characters replaced, and many jobs are written in parts. When does every name lead back to its
label? The text of the workflow is not modelled, only its jobs.
-/

namespace CiInfra.LoadTest

/-! ### Jobs -/

/-- `MAX_MATRIX_SIZE`. -/
def maxMatrixSize : ℕ := 256

/-- A job of the workflow. -/
structure JobBlock where
  jobKey : String
  runsOn : String
  indices : List ℕ

/-- `_write_single_job`. -/
def writeSingleJob (namePrefix label : String) (indices : List ℕ) (suffix : String) :
    JobBlock where
  jobKey := s!"load-{sanitizeJobKey label}{suffix}"
  runsOn := s!"{namePrefix}{label}"
  indices := indices

/-- `len(range(0, count, MAX_MATRIX_SIZE))`. -/
def parts (count : ℕ) : ℕ := (count + maxMatrixSize - 1) / maxMatrixSize

/-- `_write_job_blocks`. -/
def writeJobBlocks (namePrefix : String) (alloc : RunnerAllocation) : List JobBlock :=
  let indices := List.range' 1 alloc.jobCount
  if indices.length ≤ maxMatrixSize then
    [writeSingleJob namePrefix alloc.osdcLabel indices ""]
  else
    (List.range (parts indices.length)).map fun chunkIdx =>
      let chunk := (indices.drop (chunkIdx * maxMatrixSize)).take maxMatrixSize
      writeSingleJob namePrefix alloc.osdcLabel chunk s!"-part{chunkIdx}"

/-- `generate_workflow`. -/
def generateWorkflow (namePrefix : String) (allocations : List RunnerAllocation) : List JobBlock :=
  allocations.flatMap fun alloc =>
    if alloc.jobCount = 0 then [] else writeJobBlocks namePrefix alloc

/-- The name that GitHub gives to a job of a matrix. -/
def jobName (jobKey : String) (index : ℕ) : String := s!"{jobKey} ({index})"

/-- The label that the monitor reads from the name of a job. -/
def labelOf (allocations : List RunnerAllocation) (name : String) : Option String :=
  (parseRunnerType name).bind fun key => (buildLabelLookup allocations).lookup key

/-- Every type of runner has jobs of its own, and their names lead back to its label. -/
structure LeadsBack (namePrefix : String) (allocations : List RunnerAllocation) : Prop where
  distinct : ((generateWorkflow namePrefix allocations).map JobBlock.jobKey).Nodup
  covered : ∀ alloc ∈ allocations,
    ((writeJobBlocks namePrefix alloc).map JobBlock.indices).flatten = List.range' 1 alloc.jobCount
  bounded : ∀ block ∈ generateWorkflow namePrefix allocations,
    block.indices.length ≤ maxMatrixSize
  back : ∀ alloc ∈ allocations, alloc.jobCount ≠ 0 →
    ∀ block ∈ writeJobBlocks namePrefix alloc, ∀ index ∈ block.indices,
      labelOf allocations (jobName block.jobKey index) = some alloc.osdcLabel

/-! ### Keys -/

/-- The key of a part. -/
def partKey (key : String) (i : ℕ) : String := s!"{key}-part{i}"

/-- The keys of the jobs of an allocation, as they are read from names. -/
def RunnerAllocation.keys (alloc : RunnerAllocation) : List String :=
  if alloc.jobCount = 0 then []
  else if alloc.jobCount ≤ maxMatrixSize then [sanitizeJobKey alloc.osdcLabel]
  else (List.range (parts alloc.jobCount)).map (partKey (sanitizeJobKey alloc.osdcLabel))

/-- The keys under which the label of an allocation is entered. -/
def RunnerAllocation.entered (alloc : RunnerAllocation) : List String :=
  ((List.range 10).map (partKey (sanitizeJobKey alloc.osdcLabel))) ++
    [sanitizeJobKey alloc.osdcLabel]

/-- The monitor can read the keys of an allocation: there is something to read, and there are no
more parts than it enters. -/
def RunnerAllocation.Readable (alloc : RunnerAllocation) : Prop :=
  alloc.jobCount ≠ 0 →
    (alloc.osdcLabel = "" → maxMatrixSize < alloc.jobCount) ∧ alloc.jobCount ≤ 10 * maxMatrixSize

instance : DecidablePred RunnerAllocation.Readable := fun _ => inferInstanceAs (Decidable (_ → _))

/-- No allocation that is entered later takes a key of an earlier one. -/
def Unhidden (allocations : List RunnerAllocation) : Prop :=
  allocations.Pairwise fun alloc later => ∀ key ∈ alloc.keys, key ∉ later.entered

instance : DecidablePred Unhidden := fun _ => inferInstanceAs (Decidable (List.Pairwise _ _))

/-! ### Names -/

/-- A character that is left in keys. -/
def isKeyChar (c : Char) : Bool := c.isAlphanum || c = '_' || c = '-'

variable {c : Char} {key tail : List Char}

/-- Such a character is neither a blank nor a parenthesis. -/
theorem toNat_of_isKeyChar (h : isKeyChar c = true) : 45 ≤ c.toNat ∧ c.toNat ≤ 122 := by
  have hkinds : (((((decide ('A'.val ≤ c.val ∧ c.val ≤ 'Z'.val)) ||
      (decide ('a'.val ≤ c.val) && decide (c.val ≤ 'z'.val))) ||
      (decide ('0'.val ≤ c.val) && decide (c.val ≤ '9'.val))) || decide (c = '_')) ||
      decide (c = '-')) = true := h
  simp only [Bool.or_eq_true, Bool.and_eq_true, decide_eq_true_eq,
    UInt32.le_iff_toNat_le] at hkinds
  have hval : c.toNat = c.val.toNat := rfl
  rcases hkinds with ((((⟨hle, hge⟩ | ⟨hle, hge⟩) | ⟨hle, hge⟩) | rfl) | rfl)
  · exact ⟨hval ▸ le_trans (by decide) hle, hval ▸ le_trans hge (by decide)⟩
  · exact ⟨hval ▸ le_trans (by decide) hle, hval ▸ le_trans hge (by decide)⟩
  · exact ⟨hval ▸ le_trans (by decide) hle, hval ▸ le_trans hge (by decide)⟩
  · decide
  · decide

theorem isSpace_eq_false (h : isKeyChar c = true) : isSpace c = false := by
  have hrange := toNat_of_isKeyChar h
  simp only [isSpace, Bool.or_eq_false_iff, decide_eq_false_iff_not]
  simp
  omega

theorem ne_of_isKeyChar {d : Char} (h : isKeyChar c = true) (hd : d.toNat < 45) : c ≠ d := by
  rintro rfl
  have hrange := toNat_of_isKeyChar h
  omega

theorem indexEnds_eq_false (h : isKeyChar c = true) (cs : List Char) :
    indexEnds (c :: cs) = false := by
  have hparen : c ≠ '(' := ne_of_isKeyChar h (by decide)
  rw [indexEnds, List.dropWhile_cons_of_neg (by simp [isSpace_eq_false h])]
  split
  · rename_i heq
    exact absurd (List.cons.inj heq).1 hparen
  · rfl

/-- The group ends where an index follows the key. -/
theorem shortestGroup_append (hkey : ∀ c ∈ key, isKeyChar c = true) (hne : key ≠ [])
    (htail : indexEnds tail = true) : shortestGroup (key ++ tail) = some key := by
  induction key with
  | nil => exact absurd rfl hne
  | cons c cs ih =>
    rw [List.forall_mem_cons] at hkey
    have hnewline : c ≠ '\n' := ne_of_isKeyChar hkey.1 (by decide)
    rw [List.cons_append, shortestGroup, if_neg hnewline]
    cases cs with
    | nil => simp [htail]
    | cons d ds =>
      have hd := (List.forall_mem_cons.mp hkey.2).1
      have hnewline' : d ≠ '\n' := ne_of_isKeyChar hd (by decide)
      have hend : atEnd (d :: ds ++ tail) = false := by simp [atEnd, hnewline']
      have hindex : indexEnds (d :: ds ++ tail) = false := indexEnds_eq_false hd _
      rw [hindex, hend, ih hkey.2 (List.cons_ne_nil d ds)]
      rfl

theorem isDecimal_of_isDigit (h : c.isDigit = true) : isDecimal c = true := by
  simp only [Char.isDigit, Bool.and_eq_true, decide_eq_true_eq, ge_iff_le,
    UInt32.le_iff_toNat_le] at h
  have hval : c.toNat = c.val.toNat := rfl
  have hge : 48 ≤ c.toNat := hval ▸ h.1
  have hle : c.toNat ≤ 57 := hval ▸ h.2
  refine List.any_eq_true.mpr ⟨0x30, by decide, decide_eq_true ⟨hge, ?_⟩⟩
  omega

/-- An index in parentheses, as it is written. -/
def indexText (index : ℕ) : List Char := '(' :: (Nat.toDigits 10 index ++ [')'])

theorem indexEnds_indexText (index : ℕ) : indexEnds (indexText index) = true := by
  have hdigits : ∀ c ∈ Nat.toDigits 10 index, isDecimal c = true := fun c hc =>
    isDecimal_of_isDigit (Nat.isDigit_of_mem_toDigits (by decide) (by decide) hc)
  have hparen : isDecimal ')' = false := by decide
  have hdrop : (indexText index).dropWhile isSpace = indexText index :=
    List.dropWhile_cons_of_neg (by decide)
  rw [indexEnds, hdrop, indexText]
  simp only [List.dropWhile_append_of_pos hdigits, List.takeWhile_append_of_pos hdigits,
    List.dropWhile_cons, List.takeWhile_cons, hparen]
  simp [atEnd, Nat.toDigits_ne_nil]

theorem indexEnds_space (index : ℕ) : indexEnds (' ' :: indexText index) = true := by
  rw [← indexEnds_indexText index, indexEnds, indexEnds,
    List.dropWhile_cons_of_pos (show isSpace ' ' = true by decide)]

/-- The key is read from a name, if there is one. -/
theorem parseRunnerType_jobName {key : String} (hkey : ∀ c ∈ key.toList, isKeyChar c = true)
    (index : ℕ) : parseRunnerType (jobName ("load-" ++ key) index) =
      some (if key = "" then " " else key) := by
  have hlist : (jobName ("load-" ++ key) index).toList =
      'l' :: 'o' :: 'a' :: 'd' :: '-' :: (key.toList ++ ' ' :: indexText index) := by
    simp [jobName, indexText, toString]
  rw [parseRunnerType, hlist]
  change (shortestGroup (key.toList ++ ' ' :: indexText index)).map String.ofList = _
  by_cases hempty : key = ""
  · rw [if_pos hempty, hempty]
    have hgroup : shortestGroup (' ' :: indexText index) = some [' '] := by
      rw [shortestGroup, if_neg (by decide), indexEnds_indexText, Bool.true_or, if_pos rfl]
    change (shortestGroup (' ' :: indexText index)).map String.ofList = _
    rw [hgroup]
    rfl
  · have hne : key.toList ≠ [] := fun hnil => hempty (String.toList_eq_nil_iff.mp hnil)
    rw [if_neg hempty, shortestGroup_append hkey hne (indexEnds_space index), Option.map_some,
      String.ofList_toList]

/-! ### The table -/

section Table

variable {alloc later : RunnerAllocation} {allocations before after : List RunnerAllocation}
  {key : String}

theorem isKeyChar_sanitizeJobKey (label : String) :
    ∀ c ∈ (sanitizeJobKey label).toList, isKeyChar c = true := by
  intro c hc
  rw [sanitizeJobKey, String.toList_ofList] at hc
  obtain ⟨d, -, rfl⟩ := List.mem_map.mp hc
  split
  · rename_i hd
    exact hd
  · decide

theorem toList_partKey (key : String) (i : ℕ) :
    (partKey key i).toList = key.toList ++ ("-part".toList ++ Nat.toDigits 10 i) := by
  simp [partKey, toString]

theorem isKeyChar_partKey (hkey : ∀ c ∈ key.toList, isKeyChar c = true) (i : ℕ) :
    ∀ c ∈ (partKey key i).toList, isKeyChar c = true := by
  rw [toList_partKey]
  intro c hc
  rcases List.mem_append.mp hc with hc | hc
  · exact hkey c hc
  · rcases List.mem_append.mp hc with hc | hc
    · have hpart : ∀ c ∈ "-part".toList, isKeyChar c = true := by decide
      exact hpart c hc
    · have hdigit := Nat.isDigit_of_mem_toDigits (by decide) (by decide) hc
      simp [isKeyChar, Char.isAlphanum, hdigit]

theorem isKeyChar_of_mem_entered (h : key ∈ alloc.entered) :
    ∀ c ∈ key.toList, isKeyChar c = true := by
  rcases List.mem_append.mp h with h | h
  · obtain ⟨i, -, rfl⟩ := List.mem_map.mp h
    exact isKeyChar_partKey (isKeyChar_sanitizeJobKey _) i
  · rw [List.mem_singleton.mp h]
    exact isKeyChar_sanitizeJobKey _

theorem isKeyChar_of_mem_keys (h : key ∈ alloc.keys) : ∀ c ∈ key.toList, isKeyChar c = true := by
  unfold RunnerAllocation.keys at h
  split_ifs at h
  · cases h
  · rw [List.mem_singleton.mp h]
    exact isKeyChar_sanitizeJobKey _
  · obtain ⟨i, -, rfl⟩ := List.mem_map.mp h
    exact isKeyChar_partKey (isKeyChar_sanitizeJobKey _) i

theorem partKey_injective (key : String) : Function.Injective (partKey key) := by
  intro i j h
  have hlist := congrArg String.toList h
  rw [toList_partKey, toList_partKey] at hlist
  have hdigits := List.append_cancel_left (List.append_cancel_left hlist)
  rw [← Nat.ofDigitChars_ten_toDigits (n := i), hdigits, Nat.ofDigitChars_ten_toDigits]

theorem partKey_ne (key : String) (i : ℕ) : partKey key i ≠ key := by
  intro h
  have hlength := congrArg (fun s => s.toList.length) h
  simp only [toList_partKey, List.length_append] at hlength
  have hpart : "-part".toList.length = 5 := rfl
  omega

/-- A part is entered if it is one of the first ten. -/
theorem partKey_mem_entered {i : ℕ} :
    partKey (sanitizeJobKey alloc.osdcLabel) i ∈ alloc.entered ↔ i < 10 := by
  unfold RunnerAllocation.entered
  rw [List.mem_append, List.mem_singleton, or_iff_left (partKey_ne _ i),
    List.mem_map_of_injective (partKey_injective _), List.mem_range]

theorem sanitizeJobKey_mem_entered : sanitizeJobKey alloc.osdcLabel ∈ alloc.entered :=
  List.mem_append_right _ (List.mem_singleton_self _)

theorem lookup_map_const {keys : List String} {label : String} (rest : List (String × String)) :
    ((keys.map fun key => (key, label)) ++ rest).lookup key =
      if key ∈ keys then some label else rest.lookup key := by
  induction keys with
  | nil => simp
  | cons k keys ih =>
    rw [List.map_cons, List.cons_append, List.lookup_cons, ih]
    by_cases hkey : key = k
    · simp [hkey]
    · have hbeq : (key == k) = false := beq_eq_false_iff_ne.mpr hkey
      simp [hbeq, hkey]

/-- The keys of the allocation that is entered last hide the earlier ones. -/
theorem lookup_concat (before : List RunnerAllocation) (alloc : RunnerAllocation) (key : String) :
    (buildLabelLookup (before ++ [alloc])).lookup key =
      if key ∈ alloc.entered then some alloc.osdcLabel
      else (buildLabelLookup before).lookup key := by
  have hentries : buildLabelLookup (before ++ [alloc]) =
      (alloc.entered.map fun key => (key, alloc.osdcLabel)) ++ buildLabelLookup before := by
    unfold buildLabelLookup
    rw [List.foldl_append]
    simp [RunnerAllocation.entered, partKey]
  rw [hentries, lookup_map_const]

theorem lookup_append_of_notMem (h : ∀ later ∈ after, key ∉ later.entered) :
    (buildLabelLookup (before ++ after)).lookup key = (buildLabelLookup before).lookup key := by
  induction after using List.reverseRecOn with
  | nil => rw [List.append_nil]
  | append_singleton after later ih =>
    rw [← List.append_assoc, lookup_concat, if_neg (h later (by simp))]
    exact ih fun l hl => h l (List.mem_append_left _ hl)

/-- What is found for a key is the label of an allocation that it is entered for, and of a later one
rather than of an earlier one. -/
theorem exists_of_lookup {label : String}
    (h : (buildLabelLookup (before ++ after)).lookup key = some label) :
    (∃ later ∈ after, later.osdcLabel = label ∧ key ∈ later.entered) ∨
      (∀ later ∈ after, key ∉ later.entered) ∧
        ∃ alloc ∈ before, alloc.osdcLabel = label ∧ key ∈ alloc.entered := by
  induction after using List.reverseRecOn generalizing before with
  | nil =>
    refine Or.inr ⟨fun later hlater => (by cases hlater), ?_⟩
    rw [List.append_nil] at h
    induction before using List.reverseRecOn with
    | nil => cases h
    | append_singleton before alloc ih =>
      rw [lookup_concat] at h
      split_ifs at h with hentered
      · exact ⟨alloc, by simp, Option.some.inj h, hentered⟩
      · obtain ⟨a, ha, hlabel⟩ := ih h
        exact ⟨a, List.mem_append_left _ ha, hlabel⟩
  | append_singleton after later ih =>
    rw [← List.append_assoc, lookup_concat] at h
    split_ifs at h with hentered
    · exact Or.inl ⟨later, by simp, Option.some.inj h, hentered⟩
    · rcases ih h with ⟨l, hl, hlabel⟩ | ⟨hnone, hbefore⟩
      · exact Or.inl ⟨l, List.mem_append_left _ hl, hlabel⟩
      · refine Or.inr ⟨fun l hl => ?_, hbefore⟩
        rcases List.mem_append.mp hl with hl | hl
        · exact hnone l hl
        · rwa [List.mem_singleton.mp hl]

end Table

/-! ### Parts -/

theorem flatten_chunks {α : Type} (l : List α) (size n : ℕ) :
    ((List.range n).map fun i => (l.drop (i * size)).take size).flatten = l.take (n * size) := by
  induction n with
  | zero => simp
  | succ n ih =>
    rw [List.range_succ, List.map_append, List.flatten_append, ih, List.map_singleton,
      List.flatten_singleton, Nat.succ_mul, List.take_add]

section Blocks

variable {namePrefix : String} {alloc : RunnerAllocation} {allocations : List RunnerAllocation}

/-- The blocks of an allocation have its indices. -/
theorem flatten_indices (namePrefix : String) (alloc : RunnerAllocation) :
    ((writeJobBlocks namePrefix alloc).map JobBlock.indices).flatten =
      List.range' 1 alloc.jobCount := by
  unfold writeJobBlocks
  dsimp only
  split_ifs
  · simp [writeSingleJob]
  · rw [List.map_map]
    change ((List.range (parts (List.range' 1 alloc.jobCount).length)).map fun i =>
      ((List.range' 1 alloc.jobCount).drop (i * maxMatrixSize)).take maxMatrixSize).flatten = _
    rw [flatten_chunks]
    refine List.take_of_length_le ?_
    rw [List.length_range', parts, maxMatrixSize]
    omega

theorem length_indices_le {block : JobBlock} (h : block ∈ writeJobBlocks namePrefix alloc) :
    block.indices.length ≤ maxMatrixSize := by
  unfold writeJobBlocks at h
  dsimp only at h
  split_ifs at h with hsmall
  · rw [List.mem_singleton.mp h]
    exact hsmall
  · obtain ⟨i, -, rfl⟩ := List.mem_map.mp h
    exact List.length_take_le _ _

theorem map_jobKey (hjobs : alloc.jobCount ≠ 0) :
    (writeJobBlocks namePrefix alloc).map JobBlock.jobKey = alloc.keys.map ("load-" ++ ·) := by
  unfold writeJobBlocks RunnerAllocation.keys
  dsimp only
  rw [List.length_range', if_neg hjobs]
  split_ifs
  · simp [writeSingleJob, toString]
  · rw [List.map_map, List.map_map]
    refine List.map_congr_left fun i _ => ?_
    simp [writeSingleJob, partKey, toString, String.append_assoc]

/-- Every job has an index. -/
theorem indices_ne_nil (hjobs : alloc.jobCount ≠ 0) {block : JobBlock}
    (h : block ∈ writeJobBlocks namePrefix alloc) : block.indices ≠ [] := by
  unfold writeJobBlocks at h
  dsimp only at h
  rw [List.length_range'] at h
  split_ifs at h
  · rw [List.mem_singleton.mp h]
    simpa [writeSingleJob] using hjobs
  · obtain ⟨i, hi, rfl⟩ := List.mem_map.mp h
    rw [List.mem_range, parts, maxMatrixSize] at hi
    refine List.ne_nil_of_length_pos ?_
    simp only [writeSingleJob, List.length_take, List.length_drop, List.length_range',
      maxMatrixSize]
    omega

theorem nodup_keys (alloc : RunnerAllocation) : alloc.keys.Nodup := by
  unfold RunnerAllocation.keys
  split_ifs
  · exact List.nodup_nil
  · exact List.nodup_singleton _
  · exact List.nodup_range.map (partKey_injective _)

/-- The keys that can be read are entered. -/
theorem mem_entered_of_readable (h : alloc.Readable) {key : String} (hkey : key ∈ alloc.keys) :
    key ∈ alloc.entered := by
  unfold RunnerAllocation.keys at hkey
  split_ifs at hkey with hjobs hsmall
  · cases hkey
  · rw [List.mem_singleton.mp hkey]
    exact sanitizeJobKey_mem_entered
  · obtain ⟨i, hi, rfl⟩ := List.mem_map.mp hkey
    have hcount := (h hjobs).2
    rw [List.mem_range, parts] at hi
    rw [maxMatrixSize] at hi hcount
    exact partKey_mem_entered.mpr (by omega)

theorem keys_ne_empty (h : alloc.Readable) {key : String} (hkey : key ∈ alloc.keys) : key ≠ "" := by
  unfold RunnerAllocation.keys at hkey
  split_ifs at hkey with hjobs hsmall
  · cases hkey
  · rw [List.mem_singleton.mp hkey]
    intro hempty
    have hlabel : alloc.osdcLabel = "" := by
      have hlist := congrArg String.toList hempty
      rw [sanitizeJobKey, String.toList_ofList] at hlist
      exact String.toList_eq_nil_iff.mp (List.map_eq_nil_iff.mp hlist)
    have hlarge := (h hjobs).1 hlabel
    omega
  · obtain ⟨i, -, rfl⟩ := List.mem_map.mp hkey
    intro hempty
    have hlist := congrArg String.toList hempty
    rw [toList_partKey] at hlist
    simp at hlist

/-- The names of an allocation lead back to the label that is found for its key. -/
theorem labelOf_jobName {key : String} (hkey : key ∈ alloc.keys) (index : ℕ) :
    labelOf allocations (jobName ("load-" ++ key) index) =
      (buildLabelLookup allocations).lookup (if key = "" then " " else key) := by
  rw [labelOf, parseRunnerType_jobName (isKeyChar_of_mem_keys hkey), Option.bind_some]

theorem back_iff : (∀ block ∈ writeJobBlocks namePrefix alloc, ∀ index ∈ block.indices,
    labelOf allocations (jobName block.jobKey index) = some alloc.osdcLabel) ↔
    (alloc.jobCount ≠ 0 → ∀ key ∈ alloc.keys,
      (buildLabelLookup allocations).lookup (if key = "" then " " else key) =
        some alloc.osdcLabel) := by
  constructor
  · intro h hjobs key hkey
    have hmem : "load-" ++ key ∈ (writeJobBlocks namePrefix alloc).map JobBlock.jobKey := by
      rw [map_jobKey hjobs]
      exact List.mem_map.mpr ⟨key, hkey, rfl⟩
    obtain ⟨block, hblock, hname⟩ := List.mem_map.mp hmem
    obtain ⟨index, hindex⟩ := List.exists_mem_of_ne_nil _ (indices_ne_nil hjobs hblock)
    rw [← labelOf_jobName hkey index, ← hname]
    exact h block hblock index hindex
  · intro h block hblock index hindex
    have hjobs : alloc.jobCount ≠ 0 := by
      have hall : index ∈ ((writeJobBlocks namePrefix alloc).map JobBlock.indices).flatten :=
        List.mem_flatten.mpr ⟨_, List.mem_map.mpr ⟨block, hblock, rfl⟩, hindex⟩
      rw [flatten_indices, List.mem_range'_1] at hall
      omega
    have hmem : block.jobKey ∈ alloc.keys.map ("load-" ++ ·) := by
      rw [← @map_jobKey namePrefix alloc hjobs]
      exact List.mem_map.mpr ⟨block, hblock, rfl⟩
    obtain ⟨key, hkey, hname⟩ := List.mem_map.mp hmem
    rw [← hname]
    exact (labelOf_jobName hkey index).trans (h hjobs key hkey)

end Blocks

/-! ### Leading back -/

section LeadsBack

variable {namePrefix : String} {allocations : List RunnerAllocation}

theorem generateWorkflow_jobKeys (namePrefix : String) (allocations : List RunnerAllocation) :
    (generateWorkflow namePrefix allocations).map JobBlock.jobKey =
      (allocations.flatMap RunnerAllocation.keys).map ("load-" ++ ·) := by
  unfold generateWorkflow
  rw [List.map_flatMap, List.map_flatMap]
  refine List.flatMap_congr fun alloc _ => ?_
  split_ifs with hjobs
  · simp [RunnerAllocation.keys, hjobs]
  · exact map_jobKey hjobs

/-- Keys that can be read, and that no later allocation takes, are different. -/
theorem nodup_jobKeys (hread : ∀ alloc ∈ allocations, alloc.Readable)
    (hunhidden : Unhidden allocations) :
    ((generateWorkflow namePrefix allocations).map JobBlock.jobKey).Nodup := by
  rw [generateWorkflow_jobKeys]
  refine List.Nodup.map (fun x y h => ?_) (List.nodup_flatMap.mpr ⟨fun a _ => nodup_keys a, ?_⟩)
  · have hlist := congrArg String.toList h
    simp only [String.toList_append] at hlist
    exact String.toList_injective (List.append_cancel_left hlist)
  · refine hunhidden.imp_of_mem fun {alloc later} _ hlater hkeys => ?_
    exact fun key hkey hkey' => hkeys key hkey (mem_entered_of_readable (hread _ hlater) hkey')

/-- What is found for a key of an allocation that no later one takes is its label. -/
theorem lookup_of_unhidden (hread : ∀ alloc ∈ allocations, alloc.Readable)
    (hunhidden : Unhidden allocations) {alloc : RunnerAllocation} (hmem : alloc ∈ allocations)
    {key : String} (hkey : key ∈ alloc.keys) :
    (buildLabelLookup allocations).lookup (if key = "" then " " else key) =
      some alloc.osdcLabel := by
  obtain ⟨before, after, rfl⟩ := List.append_of_mem hmem
  have hafter : ∀ later ∈ after, key ∉ later.entered := by
    have hpair := (List.pairwise_append.mp hunhidden).2.1
    exact fun later hlater => (List.pairwise_cons.mp hpair).1 later hlater key hkey
  rw [if_neg (keys_ne_empty (hread alloc hmem) hkey), List.append_cons,
    lookup_append_of_notMem hafter, lookup_concat,
    if_pos (mem_entered_of_readable (hread alloc hmem) hkey)]

/-- What is found for a key of an allocation is its label only if the key is entered for it. -/
theorem mem_entered_of_lookup (hdistinct : (allocations.map RunnerAllocation.osdcLabel).Nodup)
    {alloc : RunnerAllocation} (hmem : alloc ∈ allocations) {key : String}
    (h : (buildLabelLookup allocations).lookup key = some alloc.osdcLabel) :
    key ∈ alloc.entered := by
  obtain ⟨a, ha, hlabel, hentered⟩ : ∃ a ∈ allocations, a.osdcLabel = alloc.osdcLabel ∧
      key ∈ a.entered := by
    rcases @exists_of_lookup allocations [] key alloc.osdcLabel (by rwa [List.append_nil])
      with ⟨later, hlater, -⟩ | ⟨-, hbefore⟩
    · cases hlater
    · exact hbefore
  rwa [List.inj_on_of_nodup_map hdistinct ha hmem hlabel] at hentered

theorem readable_of_lookup (hdistinct : (allocations.map RunnerAllocation.osdcLabel).Nodup)
    {alloc : RunnerAllocation} (hmem : alloc ∈ allocations)
    (h : alloc.jobCount ≠ 0 → ∀ key ∈ alloc.keys,
      (buildLabelLookup allocations).lookup (if key = "" then " " else key) =
        some alloc.osdcLabel) : alloc.Readable := by
  intro hjobs
  have hlookup := h hjobs
  unfold RunnerAllocation.keys at hlookup
  rw [if_neg hjobs] at hlookup
  constructor
  · intro hlabel
    by_contra hsmall
    rw [if_pos (not_lt.mp hsmall), hlabel] at hlookup
    have hblank := hlookup "" (List.mem_singleton_self _)
    rw [if_pos rfl, ← hlabel] at hblank
    have hchars := isKeyChar_of_mem_entered (mem_entered_of_lookup hdistinct hmem hblank)
    exact absurd (hchars ' ' (by decide)) (by decide)
  · by_contra hmany
    rw [maxMatrixSize] at hmany
    rw [if_neg (by rw [maxMatrixSize]; omega)] at hlookup
    have hpart : partKey (sanitizeJobKey alloc.osdcLabel) 10 ∈
        (List.range (parts alloc.jobCount)).map (partKey (sanitizeJobKey alloc.osdcLabel)) := by
      refine List.mem_map.mpr ⟨10, List.mem_range.mpr ?_, rfl⟩
      rw [parts, maxMatrixSize]
      omega
    have hfound := hlookup _ hpart
    have hne : partKey (sanitizeJobKey alloc.osdcLabel) 10 ≠ "" := by
      intro hempty
      have hlist := congrArg String.toList hempty
      rw [toList_partKey] at hlist
      simp at hlist
    rw [if_neg hne] at hfound
    exact absurd (partKey_mem_entered.mp (mem_entered_of_lookup hdistinct hmem hfound)) (by decide)

/-- An allocation that takes a key of an earlier one is found for it. -/
theorem unhidden_of_lookup (hdistinct : (allocations.map RunnerAllocation.osdcLabel).Nodup)
    (hread : ∀ alloc ∈ allocations, alloc.Readable)
    (h : ∀ alloc ∈ allocations, alloc.jobCount ≠ 0 → ∀ key ∈ alloc.keys,
      (buildLabelLookup allocations).lookup (if key = "" then " " else key) =
        some alloc.osdcLabel) : Unhidden allocations := by
  refine List.pairwise_iff_forall_sublist.mpr fun {alloc later} hsub key hkey hentered => ?_
  obtain ⟨before, after, rfl, halloc, hlater⟩ := List.cons_sublist_iff.mp hsub
  have hmem : alloc ∈ before ++ after := List.mem_append_left _ halloc
  have hjobs : alloc.jobCount ≠ 0 := by
    intro hzero
    rw [RunnerAllocation.keys, if_pos hzero] at hkey
    cases hkey
  have hfound := h alloc hmem hjobs key hkey
  rw [if_neg (keys_ne_empty (hread alloc hmem) hkey)] at hfound
  rcases exists_of_lookup hfound with ⟨l, hl, hlabel, -⟩ | ⟨hnone, -⟩
  · rw [List.map_append] at hdistinct
    exact List.disjoint_of_nodup_append hdistinct (List.mem_map.mpr ⟨alloc, halloc, rfl⟩)
      (List.mem_map.mpr ⟨l, hl, hlabel⟩)
  · exact hnone later (List.singleton_sublist.mp hlater) hentered

/-- The names of all jobs lead back to their labels exactly if the keys can be read, and no
allocation that is entered later takes a key of an earlier one. -/
theorem leadsBack_iff (hdistinct : (allocations.map RunnerAllocation.osdcLabel).Nodup) :
    LeadsBack namePrefix allocations ↔
      (∀ alloc ∈ allocations, alloc.Readable) ∧ Unhidden allocations := by
  constructor
  · intro h
    have hlookup : ∀ alloc ∈ allocations, alloc.jobCount ≠ 0 → ∀ key ∈ alloc.keys,
        (buildLabelLookup allocations).lookup (if key = "" then " " else key) =
          some alloc.osdcLabel :=
      fun alloc hmem hjobs => back_iff.mp (h.back alloc hmem hjobs) hjobs
    have hread : ∀ alloc ∈ allocations, alloc.Readable :=
      fun alloc hmem => readable_of_lookup hdistinct hmem (hlookup alloc hmem)
    exact ⟨hread, unhidden_of_lookup hdistinct hread hlookup⟩
  · rintro ⟨hread, hunhidden⟩
    refine ⟨nodup_jobKeys hread hunhidden, fun alloc _ => flatten_indices namePrefix alloc, ?_, ?_⟩
    · intro block hblock
      obtain ⟨alloc, -, hblock⟩ := List.mem_flatMap.mp hblock
      split_ifs at hblock
      · cases hblock
      · exact length_indices_le hblock
    · intro alloc hmem _
      exact back_iff.mpr fun _ key hkey => lookup_of_unhidden hread hunhidden hmem hkey

theorem leadsBack_two : LeadsBack "mt-" [⟨"l-x86iavx512-8-16", 300⟩, ⟨"l-arm64g3-16-62", 2⟩] :=
  (leadsBack_iff (by decide)).mpr ⟨by decide +kernel, by decide +kernel⟩

/-- A label that ends like a part takes the name of a part. -/
theorem not_leadsBack : ¬ ∀ (namePrefix : String) (allocations : List RunnerAllocation),
    (allocations.map RunnerAllocation.osdcLabel).Nodup → LeadsBack namePrefix allocations := by
  intro hall
  have h := (hall "mt-" [⟨"l-x86", 257⟩, ⟨"l-x86-part1", 1⟩] (by decide)).distinct
  exact absurd h (by decide +kernel)

end LeadsBack

end CiInfra.LoadTest

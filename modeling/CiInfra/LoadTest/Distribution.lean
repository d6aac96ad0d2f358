import CiInfra.Lib.Apportionment
import CiInfra.Lib.PythonNumber
import CiInfra.LoadTest.Monitor
import Mathlib.Algebra.BigOperators.Ring.Finset
import Mathlib.Data.Finset.Sort
import Mathlib.Data.String.Basic

/-!
# The distribution of a load test

The jobs of a load test are distributed over the types of runners that are available, each with a
minimum, and the rest in proportion to the jobs that production has run on the type. The computation
is that of the largest remainder method. With fewer jobs than the minimum needs another rule
applies, which gives one job to each of the first types by name and leaves the minimum out: it meets
the total if no type has to have more than one job.
-/

namespace CiInfra.LoadTest.Distribution

/-! ### Production -/

/-- `OLD_TO_OSDC_LABEL`. -/
def oldToOsdcLabel : List (String × String) :=
  [("linux.large", "l-x86iavx512-2-4"), ("linux.c7i.large", "l-x86iavx512-2-4"),
    ("linux.2xlarge", "l-x86iavx512-8-16"), ("linux.c7i.2xlarge", "l-x86iavx512-8-16"),
    ("linux.4xlarge", "l-x86iavx512-16-32"),
    ("linux.4xlarge.for.testing.donotuse", "l-x86iavx512-16-32"),
    ("linux.c7i.4xlarge", "l-x86iavx512-16-32"), ("linux.9xlarge.ephemeral", "l-x86iavx512-37-68"),
    ("linux.12xlarge", "l-x86iavx512-46-85"), ("linux.12xlarge.ephemeral", "l-x86iavx512-46-85"),
    ("linux.c7i.12xlarge", "l-x86iavx512-46-85"), ("linux.24xlarge", "l-x86iavx512-94-192"),
    ("linux.24xlarge.ephemeral", "l-x86iavx512-94-192"),
    ("linux.c7i.24xlarge", "l-x86iavx512-94-192"), ("linux.24xl.spr-metal", "l-bx86iamx-92-167"),
    ("linux.2xlarge.amx", "l-x86iamx-8-32"), ("linux.8xlarge.amx", "l-x86iamx-32-128"),
    ("linux.2xlarge.avx2", "l-x86iavx2-8-32"), ("linux.10xlarge.avx2", "l-x86iavx2-40-160"),
    ("linux.r7i.2xlarge", "l-x86iavx512-8-64"), ("linux.r7i.4xlarge", "l-x86iavx512-16-128"),
    ("linux.r7i.8xlarge", "l-x86iavx512-32-256"), ("linux.r7i.12xlarge", "l-x86iavx512-48-384"),
    ("linux.2xlarge.memory", "l-x86iavx512-8-64"), ("linux.4xlarge.memory", "l-x86iavx512-16-128"),
    ("linux.8xlarge.memory", "l-x86iavx512-32-256"),
    ("linux.12xlarge.memory", "l-x86iavx512-48-384"),
    ("linux.12xlarge.memory.ephemeral", "l-x86iavx512-48-384"),
    ("linux.24xlarge.memory", "l-x86iavx512-94-768"),
    ("linux.24xlarge.amd", "l-x86aavx512-125-463"),
    ("linux.4xlarge.nvidia.gpu", "l-x86iavx512-29-115-t4"),
    ("linux.g4dn.4xlarge.nvidia.gpu", "l-x86iavx512-29-115-t4"),
    ("linux.g4dn.12xlarge.nvidia.gpu", "l-x86iavx512-45-172-t4-4"),
    ("linux.g4dn.metal.nvidia.gpu", "l-bx86iavx512-94-344-t4-8"),
    ("linux.g5.4xlarge.nvidia.gpu", "l-x86aavx2-29-113-a10g"),
    ("linux.g5.12xlarge.nvidia.gpu", "l-x86aavx2-45-167-a10g-4"),
    ("linux.g5.48xlarge.nvidia.gpu", "l-x86aavx2-189-704-a10g-8"),
    ("linux.g6.4xlarge.experimental.nvidia.gpu", "l-x86aavx2-29-113-l4"),
    ("linux.g6.12xlarge.nvidia.gpu", "l-x86aavx2-45-172-l4-4"),
    ("linux.arm64.m7g.4xlarge", "l-arm64g3-16-62"),
    ("linux.arm64.m7g.4xlarge.ephemeral", "l-arm64g3-16-62"),
    ("linux.arm64.m8g.4xlarge", "l-arm64g4-16-62"),
    ("linux.arm64.m8g.4xlarge.ephemeral", "l-arm64g4-16-62"),
    ("linux.arm64.r7g.12xlarge.memory", "l-arm64g3-61-463"),
    ("linux.arm64.m7g.metal", "l-barm64g4-62-226")]

/-- `PRODUCTION_JOB_COUNTS`. -/
def productionJobCounts : List (String × ℕ) :=
  [("linux.2xlarge", 491396), ("linux.c7i.2xlarge", 350911), ("linux.4xlarge", 279660),
    ("linux.g5.4xlarge.nvidia.gpu", 93759), ("linux.g6.4xlarge.experimental.nvidia.gpu", 61263),
    ("linux.2xlarge.amx", 46174), ("linux.large", 37043), ("linux.12xlarge", 31542),
    ("linux.c7i.4xlarge", 29111), ("linux.arm64.m7g.4xlarge", 23594),
    ("linux.g4dn.metal.nvidia.gpu", 19040), ("linux.arm64.m8g.4xlarge", 17935),
    ("linux.g4dn.12xlarge.nvidia.gpu", 17625), ("linux.12xlarge.memory", 10978),
    ("linux.4xlarge.memory", 10695), ("linux.12xlarge.memory.ephemeral", 9815),
    ("linux.g5.12xlarge.nvidia.gpu", 7932), ("linux.9xlarge.ephemeral", 7678),
    ("linux.8xlarge.amx", 7663), ("linux.24xl.spr-metal", 6983), ("linux.r7i.2xlarge", 5173),
    ("linux.arm64.r7g.12xlarge.memory", 5046), ("linux.24xlarge.memory", 3652),
    ("linux.g4dn.4xlarge.nvidia.gpu", 3651), ("linux.g5.48xlarge.nvidia.gpu", 3465),
    ("linux.g6.12xlarge.nvidia.gpu", 3261), ("linux.8xlarge.memory", 1522),
    ("linux.r7i.4xlarge", 1449), ("linux.10xlarge.avx2", 1290), ("linux.arm64.m7g.metal", 1170),
    ("linux.c7i.12xlarge", 858), ("linux.24xlarge.amd", 720), ("linux.2xlarge.avx2", 534),
    ("linux.4xlarge.nvidia.gpu", 468), ("linux.2xlarge.memory", 15), ("linux.24xlarge", 14)]

/-- `_aggregate_production_counts`, with 0 for a label that is not in the dictionary. -/
def aggregateProductionCounts : String → ℕ :=
  oldToOsdcLabel.foldl (fun osdcCounts labels =>
    let count := (productionJobCounts.lookup labels.1).getD 0
    if 0 < count then
      Function.update osdcCounts labels.2 (osdcCounts labels.2 + count)
    else osdcCounts) fun _ => 0

/-! ### Labels -/

/-- The value of a digit that `\d` matches. -/
def digitValue (c : Char) : ℕ :=
  ((decimalZeros.find? fun z => z ≤ c.toNat ∧ c.toNat < z + 10).map (c.toNat - ·)).getD 0

/-- `int` of a run of digits. -/
def digitsValue (cs : List Char) : ℕ := cs.foldl (fun n c => 10 * n + digitValue c) 0

/-- `(?:-(\d+))?$` matches here: the number of GPUs. -/
def gpuCountEnds (cs : List Char) : Option ℕ :=
  match cs with
  | '-' :: rest =>
    if !(rest.takeWhile isDecimal).isEmpty && atEnd (rest.dropWhile isDecimal) then
      some (digitsValue (rest.takeWhile isDecimal))
    else none
  | cs => if atEnd cs then some 1 else none

/-- `_OSDC_GPU_PATTERN` matches here. No two of the names begin alike. -/
def gpuEnds : List Char → Option ℕ
  | '-' :: 't' :: '4' :: cs => gpuCountEnds cs
  | '-' :: 'a' :: '1' :: '0' :: 'g' :: cs => gpuCountEnds cs
  | '-' :: 'l' :: '4' :: cs => gpuCountEnds cs
  | _ => none

/-- `_OSDC_GPU_PATTERN.search`. -/
def searchGpu : List Char → Option ℕ
  | [] => none
  | c :: cs =>
    match gpuEnds (c :: cs) with
    | some gpuCount => some gpuCount
    | none => searchGpu cs

/-- `classify_runner`: whether the runner has GPUs, whether it is an ARM one, and its GPUs. -/
def classifyRunner (label : String) : Bool × Bool × ℕ :=
  let isArm64 := decide ("arm64".toList <:+: label.toList)
  match searchGpu label.toList with
  | some gpuCount => (true, isArm64, gpuCount)
  | none => (false, isArm64, 0)

example : classifyRunner "l-x86aavx2-45-167-a10g-4" = (true, false, 4) := by decide +kernel

/-! ### The distribution -/

/-- A load test allocation for a single runner type. -/
structure RunnerAllocation where
  osdcLabel : String
  jobCount : ℤ
  sourceJobCount : ℕ
  proportion : ℚ
  isGpu : Bool
  isArm64 : Bool
  gpuCount : ℕ
  deriving DecidableEq

section

variable (active : String → ℕ) (labels : List String) (totalJobs minJobsPerType : ℤ)

/-- `sum(active.values())`. -/
def totalSource : ℕ := (labels.map active).sum

/-- The allocation that is listed for a label. -/
def allocation (label : String) (jobCount : ℤ) : RunnerAllocation where
  osdcLabel := label
  jobCount := jobCount
  sourceJobCount := active label
  proportion :=
    if 0 < totalSource active labels then active label / totalSource active labels
    else 1 / labels.length
  isGpu := (classifyRunner label).1
  isArm64 := (classifyRunner label).2.1
  gpuCount := (classifyRunner label).2.2

@[simp]
theorem allocation_osdcLabel (label : String) (jobCount : ℤ) :
    (allocation active labels label jobCount).osdcLabel = label := rfl

@[simp]
theorem allocation_jobCount (label : String) (jobCount : ℤ) :
    (allocation active labels label jobCount).jobCount = jobCount := rfl

@[simp]
theorem allocation_sourceJobCount (label : String) (jobCount : ℤ) :
    (allocation active labels label jobCount).sourceJobCount = active label := rfl

/-- The raw allocation of a label: the minimum and its proportion of the rest. -/
def raw (label : String) : ℚ :=
  if 0 < totalSource active labels then
    minJobsPerType + ((totalJobs - labels.length * minJobsPerType : ℤ) : ℚ) *
      (active label / totalSource active labels)
  else totalJobs / labels.length

/-- The loop that hands out what rounding has left. -/
def handOut (floored : String → ℤ) (diff : ℤ) : List String → String → ℤ
  | [] => floored
  | label :: rest =>
    if diff ≤ 0 then floored
    else handOut (Function.update floored label (floored label + 1)) (diff - 1) rest

/-- The rounded allocations. -/
def rounded : String → ℤ :=
  let floored label := PythonNumber.truncate (raw active labels totalJobs minJobsPerType label)
  let remainders label := raw active labels totalJobs minJobsPerType label - floored label
  handOut floored (totalJobs - (labels.map floored).sum)
    (labels.insertionSort fun label label' => remainders label' ≤ remainders label)

/-- The allocations of labels in order. -/
def allocations : List RunnerAllocation :=
  if totalJobs < labels.length * minJobsPerType then
    labels.zipIdx.map fun p => allocation active labels p.1 (if p.2 < totalJobs then 1 else 0)
  else
    labels.map fun label =>
      allocation active labels label (rounded active labels totalJobs minJobsPerType label)

end

-- Labels are sorted in the lexicographic order, which is linear.
local instance isTrans_label : IsTrans String (· ≤ ·) := inferInstance
local instance antisymm_label : Std.Antisymm (α := String) (· ≤ ·) := inferInstance
local instance total_label : Std.Total (α := String) (· ≤ ·) := inferInstance

/-- `compute_distribution`, with exact quotients. -/
def computeDistribution (totalJobs : ℤ) (availableRunners : Finset String) (minJobsPerType : ℤ) :
    List RunnerAllocation :=
  if availableRunners = ∅ ∨ totalJobs ≤ 0 then []
  else
    allocations aggregateProductionCounts (availableRunners.sort (· ≤ ·)) totalJobs minJobsPerType

/-! ### The raw allocations -/

section

variable {active : String → ℕ} {labels : List String} {totalJobs minJobsPerType : ℤ}
  {label label' : String}

/-- What is left after the minimum is not negative, so that no raw allocation is. -/
theorem raw_nonneg (hmin : 0 ≤ minJobsPerType) (htotal : labels.length * minJobsPerType ≤ totalJobs)
    (label : String) : 0 ≤ raw active labels totalJobs minJobsPerType label := by
  have hrest : (0 : ℚ) ≤ ((totalJobs - labels.length * minJobsPerType : ℤ) : ℚ) := by
    exact_mod_cast sub_nonneg.mpr htotal
  have hmin' : (0 : ℚ) ≤ minJobsPerType := by exact_mod_cast hmin
  have htotal' : (0 : ℚ) ≤ totalJobs := by
    exact_mod_cast (mul_nonneg (Nat.cast_nonneg _) hmin).trans htotal
  unfold raw
  split <;> positivity

theorem minJobsPerType_le_raw (htotal : labels.length * minJobsPerType ≤ totalJobs)
    (hlabel : label ∈ labels) :
    (minJobsPerType : ℚ) ≤ raw active labels totalJobs minJobsPerType label := by
  have hrest : (0 : ℚ) ≤ ((totalJobs - labels.length * minJobsPerType : ℤ) : ℚ) := by
    exact_mod_cast sub_nonneg.mpr htotal
  unfold raw
  split
  · have hshare : (0 : ℚ) ≤ active label / totalSource active labels := by positivity
    linarith [mul_nonneg hrest hshare]
  · have hlength : (0 : ℚ) < labels.length := by
      exact_mod_cast List.length_pos_of_mem hlabel
    rw [le_div_iff₀ hlength, mul_comm]
    exact_mod_cast htotal

/-- The raw allocations sum to the total. -/
theorem sum_raw (hlabels : labels ≠ []) :
    (labels.map (raw active labels totalJobs minJobsPerType)).sum = totalJobs := by
  have hlength : (labels.length : ℚ) ≠ 0 := by simpa using hlabels
  by_cases hsource : 0 < totalSource active labels
  · have hsource' : (totalSource active labels : ℚ) ≠ 0 := by exact_mod_cast hsource.ne'
    have hsum : (labels.map fun label => (active label : ℚ)).sum = totalSource active labels := by
      rw [totalSource, Nat.cast_list_sum, List.map_map]
      rfl
    have hraw : raw active labels totalJobs minJobsPerType = fun label =>
        minJobsPerType + ((totalJobs - labels.length * minJobsPerType : ℤ) : ℚ) /
          totalSource active labels * active label := by
      funext label
      rw [raw, if_pos hsource]
      ring
    rw [hraw, List.sum_map_add, List.sum_map_mul_left, hsum, div_mul_cancel₀ _ hsource']
    simp
  · have hraw : raw active labels totalJobs minJobsPerType = fun _ =>
        (totalJobs : ℚ) / labels.length := by
      funext label
      rw [raw, if_neg hsource]
    rw [hraw]
    simp [mul_div_cancel₀, hlength]

theorem totalSource_pos (hlabel' : label' ∈ labels) (hlt : active label < active label') :
    0 < totalSource active labels := by
  have hle : active label' ≤ totalSource active labels :=
    List.single_le_sum (by simp) _ (List.mem_map_of_mem hlabel')
  omega

/-- If there is nothing to distribute, the raw allocations of labels of different source counts are
the same. -/
theorem raw_eq_minJobsPerType (htotal : labels.length * minJobsPerType = totalJobs)
    (hsource : 0 < totalSource active labels) (label : String) :
    raw active labels totalJobs minJobsPerType label = minJobsPerType := by
  simp [raw, hsource, htotal]

/-- Otherwise a larger source count has a larger raw allocation. -/
theorem raw_lt_raw (htotal : labels.length * minJobsPerType < totalJobs)
    (hlabel' : label' ∈ labels) (hlt : active label < active label') :
    raw active labels totalJobs minJobsPerType label <
      raw active labels totalJobs minJobsPerType label' := by
  have hsource := totalSource_pos hlabel' hlt
  have hrest : (0 : ℚ) < ((totalJobs - labels.length * minJobsPerType : ℤ) : ℚ) := by
    exact_mod_cast sub_pos.mpr htotal
  rw [raw, raw, if_pos hsource, if_pos hsource]
  gcongr

/-! ### Rounding -/

/-- The loop gives one more to the first labels, as many as there are left. -/
theorem handOut_apply {floored : String → ℤ} {diff : ℤ} (hnodup : labels.Nodup) (label : String) :
    handOut floored diff labels label =
      floored label + if label ∈ labels.take diff.toNat then 1 else 0 := by
  induction labels generalizing floored diff with
  | nil => simp [handOut]
  | cons first rest ih =>
    obtain ⟨hfirst, hnodup⟩ := List.nodup_cons.mp hnodup
    unfold handOut
    split
    case isTrue hdiff =>
      simp [Int.toNat_of_nonpos hdiff]
    case isFalse hdiff =>
      have htake : diff.toNat = (diff - 1).toNat + 1 := by omega
      rw [ih hnodup, htake, List.take_succ_cons]
      by_cases hlabel : label = first
      · subst hlabel
        have hnot : label ∉ rest.take (diff - 1).toNat := fun hmem =>
          hfirst (List.mem_of_mem_take hmem)
        rw [if_neg hnot, Function.update_self, if_pos List.mem_cons_self, add_zero]
      · simp [hlabel, Function.update_of_ne]

/-- The rounded allocations are those of the largest remainder method. -/
theorem rounded_eq_apportion (hnodup : labels.Nodup) (hmin : 0 ≤ minJobsPerType)
    (htotal : labels.length * minJobsPerType ≤ totalJobs) :
    rounded active labels totalJobs minJobsPerType =
      Apportionment.apportion (raw active labels totalJobs minJobsPerType) labels totalJobs := by
  have hfloor : ∀ label, PythonNumber.truncate (raw active labels totalJobs minJobsPerType label) =
      ⌊raw active labels totalJobs minJobsPerType label⌋ := fun label =>
    if_pos (raw_nonneg hmin htotal label)
  funext label
  have hnodup' : (Apportionment.byRemainder (raw active labels totalJobs minJobsPerType)
      labels).Nodup := (Apportionment.byRemainder_perm _ labels).nodup_iff.mpr hnodup
  unfold rounded
  simp only [hfloor]
  exact handOut_apply hnodup' label

/-- With too few jobs the first labels, as many as there are jobs, have one each. -/
theorem allocations_of_lt (hnodup : labels.Nodup) (hnonneg : 0 ≤ totalJobs)
    (hfew : totalJobs < labels.length * minJobsPerType) :
    allocations active labels totalJobs minJobsPerType = labels.map fun label =>
      allocation active labels label (if label ∈ labels.take totalJobs.toNat then 1 else 0) := by
  have hindex : ∀ p ∈ labels.zipIdx,
      ((p.2 : ℤ) < totalJobs ↔ p.1 ∈ labels.take totalJobs.toNat) := by
    rintro ⟨label, i⟩ hp
    obtain ⟨hi, rfl⟩ := List.getElem?_eq_some_iff.mp (List.mk_mem_zipIdx_iff_getElem?.mp hp)
    rw [List.mem_take_iff_getElem]
    constructor
    · intro hlt
      exact ⟨i, by omega, rfl⟩
    · rintro ⟨j, hj, hij⟩
      obtain rfl : j = i := hnodup.getElem_inj_iff.mp hij
      dsimp only
      omega
  rw [allocations, if_pos hfew]
  have hfirst : ∀ job : String → RunnerAllocation,
      labels.map job = labels.zipIdx.map fun p => job p.1 := fun job => by
    conv_lhs => rw [← List.zipIdx_map_fst 0 labels, List.map_map]
    rfl
  rw [hfirst]
  refine List.map_congr_left fun p hp => ?_
  simp only [hindex p hp]

end

/-! ### What the distribution promises -/

section

variable (active : String → ℕ) (availableRunners : Finset String) (totalJobs minJobsPerType : ℤ)

/-- The exact quota of a type: the minimum and its share of the rest, in proportion to its source
count, or an equal share if no type has any. -/
def quota (label : String) : ℚ :=
  if 0 < ∑ label ∈ availableRunners, active label then
    minJobsPerType + (totalJobs - availableRunners.card * minJobsPerType) *
      (active label / ∑ label ∈ availableRunners, (active label : ℚ))
  else totalJobs / availableRunners.card

/-- The jobs are distributed over the types exactly, near the quotas if there are enough of them,
and with no advantage for a smaller source count. -/
structure AllocatesExactly (result : List RunnerAllocation) : Prop where
  types : (result.map RunnerAllocation.osdcLabel).Perm availableRunners.toList
  sources : ∀ a ∈ result, a.sourceJobCount = active a.osdcLabel
  nonneg : ∀ a ∈ result, 0 ≤ a.jobCount
  sum_eq : (result.map RunnerAllocation.jobCount).sum = totalJobs
  near : availableRunners.card * minJobsPerType ≤ totalJobs → ∀ a ∈ result,
    minJobsPerType ≤ a.jobCount ∧
      (a.jobCount = ⌊quota active availableRunners totalJobs minJobsPerType a.osdcLabel⌋ ∨
        a.jobCount = ⌈quota active availableRunners totalJobs minJobsPerType a.osdcLabel⌉)
  mono : ∀ a ∈ result, ∀ b ∈ result, a.sourceJobCount < b.sourceJobCount → a.jobCount ≤ b.jobCount

end

section

variable {active : String → ℕ} {availableRunners : Finset String} {totalJobs minJobsPerType : ℤ}

theorem raw_sort (label : String) :
    raw active (availableRunners.sort (· ≤ ·)) totalJobs minJobsPerType label =
      quota active availableRunners totalJobs minJobsPerType label := by
  have hsource : totalSource active (availableRunners.sort (· ≤ ·)) =
      ∑ label ∈ availableRunners, active label := by
    rw [totalSource, ((Finset.sort_perm_toList _ _).map active).sum_eq, Finset.sum_map_toList]
  simp only [raw, quota, hsource, Finset.length_sort]
  push_cast
  rfl

/-- What the promise says of labels in order, each with its jobs. -/
theorem allocatesExactly_map_iff {job : String → ℤ} :
    AllocatesExactly active availableRunners totalJobs minJobsPerType
        ((availableRunners.sort (· ≤ ·)).map fun label =>
          allocation active (availableRunners.sort (· ≤ ·)) label (job label)) ↔
      (∀ label ∈ availableRunners, 0 ≤ job label) ∧
      ((availableRunners.sort (· ≤ ·)).map job).sum = totalJobs ∧
      (availableRunners.card * minJobsPerType ≤ totalJobs → ∀ label ∈ availableRunners,
        minJobsPerType ≤ job label ∧
          (job label = ⌊quota active availableRunners totalJobs minJobsPerType label⌋ ∨
            job label = ⌈quota active availableRunners totalJobs minJobsPerType label⌉)) ∧
      ∀ label ∈ availableRunners, ∀ label' ∈ availableRunners, active label < active label' →
        job label ≤ job label' := by
  have hmem : ∀ label, label ∈ availableRunners.sort (· ≤ ·) ↔ label ∈ availableRunners := by simp
  constructor
  · rintro ⟨-, -, hnonneg, hsum, hnear, hmono⟩
    simp only [List.forall_mem_map, hmem, allocation_jobCount, allocation_osdcLabel,
      allocation_sourceJobCount] at hnonneg hnear hmono
    rw [List.map_map] at hsum
    exact ⟨hnonneg, hsum, hnear, hmono⟩
  · rintro ⟨hnonneg, hsum, hnear, hmono⟩
    refine ⟨?_, by simp, by simpa [hmem] using hnonneg, ?_, by simpa [hmem] using hnear,
      by simpa [hmem] using hmono⟩
    · simpa [Function.comp_def] using Finset.sort_perm_toList availableRunners (· ≤ ·)
    · rw [List.map_map]
      exact hsum

/-- With enough jobs for the minimum, the promise is kept. -/
theorem allocatesExactly_of_le (hne : availableRunners.Nonempty) (hmin : 1 ≤ minJobsPerType)
    (henough : availableRunners.card * minJobsPerType ≤ totalJobs) :
    AllocatesExactly active availableRunners totalJobs minJobsPerType
      (allocations active (availableRunners.sort (· ≤ ·)) totalJobs minJobsPerType) := by
  have hnodup : (availableRunners.sort (· ≤ ·)).Nodup := Finset.sort_nodup _ _
  have hlabels : availableRunners.sort (· ≤ ·) ≠ [] := by
    rw [← List.length_pos_iff_ne_nil, Finset.length_sort]
    exact hne.card_pos
  have henough' : ((availableRunners.sort (· ≤ ·)).length : ℤ) * minJobsPerType ≤ totalJobs := by
    rwa [Finset.length_sort]
  have hsum := @sum_raw active _ totalJobs minJobsPerType hlabels
  rw [allocations, if_neg (not_lt.mpr henough'),
    rounded_eq_apportion hnodup (by omega) henough', allocatesExactly_map_iff]
  have hfloor : ∀ label ∈ availableRunners, minJobsPerType ≤
      Apportionment.apportion (raw active (availableRunners.sort (· ≤ ·)) totalJobs
        minJobsPerType) (availableRunners.sort (· ≤ ·)) totalJobs label := by
    intro label hlabel
    refine le_trans ?_ Apportionment.floor_le_apportion
    exact Int.le_floor.mpr (minJobsPerType_le_raw henough' (by simpa using hlabel))
  refine ⟨fun label hlabel => ?_, Apportionment.sum_apportion hnodup hsum,
    fun _ label hlabel => ⟨hfloor label hlabel, ?_⟩, fun label hlabel label' hlabel' hlt => ?_⟩
  · have := hfloor label hlabel
    omega
  · rw [← raw_sort]
    exact Apportionment.apportion_eq_floor_or_ceil hsum label
  · rcases henough'.lt_or_eq with hrest | hrest
    · exact Apportionment.apportion_le_apportion (by simpa using hlabel')
        (raw_lt_raw hrest (by simpa using hlabel') hlt)
    · have hsource := @totalSource_pos active (availableRunners.sort (· ≤ ·)) _ _
        (by simpa using hlabel') hlt
      have hmet : ∀ label, Apportionment.apportion (raw active (availableRunners.sort (· ≤ ·))
          totalJobs minJobsPerType) (availableRunners.sort (· ≤ ·)) totalJobs label =
            minJobsPerType := fun label => by
        have hraw := raw_eq_minJobsPerType hrest hsource label
        rw [Apportionment.apportion_of_fract_eq_zero hsum (by simp [hraw]), hraw, Int.floor_intCast]
      rw [hmet, hmet]

/-- With too few jobs, the promise is kept if no type has to have more than one job and the first
types by name are those with the largest source counts. -/
theorem allocatesExactly_iff_of_lt (hpos : 0 < totalJobs)
    (hfew : totalJobs < availableRunners.card * minJobsPerType) :
    AllocatesExactly active availableRunners totalJobs minJobsPerType
        (allocations active (availableRunners.sort (· ≤ ·)) totalJobs minJobsPerType) ↔
      totalJobs ≤ availableRunners.card ∧
        ∀ label ∈ (availableRunners.sort (· ≤ ·)).take totalJobs.toNat,
          ∀ label' ∈ (availableRunners.sort (· ≤ ·)).drop totalJobs.toNat,
            active label' ≤ active label := by
  have hnodup : (availableRunners.sort (· ≤ ·)).Nodup := Finset.sort_nodup _ _
  have hfew' : totalJobs < ((availableRunners.sort (· ≤ ·)).length : ℤ) * minJobsPerType := by
    rwa [Finset.length_sort]
  have hlength : (availableRunners.sort (· ≤ ·)).length = availableRunners.card :=
    Finset.length_sort _
  rw [allocations_of_lt hnodup hpos.le hfew', allocatesExactly_map_iff]
  generalize hlabels : availableRunners.sort (· ≤ ·) = labels at hnodup hlength
  have hmem : ∀ label, label ∈ availableRunners ↔ label ∈ labels := by simp [← hlabels]
  have hdrop : ∀ label ∈ labels.drop totalJobs.toNat, label ∉ labels.take totalJobs.toNat := by
    rw [← List.take_append_drop totalJobs.toNat labels] at hnodup
    exact fun label hlabel hfirst => (List.nodup_append.mp hnodup).2.2 _ hfirst _ hlabel rfl
  constructor
  · rintro ⟨-, hsum, -, hmono⟩
    have hle : totalJobs ≤ availableRunners.card := by
      by_contra hmore
      have hall := Apportionment.sum_ite_mem_take hnodup le_rfl
      rw [List.take_of_length_le (by omega)] at hsum
      rw [List.take_length] at hall
      omega
    refine ⟨hle, fun label hlabel label' hlabel' => ?_⟩
    by_contra hlt
    have hjobs := hmono label ((hmem label).mpr (List.mem_of_mem_take hlabel)) label'
      ((hmem label').mpr (List.mem_of_mem_drop hlabel')) (not_le.mp hlt)
    rw [if_pos hlabel, if_neg (hdrop label' hlabel')] at hjobs
    omega
  · rintro ⟨hle, hfirst⟩
    refine ⟨fun label _ => ?_, ?_, fun henough => absurd hfew (not_lt.mpr henough),
      fun label hlabel label' hlabel' hlt => ?_⟩
    · split <;> omega
    · rw [Apportionment.sum_ite_mem_take hnodup (by omega)]
      omega
    · by_cases htake : label ∈ labels.take totalJobs.toNat
      · have htake' : label' ∈ labels.take totalJobs.toNat := by
          rw [hmem, ← List.take_append_drop totalJobs.toNat labels, List.mem_append] at hlabel'
          rcases hlabel' with hlabel' | hlabel'
          · exact hlabel'
          · exact absurd (hfirst label htake label' hlabel') (not_le.mpr hlt)
        rw [if_pos htake, if_pos htake']
      · rw [if_neg htake]
        split <;> omega

end

/-- The distribution keeps its promise if the jobs are enough for the minimum, and else as far as
one job each for the first types by name does. -/
theorem allocatesExactly_computeDistribution_iff {totalJobs minJobsPerType : ℤ}
    {availableRunners : Finset String} (hpos : 0 < totalJobs) (hne : availableRunners.Nonempty)
    (hmin : 1 ≤ minJobsPerType) :
    AllocatesExactly aggregateProductionCounts availableRunners totalJobs minJobsPerType
        (computeDistribution totalJobs availableRunners minJobsPerType) ↔
      availableRunners.card * minJobsPerType ≤ totalJobs ∨
      totalJobs ≤ availableRunners.card ∧
        ∀ label ∈ (availableRunners.sort (· ≤ ·)).take totalJobs.toNat,
          ∀ label' ∈ (availableRunners.sort (· ≤ ·)).drop totalJobs.toNat,
            aggregateProductionCounts label' ≤ aggregateProductionCounts label := by
  have hnot : ¬ (availableRunners = ∅ ∨ totalJobs ≤ 0) := by
    rw [not_or]
    exact ⟨hne.ne_empty, by omega⟩
  rw [computeDistribution, if_neg hnot]
  by_cases henough : availableRunners.card * minJobsPerType ≤ totalJobs
  · exact iff_of_true (allocatesExactly_of_le hne hmin henough) (Or.inl henough)
  · rw [allocatesExactly_iff_of_lt hpos (not_le.mp henough)]
    simp [henough]

theorem allocatesExactly_computeDistribution_one :
    AllocatesExactly aggregateProductionCounts {"l-arm64g3-16-62"} 3 1
      (computeDistribution 3 {"l-arm64g3-16-62"} 1) :=
  (allocatesExactly_computeDistribution_iff (by decide) (by simp) le_rfl).mpr
    (Or.inl (by simp))

/-- Three jobs for a type that is to have five: one is allocated. -/
theorem not_allocatesExactly_computeDistribution :
    ¬ AllocatesExactly aggregateProductionCounts {"l-arm64g3-16-62"} 3 5
      (computeDistribution 3 {"l-arm64g3-16-62"} 5) := by
  intro h
  have hresult : (computeDistribution 3 {"l-arm64g3-16-62"} 5).map RunnerAllocation.jobCount =
      [1] := by
    simp [computeDistribution, allocations]
  have hsum := h.sum_eq
  rw [hresult] at hsum
  cases hsum

end CiInfra.LoadTest.Distribution

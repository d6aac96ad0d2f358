import CiInfra.Lib.PythonNumber
import Mathlib.Algebra.BigOperators.Ring.Finset
import Mathlib.Algebra.Order.BigOperators.Group.List
import Mathlib.Algebra.Order.Ring.Rat
import Mathlib.Data.List.DropRight
import Mathlib.Data.List.Forall2
import Mathlib.Data.List.Infix
import Mathlib.Tactic.FieldSimp
import Mathlib.Tactic.Linarith
import Mathlib.Tactic.Positivity

/-!
# The sizes of pods

What a pod requests of its node, what it is limited to and how many threads it is told to use are
three computations from its share of the node, with factors and roundings of their own. When do
they agree with each other?
-/

namespace CiInfra.GpuDev.PodSizes

/-! ### Types of instances -/

/-- An entry of `GPU_CONFIG`. -/
structure Config where
  maxGpus : ℤ
  cpus : ℤ
  memoryGb : ℤ
  efaCount : ℤ := 0
  k8sResource : String := "nvidia.com/gpu"

/-- `GPU_CONFIG_DEFAULT`. -/
def gpuConfigDefault : Config where
  maxGpus := 4
  cpus := 48
  memoryGb := 192

/-- `GPU_CONFIG.get(gpu_type, GPU_CONFIG_DEFAULT)`. -/
def configOf (types : List (String × Config)) (gpuType : String) : Config :=
  (types.lookup gpuType).getD gpuConfigDefault

/-- `gpu_type.startswith("cpu-")`. -/
def isCpuType (gpuType : String) : Bool := "cpu-".toList <+: gpuType.toList

/-- `"mig" in gpu_type`. -/
def isMig (gpuType : String) : Bool := "mig".toList <:+: gpuType.toList

/-- A text up to the first separator, and behind it. -/
def cutAt (separator : List Char) : List Char → Option (List Char × List Char)
  | [] => none
  | c :: s =>
    if separator <+: c :: s then some ([], (c :: s).drop separator.length)
    else (cutAt separator s).map fun parts => (c :: parts.1, parts.2)

/-- `s.split(separator)[1]`. -/
def secondPart (separator s : List Char) : Option (List Char) :=
  (cutAt separator s).map fun parts =>
    ((cutAt separator parts.2).map Prod.fst).getD parts.2

/-- `_mig_slice_fraction`. -/
def migSliceFraction (gpuType : String) : ℚ :=
  if isMig gpuType then
    match (secondPart "-mig-".toList gpuType.toList).bind fun part =>
        PythonNumber.int? (part.rdropWhile (· = 'g')) with
    | some slices => slices / 7
    | none => 1
  else 1

/-- `_FULL_GPUS_PER_MIG_NODE`. -/
def fullGpusPerMigNode : ℚ := 8

/-- `CPU_POD_CPU_FRACTION`. -/
def cpuPodCpuFraction : ℚ := 85 / 100

/-- `CPU_POD_MEM_FRACTION`. -/
def cpuPodMemFraction : ℚ := 80 / 100

/-- The part of an amount of a node that slices have, or GPUs. -/
def proportional (config : Config) (gpuType : String) (gpuCount : ℤ) (amount : ℤ) : ℚ :=
  if isMig gpuType then amount / fullGpusPerMigNode * migSliceFraction gpuType * gpuCount
  else amount * if 0 < config.maxGpus then (gpuCount : ℚ) / config.maxGpus else 1

/-! ### Requests and limits -/

/-- An amount as it is written, by itself or with a unit. -/
inductive Quantity
  | plain (n : ℤ)
  | mi (n : ℤ)
  | gi (n : ℤ)
  deriving DecidableEq

/-- What the amount is. -/
def Quantity.value : Quantity → ℤ
  | .plain n => n
  | .mi n => n * 2 ^ 20
  | .gi n => n * 2 ^ 30

/-- `_pod_uses_efa`. -/
def podUsesEfa (config : Config) (gpuCount : ℤ) : Bool :=
  0 < config.efaCount ∧ 0 < config.maxGpus ∧ gpuCount = config.maxGpus

/-- What `get_pod_resource_limits` and `get_pod_resource_requests` have in common: the dict in
which an amount of CPU and of memory is entered. The entry made last is the first of its name. -/
def podResources (config : Config) (gpuCount : ℤ) (gpuType : String) (cpu memory : ℤ) :
    List (String × Quantity) :=
  let sized :=
    if isCpuType gpuType then [("memory", .gi memory), ("cpu", .plain cpu)]
    else if 0 < gpuCount then
      [("memory", .gi memory), ("cpu", .plain cpu), (config.k8sResource, .plain gpuCount)]
    else []
  if podUsesEfa config gpuCount then
    ("hugepages-2Mi", .mi 5120) :: ("vpc.amazonaws.com/efa", .plain config.efaCount) :: sized
  else sized

/-- The CPU of `get_pod_resource_limits`. -/
def cpuLimit (config : Config) (gpuCount : ℤ) (gpuType : String) : ℤ :=
  if isCpuType gpuType then ⌊config.cpus * cpuPodCpuFraction⌋
  else
    let proportionalCpuLimit :=
      min config.cpus ⌊proportional config gpuType gpuCount config.cpus * (3 / 2)⌋
    if isMig gpuType then max 1 proportionalCpuLimit else proportionalCpuLimit

/-- The memory of `get_pod_resource_limits`. -/
def memoryLimit (config : Config) (gpuCount : ℤ) (gpuType : String) : ℤ :=
  if isCpuType gpuType then ⌊config.memoryGb * cpuPodMemFraction⌋
  else
    let proportionalMemoryLimit := ⌊proportional config gpuType gpuCount config.memoryGb⌋
    if isMig gpuType then max 1 proportionalMemoryLimit else proportionalMemoryLimit

/-- How much of an amount `get_pod_resource_requests` requests. -/
def amountRequest (config : Config) (gpuCount : ℤ) (gpuType : String) (amount : ℤ)
    (cpuPodFraction : ℚ) : ℤ :=
  if isCpuType gpuType then ⌊amount * cpuPodFraction⌋
  else
    let proportionalRequest := ⌊proportional config gpuType gpuCount amount * (9 / 10)⌋
    if isMig gpuType then max 1 proportionalRequest else proportionalRequest

/-- The CPU of `get_pod_resource_requests`. -/
def cpuRequest (config : Config) (gpuCount : ℤ) (gpuType : String) : ℤ :=
  amountRequest config gpuCount gpuType config.cpus cpuPodCpuFraction

/-- The memory of `get_pod_resource_requests`. -/
def memoryRequest (config : Config) (gpuCount : ℤ) (gpuType : String) : ℤ :=
  amountRequest config gpuCount gpuType config.memoryGb cpuPodMemFraction

/-- `get_pod_resource_limits`. -/
def getPodResourceLimits (types : List (String × Config)) (gpuCount : ℤ) (gpuType : String) :
    List (String × Quantity) :=
  let config := configOf types gpuType
  podResources config gpuCount gpuType (cpuLimit config gpuCount gpuType)
    (memoryLimit config gpuCount gpuType)

/-- `get_pod_resource_requests`. -/
def getPodResourceRequests (types : List (String × Config)) (gpuCount : ℤ) (gpuType : String) :
    List (String × Quantity) :=
  let config := configOf types gpuType
  podResources config gpuCount gpuType (cpuRequest config gpuCount gpuType)
    (memoryRequest config gpuCount gpuType)

/-! ### Threads -/

/-- `thread_count`. -/
def threadCount (config : Config) (gpuCount : ℤ) (gpuType : String) : ℤ :=
  if isCpuType gpuType then max 1 (config.cpus - 2)
  else if 0 < config.maxGpus ∧ 0 < gpuCount then
    max 1 (min config.cpus ⌊config.cpus * ((gpuCount : ℚ) / config.maxGpus) * (3 / 2)⌋)
  else config.cpus

/-- `get_cpu_thread_env_vars`. -/
def getCpuThreadEnvVars (types : List (String × Config)) (gpuCount : ℤ) (gpuType : String) :
    List (String × String) :=
  let threadStr := toString (threadCount (configOf types gpuType) gpuCount gpuType)
  [("OMP_NUM_THREADS", threadStr), ("MKL_NUM_THREADS", threadStr),
    ("NUMEXPR_MAX_THREADS", threadStr), ("OPENBLAS_NUM_THREADS", threadStr),
    ("GOMAXPROCS", threadStr), ("MAX_JOBS", threadStr),
    ("CMAKE_BUILD_PARALLEL_LEVEL", threadStr), ("MAKEFLAGS", "-j" ++ threadStr),
    ("GPU_DEV_THREAD_COUNT", threadStr), ("CCACHE_DIR", "/ccache_shared"),
    ("CCACHE_MAXSIZE", "250G"), ("PIP_BREAK_SYSTEM_PACKAGES", "1")]

/-! ### Occupied nodes -/

/-- A pod that is to be sized. -/
structure SizedPod where
  gpuCount : ℤ
  gpuType : String

/-- The share of the node that a pod takes: its part of the GPUs, and the whole node for a pod that
gets a node to itself. -/
def share (config : Config) (p : SizedPod) : ℚ :=
  if isCpuType p.gpuType then 1
  else if 0 < p.gpuCount then
    if isMig p.gpuType then p.gpuCount * migSliceFraction p.gpuType / fullGpusPerMigNode
    else p.gpuCount / config.maxGpus
  else 0

/-- A node with pods that take at most all of it. -/
structure Occupancy where
  types : List (String × Config)
  cpus : ℤ
  memoryGb : ℤ
  pods : List SizedPod
  cpus_eq : ∀ p ∈ pods, (configOf types p.gpuType).cpus = cpus
  memory_eq : ∀ p ∈ pods, (configOf types p.gpuType).memoryGb = memoryGb
  one_le_cpus : 1 ≤ cpus
  one_le_memory : 1 ≤ memoryGb
  slices : ∀ p ∈ pods, isMig p.gpuType → 63 ≤ cpus ∧ 63 ≤ memoryGb ∧
    0 < migSliceFraction p.gpuType
  count_le : ∀ p ∈ pods, p.gpuCount ≤ (configOf types p.gpuType).maxGpus
  share_le : (pods.map fun p => share (configOf types p.gpuType) p).sum ≤ 1

namespace Occupancy

variable (o : Occupancy)

/-- The entry of the type of a pod. -/
def config (p : SizedPod) : Config := configOf o.types p.gpuType

theorem config_eq (p : SizedPod) : o.config p = configOf o.types p.gpuType := rfl

/-- What a pod requests. -/
def requests (p : SizedPod) : List (String × Quantity) :=
  getPodResourceRequests o.types p.gpuCount p.gpuType

/-- What a pod is limited to. -/
def limits (p : SizedPod) : List (String × Quantity) :=
  getPodResourceLimits o.types p.gpuCount p.gpuType

/-- How much of a resource a pod requests. -/
def requested (resource : String) (p : SizedPod) : ℤ :=
  (((o.requests p).lookup resource).map Quantity.value).getD 0

/-- The number of threads that a pod is told to use. -/
def threads (p : SizedPod) : ℤ := threadCount (o.config p) p.gpuCount p.gpuType

/-- Pods fit their node and their limits. -/
structure SizesFit : Prop where
  cpu : (o.pods.map (o.requested "cpu")).sum ≤ o.cpus
  memory : (o.pods.map (o.requested "memory")).sum ≤ (Quantity.gi o.memoryGb).value
  limited : ∀ p ∈ o.pods, ∀ resource request, (o.requests p).lookup resource = some request →
    ∃ limit, (o.limits p).lookup resource = some limit ∧ request.value ≤ limit.value
  threads_pos : ∀ p ∈ o.pods, 1 ≤ o.threads p
  threads_le : ∀ p ∈ o.pods, ∀ limit, (o.limits p).lookup "cpu" = some limit →
    o.threads p ≤ limit.value

/-- The number of threads of a pod agrees with its limit: the formula for whole GPUs, which is also
used for slices, leaves at least one core, and for slices gives no more than their part of a node,
or this part is all of the node. A node without GPUs is so small that two cores are more than what
is kept from its pod. -/
def ThreadsAgree (config : Config) (p : SizedPod) : Prop :=
  if isCpuType p.gpuType then 2 ≤ config.cpus ∧ config.cpus ≤ 13
  else 0 < p.gpuCount →
    if isMig p.gpuType then
      ⌊config.cpus * ((p.gpuCount : ℚ) / config.maxGpus) * (3 / 2)⌋ ≤
          ⌊config.cpus * share config p * (3 / 2)⌋ ∨ 1 ≤ share config p * (3 / 2)
    else 2 * config.maxGpus ≤ 3 * config.cpus * p.gpuCount

end Occupancy

/-! ### Rounding -/

theorem sum_le_of_forall_le_mul {α : Type} {f : α → ℤ} {g : α → ℚ} {l : List α} {a : ℤ}
    (ha : 0 ≤ a) (h : ∀ x ∈ l, (f x : ℚ) ≤ a * g x) (hsum : (l.map g).sum ≤ 1) :
    (l.map f).sum ≤ a := by
  have hle : (((l.map f).sum : ℤ) : ℚ) ≤ a * (l.map g).sum := by
    clear hsum
    induction l with
    | nil => simp
    | cons x l ih =>
      rw [List.forall_mem_cons] at h
      simp only [List.map_cons, List.sum_cons, Int.cast_add, mul_add]
      exact add_le_add h.1 (ih h.2)
  have ha' : (0 : ℚ) ≤ a := by exact_mod_cast ha
  have htotal : (a : ℚ) * (l.map g).sum ≤ a := mul_le_of_le_one_right ha' hsum
  exact_mod_cast hle.trans htotal

/-- Where the entries of one dict are at most those of the other, what is found is too. -/
theorem exists_lookup_le {r r' : List (String × Quantity)}
    (h : List.Forall₂ (fun e e' => e.1 = e'.1 ∧ e.2.value ≤ e'.2.value) r r') {name : String}
    {q : Quantity} (hq : r.lookup name = some q) :
    ∃ q', r'.lookup name = some q' ∧ q.value ≤ q'.value := by
  induction h with
  | nil => cases hq
  | @cons e e' r r' he hr ih =>
    obtain ⟨hname, hle⟩ := he
    rw [List.lookup_cons] at hq ⊢
    rw [← hname]
    cases hfound : name == e.1 with
    | true =>
      rw [hfound] at hq
      obtain rfl := Option.some.inj hq
      exact ⟨e'.2, rfl, hle⟩
    | false =>
      rw [hfound] at hq
      exact ih hq

section Resources

variable {config : Config} {gpuCount cpu cpu' memory memory' : ℤ} {gpuType : String}

theorem lookup_cpu : (podResources config gpuCount gpuType cpu memory).lookup "cpu" =
    if isCpuType gpuType = true ∨ 0 < gpuCount then some (.plain cpu) else none := by
  unfold podResources
  cases isCpuType gpuType <;> by_cases hcount : 0 < gpuCount <;>
    cases podUsesEfa config gpuCount <;> simp [hcount, List.lookup_cons]

theorem lookup_memory : (podResources config gpuCount gpuType cpu memory).lookup "memory" =
    if isCpuType gpuType = true ∨ 0 < gpuCount then some (.gi memory) else none := by
  unfold podResources
  cases isCpuType gpuType <;> by_cases hcount : 0 < gpuCount <;>
    cases podUsesEfa config gpuCount <;> simp [hcount, List.lookup_cons]

/-- More CPU and memory make no entry smaller. -/
theorem forall₂_podResources
    (h : isCpuType gpuType = true ∨ 0 < gpuCount → cpu ≤ cpu' ∧ memory ≤ memory') :
    List.Forall₂ (fun e e' => e.1 = e'.1 ∧ e.2.value ≤ e'.2.value)
      (podResources config gpuCount gpuType cpu memory)
      (podResources config gpuCount gpuType cpu' memory') := by
  have hrefl : ∀ r : List (String × Quantity),
      List.Forall₂ (fun e e' => e.1 = e'.1 ∧ e.2.value ≤ e'.2.value) r r :=
    fun r => List.forall₂_same.mpr fun _ _ => ⟨rfl, le_rfl⟩
  by_cases hsized : isCpuType gpuType = true ∨ 0 < gpuCount
  · obtain ⟨hcpu, hmemory⟩ := h hsized
    have hgi : (Quantity.gi memory).value ≤ (Quantity.gi memory').value :=
      mul_le_mul_of_nonneg_right hmemory (by positivity)
    unfold podResources
    split_ifs <;> simp_all [Quantity.value]
  · have heq : podResources config gpuCount gpuType cpu memory =
        podResources config gpuCount gpuType cpu' memory' := by
      unfold podResources
      simp [not_or.mp hsized]
    rw [heq]
    exact hrefl _

end Resources

theorem migSliceFraction_eq (gpuType : String) :
    migSliceFraction gpuType = 1 ∨ ∃ slices : ℤ, migSliceFraction gpuType = slices / 7 := by
  unfold migSliceFraction
  split
  · split
    · rename_i slices _
      exact Or.inr ⟨slices, rfl⟩
    · exact Or.inl rfl
  · exact Or.inl rfl

/-- A slice is at least a seventh of a GPU. -/
theorem le_migSliceFraction {gpuType : String} (h : 0 < migSliceFraction gpuType) :
    1 / 7 ≤ migSliceFraction gpuType := by
  rcases migSliceFraction_eq gpuType with hone | ⟨slices, hslices⟩
  · rw [hone]
    norm_num
  · rw [hslices] at h ⊢
    have hpos : (0 : ℚ) < slices := by linarith
    have hone : (1 : ℚ) ≤ slices := by exact_mod_cast hpos
    linarith

/-! ### Requests -/

namespace Occupancy

variable {o : Occupancy} {p : SizedPod}

theorem share_eq_of_isMig (hcpu : ¬ isCpuType p.gpuType = true) (hcount : 0 < p.gpuCount)
    (hmig : isMig p.gpuType = true) : share (o.config p) p =
      p.gpuCount * migSliceFraction p.gpuType / fullGpusPerMigNode := by
  rw [share, if_neg hcpu, if_pos hcount, if_pos hmig]

theorem share_eq (hcpu : ¬ isCpuType p.gpuType = true) (hcount : 0 < p.gpuCount)
    (hmig : ¬ isMig p.gpuType = true) :
    share (o.config p) p = p.gpuCount / (o.config p).maxGpus := by
  rw [share, if_neg hcpu, if_pos hcount, if_neg hmig]

theorem maxGpus_pos (hp : p ∈ o.pods) (hcount : 0 < p.gpuCount) : 0 < (o.config p).maxGpus :=
  hcount.trans_le (o.count_le p hp)

/-- Slices have at least a 56th of a node. -/
theorem le_share_of_isMig (hp : p ∈ o.pods) (hcpu : ¬ isCpuType p.gpuType = true)
    (hcount : 0 < p.gpuCount) (hmig : isMig p.gpuType = true) :
    1 / 56 ≤ share (o.config p) p := by
  have hfraction := le_migSliceFraction (o.slices p hp hmig).2.2
  have hone : (1 : ℚ) ≤ p.gpuCount := by exact_mod_cast hcount
  have hmul : 1 * (1 / 7) ≤ (p.gpuCount : ℚ) * migSliceFraction p.gpuType :=
    mul_le_mul hone hfraction (by norm_num) (by linarith)
  rw [share_eq_of_isMig hcpu hcount hmig, fullGpusPerMigNode]
  linarith

theorem share_nonneg (hp : p ∈ o.pods) : 0 ≤ share (o.config p) p := by
  by_cases hcpu : isCpuType p.gpuType = true
  · rw [share, if_pos hcpu]
    norm_num
  · by_cases hcount : 0 < p.gpuCount
    · by_cases hmig : isMig p.gpuType = true
      · exact le_trans (by norm_num) (le_share_of_isMig hp hcpu hcount hmig)
      · have hmax : (0 : ℚ) < (o.config p).maxGpus := by exact_mod_cast maxGpus_pos hp hcount
        have hpos : (0 : ℚ) < p.gpuCount := by exact_mod_cast hcount
        rw [share_eq hcpu hcount hmig]
        positivity
    · rw [share, if_neg hcpu, if_neg hcount]

theorem share_le_one (hp : p ∈ o.pods) : share (o.config p) p ≤ 1 := by
  have hmem : share (o.config p) p ∈ o.pods.map fun q => share (o.config q) q :=
    List.mem_map.mpr ⟨p, hp, rfl⟩
  have hnonneg : ∀ x ∈ o.pods.map fun q => share (o.config q) q, 0 ≤ x := by
    intro x hx
    obtain ⟨q, hq, rfl⟩ := List.mem_map.mp hx
    exact share_nonneg hq
  exact (List.single_le_sum hnonneg _ hmem).trans o.share_le

/-- What slices or GPUs get of an amount is their share of it. -/
theorem proportional_eq (hp : p ∈ o.pods) (hcpu : ¬ isCpuType p.gpuType = true)
    (hcount : 0 < p.gpuCount) (amount : ℤ) :
    proportional (o.config p) p.gpuType p.gpuCount amount = amount * share (o.config p) p := by
  by_cases hmig : isMig p.gpuType = true
  · rw [proportional, if_pos hmig, share_eq_of_isMig hcpu hcount hmig]
    ring
  · rw [proportional, if_neg hmig, if_pos (maxGpus_pos hp hcount), share_eq hcpu hcount hmig]

theorem floor_mul_le {amount : ℤ} {s factor : ℚ} (hamount : 0 ≤ amount) (hs : 0 ≤ s)
    (hfactor : factor ≤ 1) : ((⌊amount * s * factor⌋ : ℤ) : ℚ) ≤ amount * s := by
  have hpos : (0 : ℚ) ≤ amount * s := mul_nonneg (by exact_mod_cast hamount) hs
  exact (Int.floor_le _).trans (mul_le_of_le_one_right hpos hfactor)

/-- What is requested of an amount is at most the share of it. The share of a slice is not less than
the one unit that slices request at least. -/
theorem amountRequest_le (hp : p ∈ o.pods) (hsized : isCpuType p.gpuType = true ∨ 0 < p.gpuCount)
    {amount : ℤ} (hamount : 1 ≤ amount) (hslices : isMig p.gpuType = true → 63 ≤ amount)
    {fraction : ℚ} (hfraction : fraction ≤ 1) :
    (amountRequest (o.config p) p.gpuCount p.gpuType amount fraction : ℚ) ≤
      amount * share (o.config p) p := by
  unfold amountRequest
  by_cases hcpu : isCpuType p.gpuType = true
  · rw [if_pos hcpu, share, if_pos hcpu]
    have h := @floor_mul_le amount 1 fraction (by omega) (by norm_num) hfraction
    simpa using h
  · have hcount := hsized.resolve_left hcpu
    have hrequest : ((⌊(amount : ℚ) * share (o.config p) p * (9 / 10)⌋ : ℤ) : ℚ) ≤
        amount * share (o.config p) p :=
      floor_mul_le (by omega) (share_nonneg hp) (by norm_num)
    rw [if_neg hcpu]
    simp only [proportional_eq hp hcpu hcount]
    by_cases hmig : isMig p.gpuType = true
    · have hshare := le_share_of_isMig hp hcpu hcount hmig
      have hbig : (63 : ℚ) ≤ amount := by exact_mod_cast hslices hmig
      have hone : 63 * (1 / 56) ≤ (amount : ℚ) * share (o.config p) p :=
        mul_le_mul hbig hshare (by norm_num) (by linarith)
      rw [if_pos hmig, Int.cast_max, Int.cast_one]
      exact max_le (by linarith) hrequest
    · rw [if_neg hmig]
      exact hrequest

theorem share_eq_zero (h : ¬ (isCpuType p.gpuType = true ∨ 0 < p.gpuCount)) :
    share (o.config p) p = 0 := by
  obtain ⟨hcpu, hcount⟩ := not_or.mp h
  rw [share, if_neg hcpu, if_neg hcount]

theorem requested_cpu_le (hp : p ∈ o.pods) :
    (o.requested "cpu" p : ℚ) ≤ o.cpus * share (o.config p) p := by
  have hcpus : (o.config p).cpus = o.cpus := o.cpus_eq p hp
  unfold requested requests getPodResourceRequests
  rw [lookup_cpu]
  by_cases hsized : isCpuType p.gpuType = true ∨ 0 < p.gpuCount
  · have hle := amountRequest_le hp hsized o.one_le_cpus (fun h => (o.slices p hp h).1)
      (show cpuPodCpuFraction ≤ 1 by norm_num [cpuPodCpuFraction])
    rw [← hcpus] at hle ⊢
    rw [if_pos hsized]
    exact hle
  · rw [if_neg hsized, share_eq_zero hsized, mul_zero]
    exact le_rfl

theorem requested_memory_le (hp : p ∈ o.pods) : (o.requested "memory" p : ℚ) ≤
    ((Quantity.gi o.memoryGb).value : ℤ) * share (o.config p) p := by
  have hmemory : (o.config p).memoryGb = o.memoryGb := o.memory_eq p hp
  unfold requested requests getPodResourceRequests
  rw [lookup_memory]
  by_cases hsized : isCpuType p.gpuType = true ∨ 0 < p.gpuCount
  · have hle := amountRequest_le hp hsized o.one_le_memory (fun h => (o.slices p hp h).2.1)
      (show cpuPodMemFraction ≤ 1 by norm_num [cpuPodMemFraction])
    rw [← hmemory] at hle ⊢
    rw [if_pos hsized]
    change ((memoryRequest (o.config p) p.gpuCount p.gpuType * 2 ^ 30 : ℤ) : ℚ) ≤
      (((o.config p).memoryGb * 2 ^ 30 : ℤ) : ℚ) * share (o.config p) p
    rw [Int.cast_mul, Int.cast_mul, mul_right_comm]
    exact mul_le_mul_of_nonneg_right hle (by positivity)
  · rw [if_neg hsized, share_eq_zero hsized, mul_zero]
    exact le_rfl

/-! ### Limits -/

theorem cpuRequest_le_cpuLimit (hp : p ∈ o.pods)
    (hsized : isCpuType p.gpuType = true ∨ 0 < p.gpuCount) :
    cpuRequest (o.config p) p.gpuCount p.gpuType ≤ cpuLimit (o.config p) p.gpuCount p.gpuType := by
  unfold cpuRequest amountRequest cpuLimit
  by_cases hcpu : isCpuType p.gpuType = true
  · rw [if_pos hcpu, if_pos hcpu]
  · have hcpus : (0 : ℚ) ≤ (o.config p).cpus := by
      have hone := o.one_le_cpus
      rw [← o.cpus_eq p hp] at hone
      exact_mod_cast zero_le_one.trans hone
    have hshare := share_nonneg hp
    have hpart : 0 ≤ ((o.config p).cpus : ℚ) * share (o.config p) p := mul_nonneg hcpus hshare
    have hall : ((o.config p).cpus : ℚ) * share (o.config p) p ≤ (o.config p).cpus :=
      mul_le_of_le_one_right hcpus (share_le_one hp)
    have hle : ⌊((o.config p).cpus : ℚ) * share (o.config p) p * (9 / 10)⌋ ≤
        min (o.config p).cpus ⌊((o.config p).cpus : ℚ) * share (o.config p) p * (3 / 2)⌋ := by
      refine le_min ?_ (Int.floor_le_floor (by linarith))
      rw [← Int.cast_le (R := ℚ)]
      exact (Int.floor_le _).trans (by linarith)
    rw [if_neg hcpu, if_neg hcpu]
    simp only [proportional_eq hp hcpu (hsized.resolve_left hcpu)]
    by_cases hmig : isMig p.gpuType = true
    · rw [if_pos hmig, if_pos hmig]
      exact max_le_max le_rfl hle
    · rw [if_neg hmig, if_neg hmig]
      exact hle

theorem memoryRequest_le_memoryLimit (hp : p ∈ o.pods)
    (hsized : isCpuType p.gpuType = true ∨ 0 < p.gpuCount) :
    memoryRequest (o.config p) p.gpuCount p.gpuType ≤
      memoryLimit (o.config p) p.gpuCount p.gpuType := by
  unfold memoryRequest amountRequest memoryLimit
  by_cases hcpu : isCpuType p.gpuType = true
  · rw [if_pos hcpu, if_pos hcpu]
  · have hmemory : (0 : ℚ) ≤ (o.config p).memoryGb := by
      have hone := o.one_le_memory
      rw [← o.memory_eq p hp] at hone
      exact_mod_cast zero_le_one.trans hone
    have hpart : 0 ≤ ((o.config p).memoryGb : ℚ) * share (o.config p) p :=
      mul_nonneg hmemory (share_nonneg hp)
    have hle : ⌊((o.config p).memoryGb : ℚ) * share (o.config p) p * (9 / 10)⌋ ≤
        ⌊((o.config p).memoryGb : ℚ) * share (o.config p) p⌋ := Int.floor_le_floor (by linarith)
    rw [if_neg hcpu, if_neg hcpu]
    simp only [proportional_eq hp hcpu (hsized.resolve_left hcpu)]
    by_cases hmig : isMig p.gpuType = true
    · rw [if_pos hmig, if_pos hmig]
      exact max_le_max le_rfl hle
    · rw [if_neg hmig, if_neg hmig]
      exact hle

/-! ### Threads -/

theorem one_le_threads (hp : p ∈ o.pods) : 1 ≤ o.threads p := by
  have hone := o.one_le_cpus
  rw [← o.cpus_eq p hp] at hone
  unfold threads threadCount
  by_cases hcpu : isCpuType p.gpuType = true
  · rw [if_pos hcpu]
    exact le_max_left _ _
  · rw [if_neg hcpu]
    by_cases hgpus : 0 < (o.config p).maxGpus ∧ 0 < p.gpuCount
    · rw [if_pos hgpus]
      exact le_max_left _ _
    · rw [if_neg hgpus]
      exact hone

/-- On a node without GPUs, two cores are more than what the limit keeps. -/
theorem threads_le_of_cpus (cpus : ℤ) :
    max 1 (cpus - 2) ≤ ⌊cpus * cpuPodCpuFraction⌋ ↔ 2 ≤ cpus ∧ cpus ≤ 13 := by
  have hfloor : ∀ k : ℤ, k ≤ ⌊cpus * cpuPodCpuFraction⌋ ↔ 100 * k ≤ 85 * cpus := by
    intro k
    rw [Int.le_floor, ← Int.cast_le (R := ℚ), cpuPodCpuFraction]
    push_cast
    constructor <;> intro h <;> linarith
  rw [max_le_iff, hfloor, hfloor]
  omega

theorem threads_le_iff (hp : p ∈ o.pods) :
    (∀ limit, (o.limits p).lookup "cpu" = some limit → o.threads p ≤ limit.value) ↔
      ThreadsAgree (o.config p) p := by
  have hone : 1 ≤ (o.config p).cpus := (o.cpus_eq p hp).symm ▸ o.one_le_cpus
  have hcpus : (0 : ℚ) < (o.config p).cpus := by exact_mod_cast hone
  unfold ThreadsAgree threads threadCount
  simp only [limits, getPodResourceLimits, ← config_eq, lookup_cpu]
  unfold cpuLimit
  by_cases hcpu : isCpuType p.gpuType = true
  · simp only [hcpu, true_or, if_true, Option.some.injEq, forall_eq']
    exact threads_le_of_cpus _
  · by_cases hcount : 0 < p.gpuCount
    · have hmax := maxGpus_pos hp hcount
      have hmaxQ : (0 : ℚ) < (o.config p).maxGpus := by exact_mod_cast hmax
      simp only [hcpu, hcount, hmax, or_true, and_self, if_true, if_false, Option.some.injEq,
        forall_eq', true_imp_iff, Bool.false_eq_true, proportional_eq hp hcpu hcount]
      by_cases hmig : isMig p.gpuType = true
      · simp only [hmig, if_true]
        have hshare := le_share_of_isMig hp hcpu hcount hmig
        have hmany : 63 ≤ (o.config p).cpus := (o.cpus_eq p hp).symm ▸ (o.slices p hp hmig).1
        have hbig : (63 : ℚ) ≤ (o.config p).cpus := by exact_mod_cast hmany
        have hpart : 63 * (1 / 56) ≤ ((o.config p).cpus : ℚ) * share (o.config p) p :=
          mul_le_mul hbig hshare (by norm_num) hcpus.le
        have hlimit : 1 ≤ ⌊((o.config p).cpus : ℚ) * share (o.config p) p * (3 / 2)⌋ := by
          rw [Int.le_floor, Int.cast_one]
          linarith
        have hwhole : (o.config p).cpus ≤
            ⌊((o.config p).cpus : ℚ) * share (o.config p) p * (3 / 2)⌋ ↔
              1 ≤ share (o.config p) p * (3 / 2) := by
          rw [Int.le_floor, mul_assoc]
          exact le_mul_iff_one_le_right hcpus
        rw [← hwhole]
        change max 1 (min (o.config p).cpus _) ≤ max 1 (min (o.config p).cpus _) ↔ _
        omega
      · simp only [hmig, if_false, Bool.false_eq_true, share_eq hcpu hcount hmig]
        have hfloor : 1 ≤ ⌊((o.config p).cpus : ℚ) *
            ((p.gpuCount : ℚ) / (o.config p).maxGpus) * (3 / 2)⌋ ↔
              2 * (o.config p).maxGpus ≤ 3 * (o.config p).cpus * p.gpuCount := by
          have heq : ((o.config p).cpus : ℚ) * ((p.gpuCount : ℚ) / (o.config p).maxGpus) * (3 / 2) =
              3 * (o.config p).cpus * p.gpuCount / (2 * (o.config p).maxGpus) := by
            field_simp
          rw [heq, Int.le_floor, Int.cast_one, le_div_iff₀ (by positivity), one_mul]
          norm_cast
        rw [← hfloor]
        change max 1 (min (o.config p).cpus _) ≤ min (o.config p).cpus _ ↔ _
        omega
    · simp [hcpu, hcount]

/-- Pods fit their node and their limits exactly if the numbers of threads agree with the limits.
What is requested fits in any case. -/
theorem sizesFit_iff (o : Occupancy) :
    o.SizesFit ↔ ∀ p ∈ o.pods, ThreadsAgree (o.config p) p := by
  constructor
  · intro h p hp
    exact (threads_le_iff hp).mp (h.threads_le p hp)
  · intro h
    refine ⟨?_, ?_, ?_, fun p hp => one_le_threads hp, fun p hp => (threads_le_iff hp).mpr (h p hp)⟩
    · exact sum_le_of_forall_le_mul (zero_le_one.trans o.one_le_cpus)
        (fun p hp => requested_cpu_le hp) o.share_le
    · have hmemory : 0 ≤ (Quantity.gi o.memoryGb).value :=
        mul_nonneg (zero_le_one.trans o.one_le_memory) (by positivity)
      exact sum_le_of_forall_le_mul hmemory (fun p hp => requested_memory_le hp) o.share_le
    · intro p hp resource request hrequest
      exact exists_lookup_le (forall₂_podResources fun hsized =>
        ⟨cpuRequest_le_cpuLimit hp hsized, memoryRequest_le_memoryLimit hp hsized⟩) hrequest

/-- A slice on a node that is partitioned. -/
def oneSlice : Occupancy where
  types := [("h100-mig-1g", {
    maxGpus := 16, cpus := 192, memoryGb := 2048, k8sResource := "nvidia.com/mig-1g.10gb" })]
  cpus := 192
  memoryGb := 2048
  pods := [⟨1, "h100-mig-1g"⟩]
  cpus_eq := by decide +kernel
  memory_eq := by decide +kernel
  one_le_cpus := by decide
  one_le_memory := by decide
  slices := by decide +kernel
  count_le := by decide +kernel
  share_le := by decide +kernel

/-- The slice is told to use 18 threads, and is limited to 5 cores. -/
theorem not_sizesFit : ¬ ∀ o : Occupancy, o.SizesFit := by
  intro hall
  have hmem : (⟨1, "h100-mig-1g"⟩ : SizedPod) ∈ oneSlice.pods := List.mem_singleton_self _
  have hfit := (hall oneSlice).threads_le _ hmem
  have hlimit : (oneSlice.limits ⟨1, "h100-mig-1g"⟩).lookup "cpu" = some (.plain 5) := by
    decide +kernel
  have hthreads : oneSlice.threads ⟨1, "h100-mig-1g"⟩ = 18 := by decide +kernel
  have hle := hfit _ hlimit
  rw [hthreads] at hle
  exact absurd hle (by decide)

end Occupancy

end CiInfra.GpuDev.PodSizes

import Mathlib.Data.Int.Notation
import Mathlib.Data.Nat.Notation

/-!
# The capacity of nodes

What the instance types have, and what of it is left for runners once the kubelet and the DaemonSets
of a node have their share.
-/

namespace CiInfra.Capacity

/-! ### Instance types -/

/-- An entry of `INSTANCE_SPECS`, as far as it is read. -/
structure InstanceSpec where
  vcpu : ℕ
  memoryGib : ℕ
  memoryMi : ℕ
  gpu : ℕ
  deriving DecidableEq

/-- `INSTANCE_SPECS`. -/
def instanceSpecs : List (String × InstanceSpec) :=
  [("c7a.2xlarge", ⟨8, 16, 15155, 0⟩), ("c7a.4xlarge", ⟨16, 32, 30310, 0⟩),
    ("c7a.8xlarge", ⟨32, 64, 60620, 0⟩), ("c7a.12xlarge", ⟨48, 96, 90931, 0⟩),
    ("c7a.16xlarge", ⟨64, 128, 121241, 0⟩), ("c7a.24xlarge", ⟨96, 192, 181862, 0⟩),
    ("c7a.48xlarge", ⟨192, 384, 363724, 0⟩), ("c7i.8xlarge", ⟨32, 64, 60620, 0⟩),
    ("c7i.12xlarge", ⟨48, 96, 90931, 0⟩), ("c7i.16xlarge", ⟨64, 128, 121241, 0⟩),
    ("c7i.24xlarge", ⟨96, 192, 181862, 0⟩), ("c7i.metal-24xl", ⟨96, 192, 181862, 0⟩),
    ("c7i.48xlarge", ⟨192, 384, 363724, 0⟩), ("m6i.32xlarge", ⟨128, 512, 485081, 0⟩),
    ("m7i.8xlarge", ⟨32, 128, 121241, 0⟩), ("m7i.12xlarge", ⟨48, 192, 181862, 0⟩),
    ("m7i.16xlarge", ⟨64, 256, 242540, 0⟩), ("m7i.24xlarge", ⟨96, 384, 363724, 0⟩),
    ("m7i.48xlarge", ⟨192, 768, 727449, 0⟩), ("r5.8xlarge", ⟨32, 256, 242540, 0⟩),
    ("r5.12xlarge", ⟨48, 384, 363724, 0⟩), ("r5.16xlarge", ⟨64, 512, 485081, 0⟩),
    ("r5.24xlarge", ⟨96, 768, 727449, 0⟩), ("r7a.8xlarge", ⟨32, 256, 242540, 0⟩),
    ("r7a.12xlarge", ⟨48, 384, 363724, 0⟩), ("r7a.16xlarge", ⟨64, 512, 485081, 0⟩),
    ("r7a.24xlarge", ⟨96, 768, 727449, 0⟩), ("r7a.48xlarge", ⟨192, 1536, 1454899, 0⟩),
    ("r7i.8xlarge", ⟨32, 256, 242540, 0⟩), ("r7i.16xlarge", ⟨64, 512, 485081, 0⟩),
    ("r7i.24xlarge", ⟨96, 768, 727449, 0⟩), ("r7i.48xlarge", ⟨192, 1536, 1454899, 0⟩),
    ("m8g.8xlarge", ⟨32, 128, 121241, 0⟩), ("m8g.12xlarge", ⟨48, 192, 181862, 0⟩),
    ("m8g.16xlarge", ⟨64, 256, 242540, 0⟩), ("m8g.24xlarge", ⟨96, 384, 363724, 0⟩),
    ("m8g.metal-24xl", ⟨96, 384, 363724, 0⟩), ("m8g.48xlarge", ⟨192, 768, 727449, 0⟩),
    ("r7g.12xlarge", ⟨48, 384, 363724, 0⟩), ("r7g.16xlarge", ⟨64, 512, 485081, 0⟩),
    ("t4g.2xlarge", ⟨8, 32, 30310, 0⟩), ("m7g.8xlarge", ⟨32, 128, 121241, 0⟩),
    ("m7g.12xlarge", ⟨48, 192, 181862, 0⟩), ("m7g.16xlarge", ⟨64, 256, 242540, 0⟩),
    ("m7g.metal", ⟨64, 256, 242540, 0⟩), ("g4dn.8xlarge", ⟨32, 128, 121241, 1⟩),
    ("g4dn.16xlarge", ⟨64, 256, 242540, 1⟩), ("g5.8xlarge", ⟨32, 128, 121241, 1⟩),
    ("g5.16xlarge", ⟨64, 256, 242540, 1⟩), ("g6.8xlarge", ⟨32, 128, 121241, 1⟩),
    ("g6.16xlarge", ⟨64, 256, 242540, 1⟩), ("g4dn.12xlarge", ⟨48, 192, 181862, 4⟩),
    ("g5.12xlarge", ⟨48, 192, 181862, 4⟩), ("g5.24xlarge", ⟨96, 384, 363724, 4⟩),
    ("g6.12xlarge", ⟨48, 192, 181862, 4⟩), ("g6.24xlarge", ⟨96, 384, 363724, 4⟩),
    ("g4dn.metal", ⟨96, 384, 363724, 8⟩), ("g5.48xlarge", ⟨192, 768, 727449, 8⟩),
    ("g6.48xlarge", ⟨192, 768, 727449, 8⟩), ("p4d.24xlarge", ⟨96, 1152, 1090765, 8⟩),
    ("p5.48xlarge", ⟨192, 2048, 1939865, 8⟩), ("p6-b200.48xlarge", ⟨192, 2048, 1939865, 8⟩),
    ("r7i.2xlarge", ⟨8, 64, 60620, 0⟩), ("r7i.12xlarge", ⟨48, 384, 363724, 0⟩),
    ("r5d.12xlarge", ⟨48, 384, 363724, 0⟩), ("m8gd.24xlarge", ⟨96, 384, 363724, 0⟩),
    ("m6id.24xlarge", ⟨96, 384, 363724, 0⟩), ("c7gd.16xlarge", ⟨64, 128, 121241, 0⟩),
    ("m7gd.16xlarge", ⟨64, 256, 242540, 0⟩), ("m8gd.16xlarge", ⟨64, 256, 242540, 0⟩)]

/-- `ENI_MAX_PODS`. -/
def eniMaxPods : List (String × ℕ) :=
  [("c7a.2xlarge", 58), ("c7a.4xlarge", 234), ("c7a.8xlarge", 234), ("c7a.12xlarge", 234),
    ("c7a.16xlarge", 737), ("c7a.24xlarge", 737), ("c7a.48xlarge", 737), ("c7i.8xlarge", 234),
    ("c7i.12xlarge", 234), ("c7i.16xlarge", 737), ("c7i.24xlarge", 737), ("c7i.metal-24xl", 737),
    ("c7i.48xlarge", 737), ("m6i.32xlarge", 737), ("m7i.8xlarge", 234), ("m7i.12xlarge", 234),
    ("m7i.16xlarge", 737), ("m7i.24xlarge", 737), ("m7i.48xlarge", 737), ("r5.8xlarge", 234),
    ("r5.12xlarge", 234), ("r5.16xlarge", 737), ("r5.24xlarge", 737), ("r7a.8xlarge", 234),
    ("r7a.12xlarge", 234), ("r7a.16xlarge", 737), ("r7a.24xlarge", 737), ("r7a.48xlarge", 737),
    ("r7i.8xlarge", 234), ("r7i.16xlarge", 737), ("r7i.24xlarge", 737), ("r7i.48xlarge", 737),
    ("m8g.8xlarge", 234), ("m8g.12xlarge", 234), ("m8g.16xlarge", 737), ("m8g.24xlarge", 737),
    ("m8g.metal-24xl", 737), ("m8g.48xlarge", 737), ("r7g.12xlarge", 234), ("r7g.16xlarge", 737),
    ("t4g.2xlarge", 58), ("m7g.8xlarge", 234), ("m7g.12xlarge", 234), ("m7g.16xlarge", 737),
    ("m7g.metal", 737), ("g4dn.8xlarge", 58), ("g4dn.16xlarge", 234), ("g4dn.12xlarge", 234),
    ("g4dn.metal", 737), ("g5.8xlarge", 234), ("g5.16xlarge", 234), ("g5.12xlarge", 737),
    ("g5.24xlarge", 737), ("g5.48xlarge", 345), ("g6.8xlarge", 234), ("g6.16xlarge", 234),
    ("g6.12xlarge", 234), ("g6.24xlarge", 234), ("g6.48xlarge", 737), ("p4d.24xlarge", 250),
    ("p5.48xlarge", 198), ("p6-b200.48xlarge", 198), ("r7i.2xlarge", 56), ("r7i.12xlarge", 234),
    ("r5d.12xlarge", 234), ("m8gd.24xlarge", 737), ("m6id.24xlarge", 737), ("c7gd.16xlarge", 737),
    ("m7gd.16xlarge", 737), ("m8gd.16xlarge", 737)]

/-- `ENI_MAX_PODS.get(instance_type, spec["vcpu"])`. -/
def maxPodsOf (instanceType : String) (spec : InstanceSpec) : ℕ :=
  (eniMaxPods.lookup instanceType).getD spec.vcpu

/-! ### Overheads -/

/-- `kubelet_reserved`, in milliCPU and MiB. Above four cores, `int((vcpu - 4) * 2.5)` is added. -/
def kubeletReserved (vcpu _memoryGib maxPods : ℕ) : ℕ × ℕ :=
  (if vcpu ≤ 1 then 60
    else if vcpu ≤ 2 then 70
    else if vcpu ≤ 4 then 80
    else 80 + (vcpu - 4) * 5 / 2,
    255 + 11 * maxPods + 100)

/-- The overhead of a DaemonSet on the nodes of runners. -/
structure DaemonSetOverhead where
  name : String
  cpuMillicores : ℤ
  memoryMib : ℤ
  gpuOnly : Bool

/-- `compute_daemonset_overhead`, in milliCPU and MiB. -/
def computeDaemonsetOverhead (daemonsets : List DaemonSetOverhead) (isGpu : Bool) : ℤ × ℤ :=
  daemonsets.foldl (fun total ds =>
    if ds.gpuOnly && !isGpu then total
    else (total.1 + ds.cpuMillicores, total.2 + ds.memoryMib)) (0, 0)

/-- `HF_CACHE_BASE_MIB`. -/
def hfCacheBaseMib : ℤ := 640

/-- `HF_CACHE_TIER_MIB`. -/
def hfCacheTierMib : List (ℕ × ℤ) := [(1, 640), (2, 1024), (4, 2048), (8, 4096)]

/-- `hf_cache_gpu_topup_mib`. -/
def hfCacheGpuTopupMib (gpuCount : ℕ) : ℤ :=
  (hfCacheTierMib.lookup gpuCount).getD hfCacheBaseMib - hfCacheBaseMib

/-- What `compute_allocatable` says of a node, as far as packing reads it. -/
structure Allocatable where
  allocatableCpuM : ℤ
  allocatableMemMi : ℤ
  allocatableGpu : ℤ
  deriving DecidableEq

/-- `compute_allocatable`. -/
def computeAllocatable (instanceType : String) (daemonsets : List DaemonSetOverhead) :
    Option Allocatable :=
  (instanceSpecs.lookup instanceType).map fun spec =>
    let kube := kubeletReserved spec.vcpu spec.memoryGib (maxPodsOf instanceType spec)
    let ds := computeDaemonsetOverhead daemonsets (0 < spec.gpu)
    { allocatableCpuM := spec.vcpu * 1000 - kube.1 - ds.1
      allocatableMemMi := spec.memoryMi - kube.2 - (ds.2 + hfCacheGpuTopupMib spec.gpu)
      allocatableGpu := spec.gpu }

example : computeAllocatable "c7a.4xlarge" [] = some ⟨15890, 27381, 0⟩ := by decide +kernel

/-! ### Runners -/

/-- A runner definition, as far as packing reads it. -/
structure Runner where
  name : String
  instanceType : String
  vcpu : ℤ
  memoryMi : ℤ
  gpu : ℤ
  deriving DecidableEq

/-- `HOOKS_OVERHEAD_CPU_M`. -/
def hooksOverheadCpuM : ℤ := 320

/-- `HOOKS_OVERHEAD_MEM_MI`. -/
def hooksOverheadMemMi : ℤ := 522

/-- Amounts of the three resources: milliCPU, MiB and GPUs. -/
structure Resources where
  cpuM : ℤ
  memMi : ℤ
  gpu : ℤ
  deriving DecidableEq

/-- `per_runner_total`. -/
def perRunnerTotal (runner : Runner) : Resources where
  cpuM := runner.vcpu * 1000 + hooksOverheadCpuM
  memMi := runner.memoryMi + hooksOverheadMemMi
  gpu := runner.gpu

end CiInfra.Capacity

import CiInfra.Capacity.Overhead
import Mathlib.Data.Rat.Floor
import Mathlib.Tactic.Linarith

/-!
# The size of BuildKit pods

A pod gets its share of nine tenths of what a node has left, rounded down to whole CPUs and GiB. The
pods of a node then fit. One more does not, unless the tenth and what has been rounded away make up
for a pod, both in CPU and in memory. From nine pods a node on they always do.
-/

namespace CiInfra.Capacity

/-! ### The computation -/

/-- `DAEMONSET_OVERHEAD_CPU_M`. -/
def daemonsetOverheadCpuM : ℤ := 300

/-- `DAEMONSET_OVERHEAD_MEM_MI`. -/
def daemonsetOverheadMemMi : ℤ := 440

/-- `MARGIN`. -/
def margin : ℚ := 9 / 10

/-- What `compute_pod_resources` returns. -/
structure PodResources where
  cpu : ℤ
  memoryGi : ℤ
  allocatableCpuM : ℤ
  allocatableMemMi : ℤ
  deriving DecidableEq

section

variable (spec : InstanceSpec) (maxPods podsPerNode : ℕ)

/-- `allocatable_cpu_m` of a node. -/
def allocatableCpuM : ℤ :=
  spec.vcpu * 1000 - (kubeletReserved spec.vcpu spec.memoryGib maxPods).1

/-- `allocatable_mem_mi` of a node. -/
def allocatableMemMi : ℤ :=
  spec.memoryMi - (kubeletReserved spec.vcpu spec.memoryGib maxPods).2

/-- `usable_cpu_m` of a node. -/
def usableCpuM : ℤ := allocatableCpuM spec maxPods - daemonsetOverheadCpuM

/-- `usable_mem_mi` of a node. -/
def usableMemMi : ℤ := allocatableMemMi spec maxPods - daemonsetOverheadMemMi

/-- `compute_pod_resources` for an instance type with this entry and this limit on its pods. -/
def podResources : PodResources where
  cpu := ⌊(usableCpuM spec maxPods : ℚ) * margin / podsPerNode⌋ / 1000
  memoryGi := ⌊(usableMemMi spec maxPods : ℚ) * margin / podsPerNode⌋ / 1024
  allocatableCpuM := allocatableCpuM spec maxPods
  allocatableMemMi := allocatableMemMi spec maxPods

end

/-- `compute_pod_resources`; `none` is the `KeyError`. -/
def computePodResources (instanceType : String) (podsPerNode : ℕ) : Option PodResources :=
  (instanceSpecs.lookup instanceType).map fun spec =>
    podResources spec (maxPodsOf instanceType spec) podsPerNode

example : computePodResources "m8gd.24xlarge" 4 = some ⟨21, 77, 95690, 355262⟩ := by
  decide +kernel

/-! ### Packing -/

/-- That many pods and the DaemonSets fit on the node. -/
def PodResources.Fits (resources : PodResources) (pods : ℕ) : Prop :=
  pods * (resources.cpu * 1000) + daemonsetOverheadCpuM ≤ resources.allocatableCpuM ∧
    pods * (resources.memoryGi * 1024) + daemonsetOverheadMemMi ≤ resources.allocatableMemMi

instance (resources : PodResources) (pods : ℕ) : Decidable (resources.Fits pods) :=
  inferInstanceAs (Decidable (_ ∧ _))

/-- The pods of a node fit on it, and no more. -/
def PodResources.PacksExactly (resources : PodResources) (podsPerNode : ℕ) : Prop :=
  resources.Fits podsPerNode ∧ ¬ resources.Fits (podsPerNode + 1)

instance (resources : PodResources) (pods : ℕ) : Decidable (resources.PacksExactly pods) :=
  inferInstanceAs (Decidable (_ ∧ _))

section Share

variable {usable : ℤ} {unit n : ℕ}

/-- The two roundings are one. -/
theorem floor_ediv_unit :
    ⌊(usable : ℚ) * margin / n⌋ / (unit : ℤ) = 9 * usable / (10 * unit * n : ℕ) := by
  have hfloor : ⌊(usable : ℚ) * margin / n⌋ = 9 * usable / (10 * n : ℕ) := by
    rw [← Rat.floor_intCast_div_natCast]
    congr 1
    rw [margin]
    push_cast
    ring
  rw [hfloor, Int.ediv_ediv_of_nonneg (by positivity)]
  congr 1
  push_cast
  ring

/-- Nine tenths of what is usable are no less than what the shares take. -/
theorem mul_share_le (husable : 0 ≤ usable) (hunit : 1 ≤ unit) (hn : 1 ≤ n) :
    n * (9 * usable / (10 * unit * n : ℕ) * unit) ≤ usable := by
  have hdiv := Int.mul_ediv_add_emod (9 * usable) (10 * unit * n : ℕ)
  have hrest := Int.emod_nonneg (9 * usable) (b := (10 * unit * n : ℕ)) (by positivity)
  have htaken : 10 * (n * (9 * usable / (10 * unit * n : ℕ) * unit)) =
      (10 * unit * n : ℕ) * (9 * usable / (10 * unit * n : ℕ)) := by
    push_cast
    ring
  linarith

/-- A share more fits just if the tenth and what has been rounded away are enough for it. -/
theorem succ_mul_share_le_iff (hn : 1 ≤ n) :
    (n + 1 : ℕ) * (9 * usable / (10 * unit * n : ℕ) * unit) ≤ usable ↔
      (9 - n) * usable ≤ (n + 1) * (9 * usable % (10 * unit * n : ℕ)) := by
  have hdiv := Int.mul_ediv_add_emod (9 * usable) (10 * unit * n : ℕ)
  have hn' : (0 : ℤ) < 10 * n := by positivity
  have htaken : 10 * n * ((n + 1 : ℕ) * (9 * usable / (10 * unit * n : ℕ) * unit)) =
      (n + 1) * (9 * usable - 9 * usable % (10 * unit * n : ℕ)) := by
    rw [← eq_sub_of_add_eq hdiv]
    push_cast
    ring
  rw [← mul_le_mul_iff_of_pos_left hn', htaken]
  constructor <;> intro h <;> linarith

end Share

/-- What is usable of a resource packs the pods exactly: one more takes more than the tenth that is
left and what has been rounded away. -/
def SharesFill (usable : ℤ) (unit n : ℕ) : Prop :=
  (n + 1) * (9 * usable % (10 * unit * n : ℕ)) < (9 - n) * usable

instance (usable : ℤ) (unit n : ℕ) : Decidable (SharesFill usable unit n) :=
  inferInstanceAs (Decidable (_ < _))

/-- The pods fit, and exactly as many as were asked for just if they fill the node in CPU or in
memory. -/
theorem packsExactly_podResources_iff {spec : InstanceSpec} {maxPods podsPerNode : ℕ}
    (hcpu : 0 < usableCpuM spec maxPods) (hmem : 0 < usableMemMi spec maxPods)
    (hpods : 1 ≤ podsPerNode) :
    (podResources spec maxPods podsPerNode).PacksExactly podsPerNode ↔
      SharesFill (usableCpuM spec maxPods) 1000 podsPerNode ∨
        SharesFill (usableMemMi spec maxPods) 1024 podsPerNode := by
  have hfits : ∀ pods : ℕ, (podResources spec maxPods podsPerNode).Fits pods ↔
      pods * (9 * usableCpuM spec maxPods / (10 * 1000 * podsPerNode : ℕ) * (1000 : ℕ)) ≤
          usableCpuM spec maxPods ∧
        pods * (9 * usableMemMi spec maxPods / (10 * 1024 * podsPerNode : ℕ) * (1024 : ℕ)) ≤
          usableMemMi spec maxPods := by
    intro pods
    rw [PodResources.Fits, ← floor_ediv_unit, ← floor_ediv_unit]
    exact and_congr le_sub_iff_add_le.symm le_sub_iff_add_le.symm
  rw [PodResources.PacksExactly, hfits, hfits, succ_mul_share_le_iff hpods,
    succ_mul_share_le_iff hpods]
  have hboth := And.intro (@mul_share_le _ 1000 _ hcpu.le (by decide) hpods)
    (@mul_share_le _ 1024 _ hmem.le (by decide) hpods)
  simp only [hboth, and_self, true_and, not_and_or, not_le, SharesFill]

/-- Four pods of a BuildKit node of the fleet. -/
theorem packsExactly_four :
    (podResources ⟨96, 384, 363724, 0⟩ 737 4).PacksExactly 4 :=
  (packsExactly_podResources_iff (by decide) (by decide) (by decide)).mpr (by decide)

/-- On the same node there is room for nine pods of the size that is computed for eight. -/
theorem not_packsExactly_eight :
    computePodResources "m8gd.24xlarge" 8 = some ⟨10, 38, 95690, 355262⟩ ∧
      ¬ (podResources ⟨96, 384, 363724, 0⟩ 737 8).PacksExactly 8 := by
  decide +kernel

end CiInfra.Capacity

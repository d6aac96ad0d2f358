import CiInfra.Capacity.Overhead
import CiInfra.Lib.Packing
import Mathlib.Data.Rat.Defs
import Mathlib.Order.Lattice

/-!
# The packing report

The report on a node lists the combinations of runners that fill it, and bounds what they leave
unused. The combinations are enumerated up to a number of pods, so that those with more of them are
missing. With one type of runner, or with many, the bounds are computed by division instead.
-/

namespace CiInfra.Capacity

open Packing

/-! ### Resources -/

namespace Resources

instance : Zero Resources := ⟨⟨0, 0, 0⟩⟩

instance : Add Resources := ⟨fun r r' => ⟨r.cpuM + r'.cpuM, r.memMi + r'.memMi, r.gpu + r'.gpu⟩⟩

variable (r r' : Resources)

@[simp] theorem cpuM_zero : (0 : Resources).cpuM = 0 := rfl

@[simp] theorem memMi_zero : (0 : Resources).memMi = 0 := rfl

@[simp] theorem gpu_zero : (0 : Resources).gpu = 0 := rfl

@[simp] theorem cpuM_add : (r + r').cpuM = r.cpuM + r'.cpuM := rfl

@[simp] theorem memMi_add : (r + r').memMi = r.memMi + r'.memMi := rfl

@[simp] theorem gpu_add : (r + r').gpu = r.gpu + r'.gpu := rfl

variable {r r'}

@[ext]
theorem ext (hcpu : r.cpuM = r'.cpuM) (hmem : r.memMi = r'.memMi) (hgpu : r.gpu = r'.gpu) :
    r = r' := by
  cases r
  cases r'
  simp_all

instance : AddCommMonoid Resources where
  add_assoc a b c := by ext <;> simp [Int.add_assoc]
  zero_add a := by ext <;> simp
  add_zero a := by ext <;> simp
  add_comm a b := by ext <;> simp [Int.add_comm]
  nsmul := nsmulRec

/-- The amounts fit in what a node has to allocate. -/
def FitsIn (used : Resources) (alloc : Allocatable) : Prop :=
  used.cpuM ≤ alloc.allocatableCpuM ∧ used.memMi ≤ alloc.allocatableMemMi ∧
    used.gpu ≤ alloc.allocatableGpu

instance (used : Resources) (alloc : Allocatable) : Decidable (used.FitsIn alloc) :=
  inferInstanceAs (Decidable (_ ∧ _))

end Resources

/-! ### Combinations -/

/-- An entry of the list that `find_valid_combos` returns. -/
structure Combo where
  runners : List String
  count : ℕ
  used : Resources
  cpuUtil : ℚ
  memUtil : ℚ
  gpuUtil : ℚ
  waste : Resources
  deriving DecidableEq

/-- `total_cpu`, `total_mem` and `total_gpu` of a combination. -/
def comboTotal (combo : List Runner) : Resources :=
  combo.foldl (fun total runner => total + perRunnerTotal runner) 0

/-- The share of an amount that is used, in percent. -/
def utilization (used avail : ℤ) : ℚ := if 0 < avail then used / avail * 100 else 0

/-- The entry of a combination. -/
def comboOf (alloc : Allocatable) (combo : List Runner) : Combo where
  runners := combo.map Runner.name
  count := combo.length
  used := comboTotal combo
  cpuUtil := utilization (comboTotal combo).cpuM alloc.allocatableCpuM
  memUtil := utilization (comboTotal combo).memMi alloc.allocatableMemMi
  gpuUtil := utilization (comboTotal combo).gpu alloc.allocatableGpu
  waste :=
    { cpuM := alloc.allocatableCpuM - (comboTotal combo).cpuM
      memMi := alloc.allocatableMemMi - (comboTotal combo).memMi
      gpu := alloc.allocatableGpu - (comboTotal combo).gpu }

/-- `max_count`, for the default of `max_pods`. -/
def maxCount (alloc : Allocatable) : ℕ := min 20 (max 1 (alloc.allocatableCpuM / 1000).toNat)

/-- `find_valid_combos`. The runners are combined by their positions. -/
def findValidCombos (runners : List Runner) (alloc : Allocatable) : List Combo :=
  (List.range (maxCount alloc)).flatMap fun i =>
    ((combinationsWithReplacement runners (i + 1)).filter fun combo =>
      (comboTotal combo).FitsIn alloc).map (comboOf alloc)

/-- `find_maximal_combos`. -/
def findMaximalCombos (combos : List Combo) (alloc : Allocatable) (runners : List Runner) :
    List Combo :=
  combos.filter fun combo =>
    !runners.any fun runner => (combo.used + perRunnerTotal runner).FitsIn alloc

/-! ### Slack -/

/-- What `compute_node_slack` returns. -/
structure Slack where
  minCpuM : ℤ
  maxCpuM : ℤ
  minMemMi : ℤ
  maxMemMi : ℤ
  deriving DecidableEq

/-- The bounds of amounts of CPU and memory; `none` if there are no amounts. -/
def boundsOf : List (ℤ × ℤ) → Option Slack
  | [] => none
  | p :: ps => some
    { minCpuM := ps.foldl (fun m p => min m p.1) p.1
      maxCpuM := ps.foldl (fun m p => max m p.1) p.1
      minMemMi := ps.foldl (fun m p => min m p.2) p.2
      maxMemMi := ps.foldl (fun m p => max m p.2) p.2 }

/-- How often an amount is in what there is; `999` if nothing is needed. -/
def quotient (avail need : ℤ) : ℤ := if 0 < need then avail / need else 999

/-- `max_pods` of a node with one type of runner. -/
def homogeneousPods (alloc : Allocatable) (runner : Runner) : ℤ :=
  min (min (quotient alloc.allocatableCpuM (perRunnerTotal runner).cpuM)
    (quotient alloc.allocatableMemMi (perRunnerTotal runner).memMi))
    (quotient alloc.allocatableGpu (perRunnerTotal runner).gpu)

/-- `compute_node_slack`. -/
def computeNodeSlack (alloc : Allocatable) (runners : List Runner) (homogeneousOnly : Bool) :
    Option Slack :=
  if homogeneousOnly ∨ 8 < runners.length then
    boundsOf (runners.filterMap fun runner =>
      let maxPods := homogeneousPods alloc runner
      if maxPods = 0 then none
      else some (alloc.allocatableCpuM - maxPods * (perRunnerTotal runner).cpuM,
        alloc.allocatableMemMi - maxPods * (perRunnerTotal runner).memMi))
  else
    boundsOf ((findMaximalCombos (findValidCombos runners alloc) alloc runners).map fun combo =>
      (combo.waste.cpuM, combo.waste.memMi))

end CiInfra.Capacity

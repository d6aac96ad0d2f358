import CiInfra.Capacity.Combos
import Mathlib.Algebra.BigOperators.Ring.Finset
import Mathlib.Algebra.Order.Ring.Rat

/-!
# The cluster simulation

The simulation draws runners at random, in proportion to their peaks, and puts each on the node that
it fills best, or on a new node. It stops when the deployed counts are near the peaks, when it has
placed five percent more than their sum, or when no runner is left that can be placed. The draws are
open: any sequence of them may come.
-/

namespace CiInfra.Capacity

/-! ### Nodes -/

/-- A simulated cluster node. -/
structure SimNode where
  instanceType : String
  total : Allocatable
  used : Resources
  runnerCount : ℕ
  deriving DecidableEq

namespace SimNode

variable (node : SimNode)

/-- `remaining_cpu_m`, `remaining_mem_mi` and `remaining_gpu`. -/
def remaining : Resources where
  cpuM := node.total.allocatableCpuM - node.used.cpuM
  memMi := node.total.allocatableMemMi - node.used.memMi
  gpu := node.total.allocatableGpu - node.used.gpu

/-- `fits`. -/
def Fits (need : Resources) : Prop :=
  need.cpuM ≤ node.remaining.cpuM ∧ need.memMi ≤ node.remaining.memMi ∧
    need.gpu ≤ node.remaining.gpu

instance (need : Resources) : Decidable (node.Fits need) := inferInstanceAs (Decidable (_ ∧ _))

/-- The score of a node: what remains of it, with GPUs scaled to the size of the rest. -/
def score : ℚ :=
  node.remaining.cpuM + node.remaining.memMi +
    if 0 < node.total.allocatableGpu then
      node.remaining.gpu *
        (((node.total.allocatableCpuM + node.total.allocatableMemMi : ℤ) : ℚ) /
          max node.total.allocatableGpu 1)
    else 0

/-- A runner is put on the node. -/
def put (need : Resources) : SimNode :=
  { node with used := node.used + need, runnerCount := node.runnerCount + 1 }

end SimNode

/-- `best_fit_place`: the first of the matching nodes that have the least score. -/
def bestFitPlace (nodes : List SimNode) (need : Resources) (instanceType : String) : Option ℕ :=
  (nodes.zipIdx.foldl (fun best p =>
    if p.1.instanceType = instanceType ∧ p.1.Fits need ∧
        best.all (fun b : ℕ × ℚ => p.1.score < b.2) then
      some (p.2, p.1.score)
    else best) none).map Prod.fst

/-- `provision_node`. -/
def provisionNode (instanceType : String) (daemonsets : List DaemonSetOverhead) : Option SimNode :=
  (computeAllocatable instanceType daemonsets).map fun alloc => ⟨instanceType, alloc, 0, 0⟩

/-! ### Targets -/

/-- A dictionary of counts. -/
structure Counts where
  entries : List (String × ℕ)
  nodup : (entries.map Prod.fst).Nodup

/-- `sum(d.values())`. -/
def sumOf (counts : List (String × ℕ)) : ℕ := (counts.map Prod.snd).sum

/-- `runner_by_name.get`: the last definition of a name counts. -/
def runnerByName (runnerDefs : List Runner) (name : String) : Option Runner :=
  runnerDefs.reverse.find? fun r => r.name = name

/-- `active_targets`: the targets that have a definition. -/
def activeTargets (runnerDefs : List Runner) (targets : Counts) : List (String × ℕ) :=
  targets.entries.filter fun p => (runnerByName runnerDefs p.1).isSome

/-- `skipped`, with the reasons. -/
def skippedLabels (runnerDefs : List Runner) (targets : Counts) : List (String × String) :=
  (targets.entries.filter fun p => (runnerByName runnerDefs p.1).isNone).map fun p =>
    (p.1, "no runner def")

/-- `build_weighted_pool`. -/
def buildWeightedPool (targets : List (String × ℕ)) : List (String × ℕ) :=
  targets.filter fun p => 0 < p.2

/-- `max_deploy`: `int(total_target * 1.05)`. -/
def maxDeploy (active : List (String × ℕ)) : ℕ := sumOf active * 105 / 100

/-- `weighted_mape`. -/
def weightedMape (deployed active : List (String × ℕ)) : ℚ :=
  if sumOf active = 0 then 0
  else (active.map fun p => (((((deployed.lookup p.1).getD 0 : ℕ) : ℤ) - p.2).natAbs : ℚ)).sum /
    sumOf active

/-! ### Passes of the loop -/

/-- The variables of the loop. -/
structure SimState where
  nodes : List SimNode
  deployed : List (String × ℕ)
  totalDeployed : ℕ
  failedTypes : List String
  /-- `names` and `weights`. -/
  pool : List (String × ℕ)

/-- A runner has been placed. -/
def SimState.deploy (s : SimState) (chosen : String) (nodes : List SimNode) : SimState :=
  { s with
    nodes := nodes
    deployed := s.deployed.map fun p => if p.1 = chosen then (p.1, p.2 + 1) else p
    totalDeployed := s.totalDeployed + 1 }

/-- A pass of the loop ends with a `break`, or the loop goes on. -/
inductive Pass
  | stop (s : SimState)
  | next (s : SimState)

section

variable (runnerDefs : List Runner) (daemonsets : List DaemonSetOverhead)
  (active : List (String × ℕ)) (threshold : ℚ)

/-- What is made of a runner that has been drawn. -/
def placeRunner (s : SimState) (chosen : String) (runner : Runner) : Pass :=
  if runner.instanceType ∈ s.failedTypes then
    let pool := s.pool.eraseIdx (s.pool.findIdx fun p => p.1 = chosen)
    if pool = [] then .stop { s with pool := pool } else .next { s with pool := pool }
  else
    match bestFitPlace s.nodes (perRunnerTotal runner) runner.instanceType with
    | some i => .next (s.deploy chosen (s.nodes.modify i fun n => n.put (perRunnerTotal runner)))
    | none =>
      match provisionNode runner.instanceType daemonsets with
      | none => .next { s with failedTypes := runner.instanceType :: s.failedTypes }
      | some node =>
        .next (s.deploy chosen
          (s.nodes ++ [{ node with used := perRunnerTotal runner, runnerCount := 1 }]))

/-- One pass of the loop, with the number that is drawn. No pool is empty here, and its names have
definitions. -/
def pass (draw : ℕ) (s : SimState) : Pass :=
  if 0 < s.totalDeployed ∧ weightedMape s.deployed active ≤ threshold then .stop s
  else if maxDeploy active ≤ s.totalDeployed then .stop s
  else
    match s.pool[draw % s.pool.length]? with
    | none => .stop s
    | some (chosen, _) =>
      match runnerByName runnerDefs chosen with
      | none => .stop s
      | some runner => placeRunner daemonsets s chosen runner

/-- The loop, for a number of passes; `none` if it has not ended by then. -/
def passes (draws : ℕ → ℕ) : ℕ → ℕ → SimState → Option SimState
  | 0, _, _ => none
  | fuel + 1, i, s =>
    match pass runnerDefs daemonsets active threshold (draws i) s with
    | .stop s' => some s'
    | .next s' => passes draws fuel (i + 1) s'

end

/-- The result of a simulation run. -/
structure SimResult where
  nodes : List SimNode
  deployed : List (String × ℕ)
  targets : List (String × ℕ)
  skippedLabels : List (String × String)

/-- The variables before the loop. -/
def initialState (active : List (String × ℕ)) : SimState where
  nodes := []
  deployed := active.map fun p => (p.1, 0)
  totalDeployed := 0
  failedTypes := []
  pool := buildWeightedPool active

/-- `run_simulation`, with the numbers that are drawn, for a number of passes of its loop. -/
def runSimulation (runnerDefs : List Runner) (targets : Counts)
    (daemonsets : List DaemonSetOverhead) (threshold : ℚ) (draws : ℕ → ℕ) (fuel : ℕ) :
    Option SimResult :=
  let active := activeTargets runnerDefs targets
  let skipped := skippedLabels runnerDefs targets
  if active = [] then some ⟨[], [], targets.entries, skipped⟩
  else if buildWeightedPool active = [] then some ⟨[], [], active, skipped⟩
  else
    (passes runnerDefs daemonsets active threshold draws fuel 0 (initialState active)).map fun s =>
      ⟨s.nodes, s.deployed, active, skipped⟩

end CiInfra.Capacity

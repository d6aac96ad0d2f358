import CiInfra.Compactor.Matching
import CiInfra.Compactor.PeakWindow
import CiInfra.Lib.Grouping

/-!
# Bin-packing and taint computation

`computeTaints` decides, group by group, which nodes to taint and which to untaint. The
wall clock and the monotonic clock are read once for a whole call. Node names are distinct,
so a group's pass reads and writes only its own names in the result sets: each group's pass
starts from empty sets here, and the results are united.
-/

namespace CiInfra.Compactor

open Kube

/-! ### Minimum number of nodes -/

/-- Capacity of a node net of DaemonSet overhead, which runs on every node. -/
def NodeState.netCapacity (n : NodeState) : Bin :=
  ⟨n.allocatableCpu - n.daemonsetCpu, n.allocatableMemory - n.daemonsetMemory,
    n.allocatableGpu - n.daemonsetGpu⟩

/-- Place the pods in order: into the first open bin that accepts the pod, else into the
next bin, which is opened without a test. Returns the number of bins opened. -/
def openBins (opened : List Bin) : List Bin → List PodInfo → ℕ
  | _, [] => max opened.length 1
  | unopened, p :: ps =>
    match FirstFit.firstFit Bin.Accepts Bin.place opened p with
    | some opened' => openBins opened' unopened ps
    | none =>
      match unopened with
      | [] => opened.length
      | b :: rest => openBins (opened ++ [b.place p]) rest ps

/-- First-fit-decreasing bin-pack: minimum nodes needed for all pods. -/
def binPackMinNodes (pods : List PodInfo) (nodes : List NodeState) : ℕ :=
  if pods.isEmpty || nodes.isEmpty then 0
  else
    openBins [] ((nodes.insertionSort fun n n' => n'.allocatableCpu ≤ n.allocatableCpu).map
      NodeState.netCapacity) (largestFirst pods)

/-! ### Reservations -/

/-- The order in which young nodes are reserved: lowest utilization, then oldest
youngest-pod, then newest node. -/
def reservationPriority (now : ℚ) (n : NodeState) : ℚ ×ₗ (WithTop ℚ)ᵒᵈ ×ₗ ℚ :=
  toLex (n.utilization, toLex (OrderDual.toDual (n.youngestPodAgeSeconds now),
    -n.uptimeSeconds now))

/-- The nodes selected in one pool. -/
def selectInPool (cfg : Config) (now : ℚ) (nodes : List NodeState) : List NodeState :=
  ((nodes.filter fun n => n.uptimeHours now < (cfg.maxUptimeHours : ℚ)).insertionSort
    fun n n' => reservationPriority now n ≤ reservationPriority now n').take
      cfg.capacityReservationNodes.toNat

/-- Select nodes per pool for capacity reservation (do-not-disrupt). Reservations are
per NodePool, so the nodes are regrouped whatever the caller's grouping. -/
def selectReservedNodes (groupNodes : List (String × List NodeState)) (cfg : Config) (now : ℚ) :
    List (String × List NodeState) :=
  if cfg.capacityReservationNodes ≤ 0 then []
  else
    ((Grouping.groupBy NodeState.nodepool (groupNodes.flatMap Prod.snd)).map
      fun (pool, nodes) => (pool, selectInPool cfg now nodes)).filter
        fun (_, selected) => !selected.isEmpty

/-! ### Spare capacity -/

/-- Untainted nodes with utilization at or below threshold; nodes in `toTaint` or
matching `excludeNode` are treated as tainted. -/
def spareNodes (poolNodes : List NodeState) (excludeNode : Option String)
    (toTaint : Finset String) (threshold : ℚ) : List NodeState :=
  poolNodes.filter fun n =>
    some n.name ≠ excludeNode && !n.isTainted && n.name ∉ toTaint && n.utilization ≤ threshold

/-- Count untainted nodes with utilization at or below threshold. -/
def countSpareNodes (poolNodes : List NodeState) (excludeNode : Option String)
    (toTaint : Finset String) (threshold : ℚ) : ℕ :=
  (spareNodes poolNodes excludeNode toTaint threshold).length

/-- The effective spare requirement of a group: the floor or the ratio, whichever is more. -/
def requiredSpare (cfg : Config) (groupNodes : List NodeState) : ℤ :=
  max cfg.spareCapacityNodes ⌈groupNodes.length * cfg.spareCapacityRatio⌉

/-! ### The taint loop of one group -/

/-- The four result sets of `compute_taints`. -/
structure Decision where
  toTaint : Finset String
  toUntaint : Finset String
  mandatoryUntaint : Finset String
  rateLimited : Finset String

def Decision.empty : Decision := ⟨∅, ∅, ∅, ∅⟩

def Decision.union (d d' : Decision) : Decision :=
  ⟨d.toTaint ∪ d'.toTaint, d.toUntaint ∪ d'.toUntaint,
    d.mandatoryUntaint ∪ d'.mandatoryUntaint, d.rateLimited ∪ d'.rateLimited⟩

/-- The names of the tainted ones among some nodes. -/
def taintedNames (nodes : List NodeState) : Finset String :=
  ((nodes.filter NodeState.isTainted).map NodeState.name).toFinset

/-- Old nodes first, then smallest, then lowest utilization, then youngest pod age
descending. -/
def taintPriority (cfg : Config) (now : ℚ) (n : NodeState) :
    ℤ ×ₗ ℚ ×ₗ ℤ ×ₗ ℚ ×ₗ (WithTop ℚ)ᵒᵈ :=
  toLex (if n.uptimeHours now > (cfg.maxUptimeHours : ℚ) then -1 else 0,
    toLex (n.allocatableCpu, toLex (n.allocatableGpu, toLex (n.utilization,
      OrderDual.toDual (n.youngestPodAgeSeconds now)))))

/-- What every iteration of a group's taint loop reads. -/
structure LoopContext where
  groupNodes : List NodeState
  candidates : List NodeState
  surplus : ℤ
  maxNewTaints : ℤ
  required : ℤ
  threshold : ℚ

/-- Nodes beyond the surplus count, which the loop takes to be remaining. -/
def LoopContext.definitelyRemaining (g : LoopContext) : List NodeState :=
  g.candidates.drop g.surplus.toNat

/-- The variables of the loop. -/
structure LoopState extends Decision where
  conditionallyRemaining : List NodeState
  taintCount : ℤ
  newTaintCount : ℤ

def LoopState.initial : LoopState := ⟨Decision.empty, [], 0, 0⟩

/-- The outcomes of one iteration, under the words they are logged with. -/
inductive Verdict
  | pastSurplus
  | skippedFitSafety
  | skippedRateLimit
  | skippedSpareCapacity
  | tainted
  deriving DecidableEq

/-- What the loop decides about a candidate, before anything is recorded. -/
def verdict (g : LoopContext) (st : LoopState) (n : NodeState) : Verdict :=
  if g.surplus ≤ st.taintCount then .pastSurplus
  else if n.realPods ≠ [] ∧
      ¬ podsFitOnNodes n.realPods (g.definitelyRemaining ++ st.conditionallyRemaining) then
    .skippedFitSafety
  else if n.isTainted = false ∧ g.maxNewTaints ≤ st.newTaintCount then .skippedRateLimit
  else if 0 < g.required ∧
      countSpareNodes g.groupNodes (some n.name) st.toTaint g.threshold < g.required then
    .skippedSpareCapacity
  else .tainted

/-- Record a verdict in the variables of the loop. -/
def LoopState.record (st : LoopState) (n : NodeState) : Verdict → LoopState
  | .pastSurplus =>
    if n.isTainted then
      { st with
        toUntaint := insert n.name st.toUntaint
        mandatoryUntaint := insert n.name st.mandatoryUntaint }
    else st
  | .skippedFitSafety =>
    { st with
      conditionallyRemaining := st.conditionallyRemaining ++ [n]
      toUntaint := if n.isTainted then insert n.name st.toUntaint else st.toUntaint }
  | .skippedRateLimit =>
    { st with
      rateLimited := insert n.name st.rateLimited
      conditionallyRemaining := st.conditionallyRemaining ++ [n] }
  | .skippedSpareCapacity =>
    { st with
      conditionallyRemaining := st.conditionallyRemaining ++ [n]
      toUntaint := if n.isTainted then insert n.name st.toUntaint else st.toUntaint }
  | .tainted =>
    { st with
      toTaint := insert n.name st.toTaint
      taintCount := st.taintCount + 1
      newTaintCount := if n.isTainted then st.newTaintCount else st.newTaintCount + 1 }

/-- One iteration of the taint loop. -/
def taintStep (g : LoopContext) (st : LoopState) (n : NodeState) : LoopState :=
  st.record n (verdict g st n)

/-- The taint loop over the candidates. -/
def taintLoop (g : LoopContext) : LoopState := g.candidates.foldl (taintStep g) LoopState.initial

/-- Spare capacity recovery: untaint nodes in order until the requirement is met. -/
def recoverSpare (required : ℤ) (spare : ℤ) (d : Decision) : List NodeState → Decision
  | [] => d
  | n :: rest =>
    if required ≤ spare then d
    else
      recoverSpare required (spare + 1)
        { d with
          toUntaint := insert n.name d.toUntaint
          mandatoryUntaint := insert n.name d.mandatoryUntaint
          toTaint := d.toTaint.erase n.name } rest

/-- The nodes recovery may untaint: tainted, not yet to be untainted, lightly used,
lowest utilization first. -/
def recoverable (g : LoopContext) (d : Decision) : List NodeState :=
  (g.groupNodes.filter fun n =>
    n.isTainted && n.name ∉ d.toUntaint && n.utilization ≤ g.threshold).insertionSort
      fun n n' => n.utilization ≤ n'.utilization

/-- Recovery after the loop, if the group misses its spare requirement. -/
def spareRecovery (g : LoopContext) (d : Decision) : Decision :=
  if 0 < g.required then
    recoverSpare g.required (countSpareNodes g.groupNodes none d.toTaint g.threshold) d
      (recoverable g d)
  else d

/-! ### All groups -/

/-- Reserved nodes and nodes younger than the minimum age are no candidates. -/
def isExempt (cfg : Config) (now : ℚ) (reserved : Finset String) (n : NodeState) : Bool :=
  n.name ∈ reserved || n.uptimeSeconds now < (cfg.minNodeAge : ℚ)

/-- The loop's inputs for one group. -/
def loopContext (cfg : Config) (now : ℚ) (reserved : Finset String) (groupNodes : List NodeState)
    (surplus : ℤ) : LoopContext where
  groupNodes := groupNodes
  candidates := (groupNodes.filter fun n => !isExempt cfg now reserved n).insertionSort
    fun n n' => taintPriority cfg now n ≤ taintPriority cfg now n'
  surplus := surplus
  maxNewTaints := max 1 ⌈surplus * cfg.taintRate⌉
  required := requiredSpare cfg groupNodes
  threshold := cfg.spareCapacityThreshold

/-- The pass over one group whose surplus is known. -/
def decideGroup (cfg : Config) (now : ℚ) (reserved : Finset String) (groupNodes : List NodeState)
    (surplus : ℤ) : Decision :=
  if surplus ≤ 0 then
    { Decision.empty with
      toUntaint := taintedNames groupNodes
      mandatoryUntaint := taintedNames groupNodes }
  else
    let exempt := taintedNames (groupNodes.filter (isExempt cfg now reserved))
    let g := loopContext cfg now reserved groupNodes surplus
    let st := taintLoop g
    spareRecovery g
      { st.toDecision with
        toUntaint := exempt ∪ st.toUntaint
        mandatoryUntaint := exempt ∪ st.mandatoryUntaint }

/-- The pods a group must host: its real workload and the pending pods it could absorb. -/
def packedPods (cfg : Config) (now : ℚ) (pendingPods : List Pod) (groupNodes : List NodeState) :
    List PodInfo :=
  groupNodes.flatMap NodeState.realPods ++
    pendingPodsForGroup pendingPods groupNodes cfg.taintKey cfg.pendingPodMinAgeSeconds
      cfg.pendingPodMaxAgeSeconds now

/-- The windowed peak of a group's bin-pack minimum, and the history after this sample.
Without a history the peak is the current minimum. -/
def peakMin (cfg : Config) (now mono : ℚ) (pendingPods : List Pod)
    (history : Option PeakHistory) (group : String × List NodeState) : ℤ × Option PeakHistory :=
  let currentMin : ℤ := binPackMinNodes (packedPods cfg now pendingPods group.2) group.2
  match history with
  | none => (currentMin, none)
  | some h =>
    let (peak, h') :=
      updatePeakHistory h group.1 currentMin cfg.interval cfg.peakWindowSeconds mono
    (peak, some h')

/-- One group's share of a call: its key, its nodes, and `min_needed`. -/
structure GroupPlan where
  name : String
  nodes : List NodeState
  minNeeded : ℤ

/-- How many nodes of the group are not needed. -/
def GroupPlan.surplus (p : GroupPlan) : ℤ := p.nodes.length - p.minNeeded

/-- `min_needed` of every group in turn, threading the peak history. -/
def planGroups (cfg : Config) (now mono : ℚ) (pendingPods : List Pod) :
    Option PeakHistory → List (String × List NodeState) → List GroupPlan × Option PeakHistory
  | history, [] => ([], history)
  | history, group :: rest =>
    let (peak, history') := peakMin cfg now mono pendingPods history group
    let (plans, history'') := planGroups cfg now mono pendingPods history' rest
    (⟨group.1, group.2, max peak cfg.minNodes⟩ :: plans, history'')

/-- The groups of a call with the minimum each of them needs. -/
def groupPlans (nodeStates : NodeMap) (cfg : Config) (groupKey : NodeState → String)
    (peakHistory : Option PeakHistory) (pendingPods : List Pod) (now mono : ℚ) :
    List GroupPlan × Option PeakHistory :=
  planGroups cfg now mono pendingPods
    (peakHistory.map fun h => pruneStalePeakHistory h cfg.peakWindowSeconds mono)
    (Grouping.groupBy groupKey nodeStates.values)

/-- Decide which nodes to taint and which to untaint, and update the peak history. -/
def computeTaints (nodeStates : NodeMap) (cfg : Config) (reserved : Finset String)
    (groupKey : NodeState → String) (peakHistory : Option PeakHistory) (pendingPods : List Pod)
    (now mono : ℚ) : Decision × Option PeakHistory :=
  if nodeStates.values.isEmpty then (Decision.empty, peakHistory)
  else
    let (plans, history) := groupPlans nodeStates cfg groupKey peakHistory pendingPods now mono
    ((plans.map fun p => decideGroup cfg now reserved p.nodes p.surplus).foldl
      Decision.union Decision.empty, history)

end CiInfra.Compactor

import CiInfra.Kube.ApiServer
import CiInfra.Lib.PythonNumber
import Mathlib.Order.WithBot

/-!
# Data models of the node compactor

Cores and fractions, which the source keeps as floats, are exact rationals. Properties
that read the clock take the reading as an argument.
-/

namespace CiInfra.Compactor

open Kube

/-- `node-compactor.osdc.io/capacity-reserved`: our ownership marker. -/
def annotationCapacityReserved : String := "node-compactor.osdc.io/capacity-reserved"

/-- `karpenter.sh/do-not-disrupt`: Karpenter's protection of a node. -/
def annotationDoNotDisrupt : String := "karpenter.sh/do-not-disrupt"

def labelNodeFleet : String := "node-fleet"

/-- The configuration, with the checks that `from_env` makes before returning one. -/
structure Config where
  interval : ℤ
  maxUptimeHours : ℤ
  nodepoolLabel : String
  taintKey : String
  minNodes : ℤ
  dryRun : Bool
  taintCooldown : ℤ
  minNodeAge : ℤ
  fleetCooldown : ℤ
  taintRate : ℚ
  spareCapacityNodes : ℤ
  spareCapacityRatio : ℚ
  spareCapacityThreshold : ℚ
  capacityReservationNodes : ℤ
  peakWindowSeconds : ℤ
  pendingPodMaxAgeSeconds : ℤ
  pendingPodMinAgeSeconds : ℤ
  peakWindow_nonneg : 0 ≤ peakWindowSeconds
  pendingPodMaxAge_pos : 0 < pendingPodMaxAgeSeconds
  pendingPodMinAge_nonneg : 0 ≤ pendingPodMinAgeSeconds
  pendingPodMinAge_lt_max : pendingPodMinAgeSeconds < pendingPodMaxAgeSeconds

/-- The bare compactor of the end-to-end tests: no anti-flap, no reservation. -/
def bareConfig : Config where
  interval := 5
  maxUptimeHours := 48
  nodepoolLabel := "osdc.io/node-compactor"
  taintKey := "node-compactor.osdc.io/consolidating"
  minNodes := 1
  dryRun := false
  taintCooldown := 30
  minNodeAge := 0
  fleetCooldown := 0
  taintRate := 1
  spareCapacityNodes := 0
  spareCapacityRatio := 0
  spareCapacityThreshold := 2 / 5
  capacityReservationNodes := 0
  peakWindowSeconds := 0
  pendingPodMaxAgeSeconds := 14400
  pendingPodMinAgeSeconds := 0
  peakWindow_nonneg := by decide
  pendingPodMaxAge_pos := by decide
  pendingPodMinAge_nonneg := by decide
  pendingPodMinAge_lt_max := by decide

/-- Lightweight pod representation for bin-packing. -/
structure PodInfo where
  name : String
  «namespace» : String
  cpuRequest : ℚ
  memoryRequest : ℤ
  nodeName : String
  isDaemonset : Bool
  startTime : Option ℚ := none
  gpuRequest : ℤ := 0
  isPhantom : Bool := false
  deriving DecidableEq

/-- Computed state of a managed node. -/
structure NodeState where
  name : String
  nodepool : String
  allocatableCpu : ℚ
  allocatableMemory : ℤ
  creationTime : ℚ
  allocatableGpu : ℤ := 0
  pods : List PodInfo := []
  isTainted : Bool := false
  isReserved : Bool := false
  nodeTaints : List Taint := []
  labels : Dict := fun _ => none
  annotations : Dict := fun _ => none

namespace NodeState

variable (n : NodeState)

/-- The pods that do not come from a DaemonSet. -/
def workloadPods : List PodInfo := n.pods.filter fun p => !p.isDaemonset

/-- Real workload: phantom pods are predictions, not pods. -/
def realPods : List PodInfo := n.workloadPods.filter fun p => !p.isPhantom

def daemonsetPods : List PodInfo := n.pods.filter PodInfo.isDaemonset

def daemonsetCpu : ℚ := (n.daemonsetPods.map PodInfo.cpuRequest).sum

def daemonsetMemory : ℤ := (n.daemonsetPods.map PodInfo.memoryRequest).sum

def daemonsetGpu : ℤ := (n.daemonsetPods.map PodInfo.gpuRequest).sum

def cpuUsed : ℚ := (n.workloadPods.map PodInfo.cpuRequest).sum

def memoryUsed : ℤ := (n.workloadPods.map PodInfo.memoryRequest).sum

def gpuUsed : ℤ := (n.workloadPods.map PodInfo.gpuRequest).sum

def totalCpuUsed : ℚ := (n.pods.map PodInfo.cpuRequest).sum

def totalMemoryUsed : ℤ := (n.pods.map PodInfo.memoryRequest).sum

def totalGpuUsed : ℤ := (n.pods.map PodInfo.gpuRequest).sum

def cpuUtilization : ℚ := if n.allocatableCpu ≤ 0 then 0 else n.cpuUsed / n.allocatableCpu

def memoryUtilization : ℚ :=
  if n.allocatableMemory ≤ 0 then 0 else n.memoryUsed / n.allocatableMemory

def gpuUtilization : ℚ := if n.allocatableGpu ≤ 0 then 0 else n.gpuUsed / n.allocatableGpu

/-- Max of CPU, memory, and GPU utilization (conservative estimate). -/
def utilization : ℚ :=
  if 0 < n.allocatableGpu then max (max n.cpuUtilization n.memoryUtilization) n.gpuUtilization
  else max n.cpuUtilization n.memoryUtilization

def uptimeSeconds (now : ℚ) : ℚ := now - n.creationTime

def uptimeHours (now : ℚ) : ℚ := n.uptimeSeconds now / 3600

/-- Age of the youngest workload pod; infinite if none has started. -/
def youngestPodAgeSeconds (now : ℚ) : WithTop ℚ :=
  (n.workloadPods.filterMap PodInfo.startTime).foldr (fun t age => min ↑(now - t) age) ⊤

end NodeState

/-- A node of ten cores and ten bytes of memory, with one pod for each CPU request. -/
def makeNode (name : String) (creationTime : ℚ) (isTainted : Bool) (cpus : List ℚ) :
    NodeState where
  name := name
  nodepool := "test-pool"
  allocatableCpu := 10
  allocatableMemory := 10
  creationTime := creationTime
  isTainted := isTainted
  pods := cpus.map fun cpu =>
    { name := "pod", «namespace» := "default", cpuRequest := cpu, memoryRequest := 0,
      nodeName := name, isDaemonset := false }

/-- The node states of a cycle: a map from node names, in insertion order. -/
structure NodeMap where
  values : List NodeState
  nodup : (values.map NodeState.name).Nodup

namespace NodeMap

/-- `node_states.get(name)`. -/
def get? (m : NodeMap) (name : String) : Option NodeState :=
  m.values.find? fun n => n.name = name

/-- Two states of one map with one name are the same state. -/
theorem eq_of_name_eq {m : NodeMap} {a b : NodeState} (ha : a ∈ m.values) (hb : b ∈ m.values)
    (h : a.name = b.name) : a = b :=
  List.inj_on_of_nodup_map m.nodup ha hb h

theorem get?_eq_some_iff {m : NodeMap} {name : String} {n : NodeState} :
    m.get? name = some n ↔ n ∈ m.values ∧ n.name = name := by
  constructor
  · intro h
    exact ⟨List.mem_of_find?_eq_some h, by simpa using List.find?_some h⟩
  · rintro ⟨hn, rfl⟩
    cases h : m.get? n.name with
    | none =>
      have := List.find?_eq_none.mp h n hn
      simp at this
    | some n' =>
      have hname : n'.name = n.name := by simpa using List.find?_some h
      rw [eq_of_name_eq (List.mem_of_find?_eq_some h) hn hname]

theorem isSome_get?_iff {m : NodeMap} {name : String} :
    (m.get? name).isSome ↔ name ∈ m.values.map NodeState.name := by
  simp only [Option.isSome_iff_exists, get?_eq_some_iff, List.mem_map]

/-- Change the states of a map without renaming any. -/
def map (m : NodeMap) (f : NodeState → NodeState) (hf : ∀ n, (f n).name = n.name) : NodeMap where
  values := m.values.map f
  nodup := by
    have : (m.values.map f).map NodeState.name = m.values.map NodeState.name := by
      rw [List.map_map]
      exact List.map_congr_left fun n _ => hf n
    rw [this]
    exact m.nodup

theorem get?_map (m : NodeMap) (f : NodeState → NodeState) (hf : ∀ n, (f n).name = n.name)
    (name : String) : (m.map f hf).get? name = (m.get? name).map f := by
  simp only [get?, map, List.find?_map]
  congr 2
  funext n
  simp only [Function.comp_apply, hf]

/-- Append a pod to the named node. -/
def addPod (m : NodeMap) (name : String) (p : PodInfo) : NodeMap :=
  m.map (fun n => if n.name = name then { n with pods := n.pods ++ [p] } else n) fun n => by
    split <;> rfl

/-- `node_states[n.name] = n`: replace the state of that name, or add one at the end. -/
def set (m : NodeMap) (n : NodeState) : NodeMap where
  values :=
    if n.name ∈ m.values.map NodeState.name then
      m.values.map fun n' => if n'.name = n.name then n else n'
    else m.values ++ [n]
  nodup := by
    split
    · have : (m.values.map fun n' => if n'.name = n.name then n else n').map NodeState.name =
          m.values.map NodeState.name := by
        rw [List.map_map]
        refine List.map_congr_left fun n' _ => ?_
        simp only [Function.comp_apply]
        split
        · exact ‹n'.name = n.name›.symm
        · rfl
      rw [this]
      exact m.nodup
    · rw [List.map_append, List.nodup_append]
      refine ⟨m.nodup, by simp, ?_⟩
      intro a ha b hb
      simp only [List.map_cons, List.map_nil, List.mem_singleton] at hb
      rintro rfl
      exact ‹n.name ∉ _› (hb ▸ ha)

theorem mem_set {m : NodeMap} {n a : NodeState} :
    a ∈ (m.set n).values ↔ a = n ∨ a ∈ m.values ∧ a.name ≠ n.name := by
  simp only [set]
  split
  · rename_i hmem
    simp only [List.mem_map]
    constructor
    · rintro ⟨n', hn', rfl⟩
      split
      · exact Or.inl rfl
      · exact Or.inr ⟨hn', ‹_›⟩
    · rintro (rfl | ⟨ha, hne⟩)
      · obtain ⟨n', hn', hname⟩ := List.mem_map.mp hmem
        exact ⟨n', hn', by simp [hname]⟩
      · exact ⟨a, ha, by simp [hne]⟩
  · rename_i hmem
    simp only [List.mem_append, List.mem_singleton]
    constructor
    · rintro (ha | rfl)
      · exact Or.inr ⟨ha, fun h => hmem (h ▸ List.mem_map_of_mem ha)⟩
      · exact Or.inl rfl
    · rintro (rfl | ⟨ha, _⟩)
      · exact Or.inr rfl
      · exact Or.inl ha

theorem mem_names_set {m : NodeMap} {n : NodeState} {name : String} :
    name ∈ (m.set n).values.map NodeState.name ↔
      name = n.name ∨ name ∈ m.values.map NodeState.name := by
  simp only [List.mem_map, mem_set]
  constructor
  · rintro ⟨a, rfl | ⟨ha, _⟩, rfl⟩
    · exact Or.inl rfl
    · exact Or.inr ⟨a, ha, rfl⟩
  · by_cases heq : name = n.name
    · exact fun _ => ⟨n, Or.inl rfl, heq.symm⟩
    · rintro (h | ⟨a, ha, rfl⟩)
      · exact absurd h heq
      · exact ⟨a, Or.inr ⟨ha, heq⟩, rfl⟩

def empty : NodeMap := ⟨[], List.nodup_nil⟩

end NodeMap

/-! ### Resource parsing -/

/-- `s.endswith(suffix)`, and then the string without the suffix. -/
def stripSuffix? (suffix cs : List Char) : Option (List Char) :=
  if suffix.isSuffixOf cs then some (cs.take (cs.length - suffix.length)) else none

/-- Parse a Kubernetes CPU quantity to cores; 0 if it does not parse. -/
def parseCpu (value : String) : ℚ :=
  let s := value.toList
  match stripSuffix? ['m'] s with
  | some t => ((PythonNumber.float? t).getD 0) / 1000
  | none =>
    match stripSuffix? ['n'] s with
    | some t => ((PythonNumber.float? t).getD 0) / 1000000000
    | none => (PythonNumber.float? s).getD 0

/-- The memory suffixes in the order in which they are tried. -/
def memorySuffixes : List (String × ℤ) :=
  [("Ki", 1024), ("Mi", 1024 ^ 2), ("Gi", 1024 ^ 3), ("Ti", 1024 ^ 4),
    ("K", 1000), ("M", 1000 ^ 2), ("G", 1000 ^ 3), ("T", 1000 ^ 4)]

/-- The first suffix of `suffixes` that ends the string decides. -/
def parseMemoryWith (s : List Char) : List (String × ℤ) → ℤ
  | [] => (PythonNumber.int? s).getD 0
  | (suffix, multiplier) :: rest =>
    match stripSuffix? suffix.toList s with
    | some t =>
      match PythonNumber.float? t with
      | some x => PythonNumber.truncate (x * multiplier)
      | none => 0
    | none => parseMemoryWith s rest

/-- Parse a Kubernetes memory quantity to bytes; 0 if it does not parse. -/
def parseMemory (value : String) : ℤ := parseMemoryWith value.toList memorySuffixes

example : parseMemory "1.5Gi" = 1610612736 := by decide +kernel

/-- Check if a pod is owned by a DaemonSet. -/
def isDaemonsetPod (pod : Pod) : Bool := pod.metadata.ownerKinds.any (· = "DaemonSet")

/-- Sum CPU requests across all containers in a pod. -/
def podCpuRequest (pod : Pod) : ℚ :=
  ((pod.containers.filterMap fun c => c.requests.cpu).map parseCpu).sum

/-- Sum memory requests across all containers in a pod. -/
def podMemoryRequest (pod : Pod) : ℤ :=
  ((pod.containers.filterMap fun c => c.requests.memory).map parseMemory).sum

/-- Sum nvidia.com/gpu requests across all containers in a pod. -/
def podGpuRequest (pod : Pod) : ℤ := (pod.containers.filterMap fun c => c.requests.gpu).sum

/-- A pending pod as unscheduled workload. -/
def podToPodinfo (pod : Pod) : PodInfo where
  name := pod.metadata.name
  «namespace» := pod.metadata.namespace
  cpuRequest := podCpuRequest pod
  memoryRequest := podMemoryRequest pod
  gpuRequest := podGpuRequest pod
  nodeName := ""
  isDaemonset := false
  isPhantom := false

/-- The node as it would look with the named taint removed. -/
def nodeViewWithoutTaint (n : NodeState) (taintKey : String) : NodeState :=
  { n with nodeTaints := n.nodeTaints.filter fun t => t.key ≠ taintKey }

end CiInfra.Compactor

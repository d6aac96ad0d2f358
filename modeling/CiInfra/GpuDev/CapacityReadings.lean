import CiInfra.GpuDev.PlacementSoundness
import CiInfra.Lib.PythonNumber
import Mathlib.Algebra.BigOperators.Ring.Finset

/-!
# Three readings of the free GPUs

Here nodes and pods are what the API lists: a node has any number of conditions, and quantities
are strings. The availability updater publishes what is free, the gate of the reservation
processor admits by what is free, and placement selects a node by it. Each of the three decides
for itself which nodes count.
-/

namespace CiInfra.GpuDev

open Interaction Fallible
open Kube (Dict)

/-- A pod as it is listed. -/
structure ListedPod where
  podNamespace : String
  labels : Dict
  phase : String
  nodeName : Option String
  /-- The resource requests of each container. -/
  containers : List (List (String × String))

/-- A node as it is listed. -/
structure ListedNode where
  name : String
  labels : Dict
  /-- The type and the status of each condition. -/
  conditions : List (String × String)
  unschedulable : Bool
  /-- The key and the effect of each taint. -/
  taints : List (String × String)
  allocatable : List (String × String)

/-- The nodes and the pods of all namespaces. -/
structure Cluster where
  nodes : List ListedNode
  pods : List ListedPod

/-- `int(values.get(resource, "0"))`. -/
def quantity (resource : String) (values : List (String × String)) : Option ℤ :=
  PythonNumber.int? ((values.lookup resource).getD "0").toList

/-- The pod is idle in the warm pool. -/
def ListedPod.isIdleWarm (p : ListedPod) : Bool :=
  p.labels "app" == some "gpu-dev-warm" && p.labels "warm-state" == some "ready"

/-- The pod counts as use of its node. -/
def ListedPod.isCounted (p : ListedPod) : Bool :=
  (p.phase == "Running" || p.phase == "Pending") && !p.isIdleWarm

/-- The requests of the containers that count as use of a node. -/
def Cluster.countedRequests (c : Cluster) (node : String) : List (List (String × String)) :=
  ((c.pods.filter fun p => p.nodeName == some node).filter (·.isCounted)).flatMap (·.containers)

/-- What the node has of a resource, nothing if it does not say so in a number. -/
def ListedNode.parsedTotal (n : ListedNode) (resource : String) : ℤ :=
  (quantity resource n.allocatable).getD 0

/-- What is in use on a node by the requests that are numbers. -/
def Cluster.parsedUsed (c : Cluster) (resource node : String) : ℤ :=
  ((c.countedRequests node).map fun r => (quantity resource r).getD 0).sum

/-! ### The availability updater -/

/-- What is read of an entry of `SUPPORTED_GPU_TYPES`. -/
structure SupportedType where
  gpusPerInstance : ℕ
  k8sResource : Option String := none
  nodeGpuType : Option String := none

/-- The configured workspaces. -/
inductive Workspace
  | default
  | prod
  | prodEast1

/-- `SUPPORTED_GPU_TYPES`, as each workspace sets it. -/
def supportedGpuTypes : Workspace → List (String × SupportedType)
  | .default =>
    [("cpu-arm", ⟨0, none, none⟩), ("cpu-x86", ⟨0, none, none⟩), ("t4", ⟨4, none, none⟩),
      ("t4-az2", ⟨4, none, none⟩), ("h100", ⟨8, none, none⟩), ("t4-small", ⟨1, none, none⟩)]
  | .prod =>
    [("b200", ⟨8, none, none⟩), ("h200", ⟨8, none, none⟩), ("h100", ⟨8, none, none⟩),
      ("a100", ⟨8, none, none⟩), ("t4", ⟨4, none, none⟩), ("l4", ⟨4, none, none⟩),
      ("a10g", ⟨4, none, none⟩), ("rtxpro6000", ⟨4, none, none⟩),
      ("h100-mig-1g", ⟨16, some "nvidia.com/mig-1g.10gb", some "h100"⟩),
      ("h100-mig-2g", ⟨8, some "nvidia.com/mig-2g.20gb", some "h100"⟩),
      ("h100-mig-3g", ⟨8, some "nvidia.com/mig-3g.40gb", some "h100"⟩),
      ("b200-mig-1g", ⟨4, some "nvidia.com/mig-1g.23gb", some "b200"⟩),
      ("b200-mig-2g", ⟨2, some "nvidia.com/mig-2g.45gb", some "b200"⟩),
      ("b200-mig-3g", ⟨2, some "nvidia.com/mig-3g.90gb", some "b200"⟩),
      ("cpu-arm", ⟨0, none, none⟩), ("cpu-x86", ⟨0, none, none⟩)]
  | .prodEast1 =>
    [("b300", ⟨8, none, none⟩), ("b200", ⟨8, none, none⟩), ("h200", ⟨8, none, none⟩),
      ("h100", ⟨8, none, none⟩), ("a100", ⟨8, none, none⟩), ("t4", ⟨4, none, none⟩),
      ("l4", ⟨4, none, none⟩), ("rtxpro6000", ⟨4, none, none⟩), ("cpu-x86", ⟨0, none, none⟩),
      ("cpu-spot", ⟨0, none, none⟩)]

/-- The types whose GPUs are published; of the others the updater counts slots for users. -/
def publishedGpuTypes (workspace : Workspace) : List String :=
  ((supportedGpuTypes workspace).filter fun t => t.2.gpusPerInstance ≠ 0).map (·.1)

namespace AvailabilityUpdater

/-- `get_gpu_resource_name`. -/
def getGpuResourceName (workspace : Workspace) (gpuType : String) : String :=
  (((supportedGpuTypes workspace).lookup gpuType).bind (·.k8sResource)).getD "nvidia.com/gpu"

/-- `get_node_label_value`. -/
def getNodeLabelValue (workspace : Workspace) (gpuType : String) : String :=
  (((supportedGpuTypes workspace).lookup gpuType).bind (·.nodeGpuType)).getD gpuType

/-- `is_node_ready_and_schedulable`: the first condition `Ready` decides, and taints are not
looked at. -/
def isNodeReadyAndSchedulable (n : ListedNode) : Bool :=
  (n.conditions.find? fun condition => condition.1 == "Ready").any (·.2 == "True") &&
    !n.unschedulable

variable (workspace : Workspace) (c : Cluster) (gpuType : String)

/-- `get_available_gpus_on_node`: what is not a number is passed over. -/
def getAvailableGpusOnNode (n : ListedNode) : ℕ :=
  let resource := getGpuResourceName workspace gpuType
  (n.parsedTotal resource - c.parsedUsed resource n.name).toNat

/-- The nodes that are counted. -/
def eligibleNodes : List ListedNode :=
  c.nodes.filter fun n =>
    n.labels "GpuType" == some (getNodeLabelValue workspace gpuType) && isNodeReadyAndSchedulable n

/-- The room on each of them. -/
def room : List ℕ :=
  (eligibleNodes workspace c gpuType).map (getAvailableGpusOnNode workspace c gpuType)

/-- `check_schedulable_gpus_for_type`, published as `available_gpus`. -/
def checkSchedulableGpusForType : ℕ := (room workspace c gpuType).sum

/-- `single_node_max` in `update_gpu_availability`. -/
def singleNodeMax : ℕ := (room workspace c gpuType).foldl max 0

/-- `full_node_gpu_counts` in `update_gpu_availability`. -/
def fullNodeGpuCounts : List ℕ :=
  (eligibleNodes workspace c gpuType).filterMap fun n =>
    let totalOnNode := n.parsedTotal (getGpuResourceName workspace gpuType)
    let availableOnNode := getAvailableGpusOnNode workspace c gpuType n
    if 0 < totalOnNode ∧ (availableOnNode : ℤ) = totalOnNode then some availableOnNode else none

/-- `is_mig_sku`. -/
def isMigSku : Bool :=
  (((supportedGpuTypes workspace).lookup gpuType).bind (·.k8sResource)).isSome

/-- The instances of a MIG type cannot be counted, for a node does not give a number. -/
def countRaises : Bool :=
  isMigSku workspace gpuType && (eligibleNodes workspace c gpuType).any fun n =>
    (quantity (getGpuResourceName workspace gpuType) n.allocatable).isNone

/-- `multinode_gpu_types`. -/
def multinodeGpuTypes : List String := ["h100", "h200", "b200", "a100"]

/-- `max_reservable` in `update_gpu_availability`: up to four whole nodes of a type that can be
reserved over several nodes, else what one node gives; all that is available if there was an
exception. -/
def maxReservable : ℕ :=
  let fullNodes := fullNodeGpuCounts workspace c gpuType
  let ofFullNodes := ((fullNodes.mergeSort fun a b => b ≤ a).take 4).sum
  if countRaises workspace c gpuType then checkSchedulableGpusForType workspace c gpuType
  else if multinodeGpuTypes.contains gpuType && !fullNodes.isEmpty && ofFullNodes != 0 then
    ofFullNodes
  else singleNodeMax workspace c gpuType

end AvailabilityUpdater

/-! ### The reservation processor -/

namespace ReservationProcessor

variable (c : Cluster) (gpuType : String)

/-- `is_node_ready_and_schedulable`: any condition `Ready` that is `True` will do, and no taint
may keep pods away. -/
def isNodeReadyAndSchedulable (n : ListedNode) : Bool :=
  n.conditions.contains ("Ready", "True") && !n.unschedulable &&
    n.taints.all fun taint => !(taint.2 == "NoSchedule" && taint.1 != "nvidia.com/gpu")

/-- `get_available_gpus_on_node`: there are none where something is not a number. -/
def getAvailableGpusOnNode (n : ListedNode) : ℕ :=
  match quantity (gpuResourceName gpuType) n.allocatable with
  | none => 0
  | some totalGpus =>
    if totalGpus = 0 then 0
    else
      match (c.countedRequests n.name).mapM (quantity (gpuResourceName gpuType)) with
      | none => 0
      | some requests => (totalGpus - requests.sum).toNat

/-- The nodes that are counted. -/
def eligibleNodes : List ListedNode :=
  c.nodes.filter fun n =>
    n.labels "GpuType" == some (nodeGpuType gpuType) && isNodeReadyAndSchedulable n

/-- The room on each of them. -/
def room : List ℕ := (eligibleNodes c gpuType).map (getAvailableGpusOnNode c gpuType)

/-- `check_schedulable_gpus_for_type`. -/
def checkSchedulableGpusForType : ℕ := (room c gpuType).sum

/-- `check_max_gpus_on_single_node`. -/
def checkMaxGpusOnSingleNode : ℕ := (room c gpuType).foldl max 0

/-- The gate of `process_reservation_request` lets a request of this size pass. -/
def Admits (requestedGpus : ℕ) : Prop :=
  requestedGpus ≤ checkSchedulableGpusForType c gpuType ∧
    requestedGpus ≤ checkMaxGpusOnSingleNode c gpuType

/-- The availability zone of a node. -/
def zone (n : ListedNode) : Option String :=
  let label := fun name => (n.labels name).filter (· ≠ "")
  (label "topology.kubernetes.io/zone").or (label "failure-domain.beta.kubernetes.io/zone")

/-- Placement considers the node. -/
def isPlaceable (n : ListedNode) : Bool :=
  n.conditions.contains ("Ready", "True") && !n.unschedulable && (zone n).isSome

/-- The nodes that placement considers. -/
def placementNodes : List ListedNode :=
  c.nodes.filter fun n => n.labels "GpuType" == some (nodeGpuType gpuType) && isPlaceable n

/-- `all_ready_nodes` in `get_target_az_for_reservation`. -/
def allReadyNodes : List ReadyNode :=
  (placementNodes c gpuType).map fun n =>
    ⟨n.name, (zone n).getD "", getAvailableGpusOnNode c gpuType n⟩

/-- `by_node` in `_evict_warm_for_capacity`: the nodes of the idle warm pods, with what each pod
holds. -/
def warmHoldings : Option (List (String × ℤ)) :=
  let pods := c.pods.filter fun p =>
    p.podNamespace == "gpu-dev" && p.isIdleWarm && p.labels "warm-gpu-type" == some gpuType &&
      p.nodeName.any (· ≠ "") && p.phase == "Running"
  let holdings := pods.mapM fun p =>
    (p.containers.mapM (quantity (gpuResourceName gpuType))).map fun held =>
      (p.nodeName.getD "", held.sum)
  holdings.map fun l => l.filter fun h => 0 < h.2

/-- The first pods that make enough room together with what there is. -/
def evictFirst (gpusRequested : ℕ) (free : ℤ) : List ℤ → List ℤ
  | [] => []
  | held :: rest =>
    if free ≥ gpusRequested then [] else held :: evictFirst gpusRequested (free + held) rest

/-- `_evict_warm_for_capacity`: the node on which room is made. -/
def evictWarmForCapacity (gpusRequested : ℕ) (readyNodes : List ReadyNode) : Option ReadyNode :=
  (warmHoldings c gpuType).bind fun holdings =>
    readyNodes.find? fun n =>
      let evict := evictFirst gpusRequested n.availableGpus
        ((holdings.filter fun h => h.1 == n.nodeName).map (·.2))
      !evict.isEmpty && n.availableGpus + evict.sum ≥ gpusRequested

/-- `get_target_az_for_reservation`: a zone, and a node to pin the pod to. -/
def getTargetAzForReservation (cfg : Settings) (gpusRequested : ℕ) :
    Option String × Option String :=
  let nodes := allReadyNodes c gpuType
  match bestFit gpusRequested nodes with
  | some n => (some n.az, some n.nodeName)
  | none =>
    if !nodes.isEmpty && (cfg.warmPoolTargets.lookup gpuType).isSome then
      match evictWarmForCapacity c gpuType gpusRequested (byRoom nodes) with
      | some n => (some n.az, some n.nodeName)
      | none => zoneOfMostRoom nodes
    else zoneOfMostRoom nodes

end ReservationProcessor

/-! ### Numbers for quantities

Where everything listed is a number, the processor reads what the calls of its model give. -/

/-- The node is as it is listed, and its quantities are numbers. -/
structure ListedNode.Shows (l : ListedNode) (n : Node) : Prop where
  name : n.name = l.name
  labels : n.labels = l.labels
  ready : n.ready = l.conditions.contains ("Ready", "True")
  unschedulable : n.unschedulable = l.unschedulable
  taints : n.taints = l.taints
  allocatable : ∀ resource, quantity resource l.allocatable = some (n.allocatableOf resource : ℤ)

/-- The pod is as it is listed, and its requests are numbers. -/
structure ListedPod.Shows (l : ListedPod) (p : NamedPod) : Prop where
  labels : p.2.labels = l.labels
  phase : p.2.phase = l.phase
  nodeName : p.2.nodeName = l.nodeName
  requests : ∀ resource, l.containers.mapM (quantity resource) =
    some (p.2.containers.map fun c => ((c.lookup resource).getD 0 : ℤ))

/-- The nodes and pods are as they are listed. -/
structure Cluster.Shows (c : Cluster) (w : World) : Prop where
  nodes : List.Forall₂ ListedNode.Shows c.nodes w.nodes
  pods : List.Forall₂ ListedPod.Shows c.pods w.namedPods

theorem ListedPod.Shows.isCounted_eq {l : ListedPod} {p : NamedPod} (h : l.Shows p) :
    p.2.isCounted = l.isCounted := by
  unfold Pod.isCounted Pod.isRunningOrPending Pod.isIdleWarm ListedPod.isCounted
    ListedPod.isIdleWarm
  rw [h.phase, h.labels]

/-- The requests on a node are numbers, and add up to what is requested there. -/
theorem exists_countedRequests {pods : List ListedPod} {named : List NamedPod}
    (h : List.Forall₂ ListedPod.Shows pods named) (resource node : String) :
    ∃ values, (((pods.filter fun p => p.nodeName == some node).filter (·.isCounted)).flatMap
        (·.containers)).mapM (quantity resource) = some values ∧
      values.sum = (requested resource
        ((named.filter fun p => p.2.nodeName == some node).filter (·.2.isCounted)) : ℤ) := by
  simp only [List.filter_filter]
  induction h with
  | nil => exact ⟨[], rfl, rfl⟩
  | @cons l p pods named hshows _ ih =>
    obtain ⟨values, hvalues, hsum⟩ := ih
    have hsame : (p.2.isCounted && p.2.nodeName == some node) =
        (l.isCounted && l.nodeName == some node) := by
      rw [hshows.isCounted_eq, hshows.nodeName]
    rw [List.filter_cons, List.filter_cons, hsame]
    by_cases hcounts : (l.isCounted && l.nodeName == some node) = true
    · rw [if_pos hcounts, if_pos hcounts, List.flatMap_cons]
      refine ⟨p.2.containers.map (fun c => ((c.lookup resource).getD 0 : ℤ)) ++ values, ?_, ?_⟩
      · rw [List.mapM_append, hshows.requests resource, hvalues]
        rfl
      · rw [List.sum_append, hsum, requested_cons, Nat.cast_add, Pod.request, Nat.cast_list_sum,
          List.map_map]
        rfl
    · rw [if_neg hcounts, if_neg hcounts]
      exact ⟨values, hvalues, hsum⟩

namespace ReservationProcessor

variable {c : Cluster} {w : World}

theorem getAvailableGpusOnNode_eq (h : c.Shows w) {l : ListedNode} {n : Node} (hn : l.Shows n)
    (gpuType : String) : getAvailableGpusOnNode c gpuType l = availableOn w gpuType n := by
  obtain ⟨values, hvalues, hsum⟩ :=
    exists_countedRequests h.pods (gpuResourceName gpuType) l.name
  unfold getAvailableGpusOnNode Cluster.countedRequests availableOn World.podsOn
  rw [hn.allocatable, hvalues, hn.name]
  simp only [hsum]
  split
  · next hzero => rw [Int.natCast_eq_zero.mp hzero, Nat.zero_sub]
  · omega

/-- The nodes that the calls select by a condition, with their room. -/
theorem room_filter_eq (h : c.Shows w) (gpuType : String) {P : ListedNode → Bool} {Q : Node → Bool}
    (hsame : ∀ l n, l.Shows n → Q n = P l) :
    (c.nodes.filter P).map (getAvailableGpusOnNode c gpuType) =
      (w.nodes.filter Q).map (availableOn w gpuType) := by
  have hall := h.nodes
  generalize c.nodes = listed at hall
  generalize w.nodes = nodes at hall
  induction hall with
  | nil => rfl
  | @cons l n listed nodes hn _ ih =>
    rw [List.filter_cons, List.filter_cons, hsame l n hn]
    split
    · rw [List.map_cons, List.map_cons, ih, getAvailableGpusOnNode_eq h hn]
    · exact ih

/-- The room on the nodes is what the calls give. -/
theorem result_roomOnNodes (h : c.Shows w) (script : Script) (gpuType : String) :
    (roomOnNodes gpuType).result script.serve w = (.ok (room c gpuType), w) := by
  have hroom : room c gpuType = (w.nodes.filter fun n =>
      n.isOfType gpuType && n.isReadyAndSchedulable).map (availableOn w gpuType) := by
    refine room_filter_eq h gpuType fun l n hn => ?_
    unfold Node.isOfType Node.isReadyAndSchedulable isNodeReadyAndSchedulable
    rw [hn.labels, hn.ready, hn.unschedulable, hn.taints]
  have hlist : listNodes.result script.serve w = (.ok w.nodes, w) := rfl
  rw [hroom, roomOnNodes, result_bind hlist]
  exact result_collect fun n _ => result_getAvailableGpusOnNode gpuType n

/-- The node, as it is listed. -/
def listedNodeOfEight : ListedNode where
  name := nodeOfEight.name
  labels := nodeOfEight.labels
  conditions := [("Ready", "True")]
  unschedulable := false
  taints := nodeOfEight.taints
  allocatable := [("nvidia.com/gpu", "8")]

/-- So is the most that one node gives. -/
theorem result_checkMaxGpusOnSingleNode (h : c.Shows w) (script : Script) (gpuType : String) :
    (GpuDev.checkMaxGpusOnSingleNode gpuType).result script.serve w =
      (.ok (checkMaxGpusOnSingleNode c gpuType), w) :=
  result_tryCatch (result_bind (result_roomOnNodes h script gpuType) _) _

/-- Placement selects from the same nodes. -/
theorem allReadyNodes_eq (h : c.Shows w) (gpuType : String) :
    allReadyNodes c gpuType = readyNodes w gpuType := by
  have hall := h.nodes
  unfold allReadyNodes placementNodes readyNodes
  generalize c.nodes = listed at hall
  generalize w.nodes = nodes at hall
  induction hall with
  | nil => rfl
  | @cons l n listed nodes hn _ ih =>
    have hzone : n.zone = zone l := by
      unfold Node.zone zone
      rw [hn.labels]
    have heligible : n.eligible gpuType =
        if (l.labels "GpuType" == some (nodeGpuType gpuType) && isPlaceable l) = true then
          some (n, (zone l).getD "") else none := by
      unfold Node.eligible Node.isOfType isPlaceable
      rw [hn.labels, hn.ready, hn.unschedulable, hzone]
      cases zone l with
      | none => simp
      | some az => simp only [Option.isSome_some, Bool.and_true, Option.map_some,
          Option.getD_some, Bool.and_assoc]
    rw [List.filter_cons, List.filterMap_cons, heligible]
    split_ifs
    · simp only [List.map_cons]
      rw [ih, getAvailableGpusOnNode_eq h hn, hn.name]
    · exact ih

end ReservationProcessor

end CiInfra.GpuDev

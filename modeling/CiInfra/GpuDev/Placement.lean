import CiInfra.GpuDev.Records
import Mathlib.Algebra.GroupWithZero.Nat
import Mathlib.Data.List.Sort

/-!
# Where there is room

A reservation is admitted if the schedulable nodes of its type have room, together and one of
them alone. Its pod is pinned to the fullest node on which it fits; where it fits on none, idle
pods of the warm pool are deleted to make room. Idle warm pods do not count as use of a node.
-/

namespace CiInfra.GpuDev

open Interaction Fallible

/-- `k8s_resource` and `node_gpu_type` in `GPU_CONFIG`, where they are given. -/
def gpuConfig : List (String × String × String) :=
  [("h100-mig-1g", "nvidia.com/mig-1g.10gb", "h100"),
    ("h100-mig-2g", "nvidia.com/mig-2g.20gb", "h100"),
    ("h100-mig-3g", "nvidia.com/mig-3g.40gb", "h100"),
    ("b200-mig-1g", "nvidia.com/mig-1g.23gb", "b200"),
    ("b200-mig-2g", "nvidia.com/mig-2g.45gb", "b200"),
    ("b200-mig-3g", "nvidia.com/mig-3g.90gb", "b200")]

/-- `get_gpu_resource_name`. -/
def gpuResourceName (gpuType : String) : String :=
  ((gpuConfig.lookup gpuType).map (·.1)).getD "nvidia.com/gpu"

/-- `get_node_gpu_type`. -/
def nodeGpuType (gpuType : String) : String :=
  ((gpuConfig.lookup gpuType).map (·.2)).getD gpuType

/-- The requests of the container of a pod. -/
def podRequests (gpuType : String) (gpuCount : ℕ) : List (String × ℕ) :=
  if gpuCount > 0 then [(gpuResourceName gpuType, gpuCount)] else []

/-- The node has the label of the type. -/
def Node.isOfType (n : Node) (gpuType : String) : Bool :=
  n.labels "GpuType" == some (nodeGpuType gpuType)

/-- `is_node_ready_and_schedulable`. -/
def Node.isReadyAndSchedulable (n : Node) : Bool :=
  n.ready && !n.unschedulable &&
    n.taints.all fun taint => !(taint.2 == "NoSchedule" && taint.1 != "nvidia.com/gpu")

/-- The pod counts as use of its node: it is running or pending, and not idle in the warm
pool. -/
def Pod.isCounted (p : Pod) : Bool := p.isRunningOrPending && !p.isIdleWarm

/-- What some pods request of a resource. -/
def requested (resource : String) (pods : List NamedPod) : ℕ :=
  (pods.map fun p => p.2.request resource).sum

/-- `get_available_gpus_on_node`. -/
def getAvailableGpusOnNode (gpuType : String) (node : Node) : Lambda ℕ :=
  orElseGive (do
    let totalGpus := node.allocatableOf (gpuResourceName gpuType)
    if totalGpus = 0 then
      return 0
    else
      let pods ← listPodsOn node.name
      return totalGpus - requested (gpuResourceName gpuType) (pods.filter (·.2.isCounted))) 0

/-- The room on each schedulable node of a type. -/
def roomOnNodes (gpuType : String) : Lambda (List ℕ) := do
  let nodes ← listNodes
  collect (getAvailableGpusOnNode gpuType)
    (nodes.filter fun n => n.isOfType gpuType && n.isReadyAndSchedulable)

/-- `check_schedulable_gpus_for_type`. -/
def checkSchedulableGpusForType (gpuType : String) : Lambda ℕ :=
  orElseGive (do
    let room ← roomOnNodes gpuType
    return room.sum) 0

/-- `check_gpu_availability`. -/
def checkGpuAvailability (gpuType : String) : Lambda ℕ := do
  let availableGpus ← checkSchedulableGpusForType gpuType
  logged (attempt (.availabilityTable gpuType))
  return availableGpus

/-- `check_max_gpus_on_single_node`. -/
def checkMaxGpusOnSingleNode (gpuType : String) : Lambda ℕ :=
  orElseGive (do
    let room ← roomOnNodes gpuType
    return room.foldl max 0) 0

/-! ### Placement -/

/-- A ready node with its zone and its room. -/
structure ReadyNode where
  nodeName : String
  az : String
  availableGpus : ℕ
  deriving DecidableEq

/-- The availability zone of a node, by the present label or the older one. -/
def Node.zone (n : Node) : Option String :=
  let label := fun name => (n.labels name).filter (· ≠ "")
  (label "topology.kubernetes.io/zone").or (label "failure-domain.beta.kubernetes.io/zone")

/-- A node that placement considers, with its zone. -/
def Node.eligible (n : Node) (gpuType : String) : Option (Node × String) :=
  if n.isOfType gpuType && n.ready && !n.unschedulable then n.zone.map (n, ·) else none

/-- The pods of a node that can be evicted, from a listing of idle warm pods. -/
def evictable (resource node : String) (pods : List NamedPod) : List NamedPod :=
  pods.filter fun p =>
    p.2.nodeName == some node && p.2.phase == "Running" && 0 < p.2.request resource

/-- The first pods that make enough room together with what there is, and the room they make. -/
def chooseEvictions (resource : String) (gpusRequested : ℕ) (room : ℕ) :
    List NamedPod → List NamedPod × ℕ
  | [] => ([], 0)
  | p :: ps =>
    if room ≥ gpusRequested then ([], 0)
    else
      let held := p.2.request resource
      let rest := chooseEvictions resource gpusRequested (room + held) ps
      (p :: rest.1, held + rest.2)

/-- Delete an idle warm pod, checking once more that the listing showed it to be one. -/
def evictWarmPod (p : NamedPod) : Lambda Unit :=
  whenever p.2.isIdleWarm <| logged do
    deletePod p.1
    logged (attempt (.service p.1))

/-- The loop of `_evict_warm_for_capacity` over the nodes. -/
def evictOnFirstNode (resource : String) (gpusRequested : ℕ) (pods : List NamedPod) :
    List ReadyNode → Lambda (Option ReadyNode)
  | [] => pure none
  | n :: nodes =>
    let chosen := chooseEvictions resource gpusRequested n.availableGpus
      (evictable resource n.nodeName pods)
    if !chosen.1.isEmpty && n.availableGpus + chosen.2 ≥ gpusRequested then do
      chosen.1.forM evictWarmPod
      return some n
    else evictOnFirstNode resource gpusRequested pods nodes

/-- `_evict_warm_for_capacity`. -/
def evictWarmForCapacity (gpuType : String) (gpusRequested : ℕ) (readyNodes : List ReadyNode) :
    Lambda (Option ReadyNode) :=
  orElseGive (do
    let pods ← listWarmPods (some gpuType) (some "ready")
    evictOnFirstNode (gpuResourceName gpuType) gpusRequested pods readyNodes) none

/-- Whether one node comes before another for best fit: less room first, then by name. -/
def fitsTighter (a b : ReadyNode) : Bool :=
  a.availableGpus < b.availableGpus ||
    (a.availableGpus == b.availableGpus && a.nodeName ≤ b.nodeName)

/-- The nodes with the most room first. -/
def byRoom (nodes : List ReadyNode) : List ReadyNode :=
  nodes.mergeSort fun a b => b.availableGpus ≤ a.availableGpus

/-- The tightest of the nodes that have room for the request. -/
def bestFit (gpusRequested : ℕ) (nodes : List ReadyNode) : Option ReadyNode :=
  ((nodes.filter fun n => n.availableGpus ≥ gpusRequested).mergeSort fitsTighter).head?

/-- What is given when no node fits and none could be made to. -/
def zoneOfMostRoom (nodes : List ReadyNode) : Option String × Option String :=
  ((byRoom nodes).head?.map (·.az), none)

/-- Measure the room on an eligible node. -/
def readyNode (gpuType : String) (n : Node × String) : Lambda ReadyNode := do
  let availableGpus ← getAvailableGpusOnNode gpuType n.1
  return ⟨n.1.name, n.2, availableGpus⟩

/-- The end of `get_target_az_for_reservation`, once the room on the nodes is known. -/
def selectNode (cfg : Settings) (gpuType : String) (gpusRequested : ℕ)
    (allReadyNodes : List ReadyNode) : Lambda (Option String × Option String) :=
  match bestFit gpusRequested allReadyNodes with
  | some n => return (some n.az, some n.nodeName)
  | none =>
    if !allReadyNodes.isEmpty && (cfg.warmPoolTargets.lookup gpuType).isSome then do
      let evicted ← evictWarmForCapacity gpuType gpusRequested (byRoom allReadyNodes)
      match evicted with
      | some n => return (some n.az, some n.nodeName)
      | none => return zoneOfMostRoom allReadyNodes
    else return zoneOfMostRoom allReadyNodes

/-- `get_target_az_for_reservation`: a zone, and a node to pin the pod to. -/
def getTargetAzForReservation (cfg : Settings) (gpuType : String) (gpusRequested : ℕ) :
    Lambda (Option String × Option String) :=
  orElseGive (do
    let nodes ← listNodes
    let allReadyNodes ← collect (readyNode gpuType)
      (nodes.filterMap fun n => n.eligible gpuType)
    selectNode cfg gpuType gpusRequested allReadyNodes)
    (some cfg.primaryAvailabilityZone, none)

end CiInfra.GpuDev

import CiInfra.GpuDev.Allocation
import Mathlib.Algebra.GroupWithZero.Nat

/-!
# Multinode reservations

A reservation of several nodes is one record for each node under one master id, and one message
for each. The invocation that finds all of them pending coordinates: under a lock kept in the
reservations table it checks that there is room for all, and then allocates the nodes side by
side, or queues all records. The records of the group are found by a scan for the master id.
-/

namespace CiInfra.GpuDev

open Interaction Fallible

/-- The initial record of one node. -/
def multinodeRecord (cfg : Settings) (request : Attributes) (now expiresAt : String) :
    Attributes :=
  let nodeIndex := request.natural "node_index" 0
  let totalNodes := request.natural "total_nodes" 1
  let base := Attributes.ofList
    [("reservation_id", (request "reservation_id").getD .null),
      ("master_reservation_id", (request "master_reservation_id").getD .null),
      ("node_index", .number nodeIndex),
      ("total_nodes", .number totalNodes),
      ("user_id", (request "user_id").getD .null),
      ("gpu_count", (request "gpu_count").getD (.number 1)),
      ("total_gpu_count", (request "total_gpu_count").getD (.number 1)),
      ("gpu_type", (request "gpu_type").getD (.text "a100")),
      ("duration_hours", (request "duration_hours").getD (.number 8)),
      ("name", (request "name").getD
        (.text ("Multinode " ++ toString (nodeIndex + 1) ++ "/" ++ toString totalNodes))),
      ("created_at", (request "created_at").getD (.text now)),
      ("status", .text "pending"),
      ("expires_at", .text expiresAt),
      ("is_multinode", .flag true)]
  let item := request.carryTruthy "github_user" base "github_user"
  let item := request.carryTruthy "version" item "cli_version"
  let item := request.carryTruthy "source_command" item "source_command"
  item.set "lambda_version" (.text cfg.lambdaVersion)

/-- Write the initial record of one node, over whatever is there. -/
def putMultinodeRecord (cfg : Settings) (request : Attributes) : Lambda Unit := do
  let durationHours ← floatOf request "duration_hours" 8
  let expiresAt ← read (.timeAfter durationHours)
  let now ← clock
  putItem (multinodeRecord cfg request now expiresAt)

/-- `check_all_multinode_nodes_ready`. -/
def checkAllMultinodeNodesReady (masterReservationId : String) (totalNodes : ℕ) : Lambda Bool :=
  orElseGive (do
    let nodes ← find (.nodesOf masterReservationId none)
    return totalNodes ≤ nodes.length && nodes.all fun node => node.isOneOf "status" ["pending"])
    false

/-! ### The coordination lock -/

/-- The lock item. -/
def lockItem (masterReservationId createdAt : String) (expiresAt : ℤ) : Attributes :=
  .ofList
    [("reservation_id", .text (lockKey masterReservationId)),
      ("lock_owner", .text "coordinator"),
      ("master_reservation_id", .text masterReservationId),
      ("created_at", .text createdAt),
      ("expires_at", .number expiresAt),
      ("type", .text "lock")]

/-- `acquire_multinode_lock`. -/
def acquireMultinodeLock (masterReservationId : String) (ttlSeconds : ℕ := 300) : Lambda Bool :=
  orElseGive (do
    let now ← epoch
    let createdAt ← clock
    putItem (lockItem masterReservationId createdAt (now.floor + ttlSeconds))
      (some (.lockFree now.floor))
    return true) false

/-- `release_multinode_lock`. -/
def releaseMultinodeLock (masterReservationId : String) : Lambda Unit :=
  logged (deleteItem (lockKey masterReservationId))

/-! ### The group as a whole -/

/-- Do something with each scanned record that has an id. -/
def forEachNode (f : String → Lambda Unit) (nodes : List Attributes) : Lambda Unit :=
  (nodes.filter fun node => node.key ≠ "").forM fun node => f node.key

/-- `update_all_multinode_status`; the reason goes where the detailed status belongs. -/
def updateAllMultinodeStatus (masterReservationId status failureReason : String) : Lambda Unit :=
  logged do
    let nodes ← find (.nodesOf masterReservationId none)
    forEachNode (fun id => updateReservationStatus id status failureReason) nodes

/-- `fail_all_multinode_reservations`. -/
def failAllMultinodeReservations (masterReservationId errorMessage : String) : Lambda Unit :=
  updateAllMultinodeStatus masterReservationId "failed" errorMessage

/-- The other multinode groups in a queue. -/
def groupsAhead (masterReservationId : String) (queued : List Attributes) : List String :=
  ((queued.filter fun item => item.truthy "is_multinode").map
    (·.text "master_reservation_id")).dedup.filter (· ≠ masterReservationId)

/-- The GPUs that are asked for ahead of a group in a queue, each other group counted once. -/
def gpusAhead (masterReservationId : String) (queued : List Attributes) : ℕ :=
  ((groupsAhead masterReservationId queued).map fun group =>
    ((queued.find? fun item => item.text "master_reservation_id" = group).map
      (·.natural "total_gpu_count" 0)).getD 0).sum +
  ((queued.filter fun item => !item.truthy "is_multinode").map (·.natural "gpu_count" 1)).sum

/-- A place in the queue for a group: the position, the wait in minutes and the message. -/
structure GroupQueueInfo where
  position : ℕ
  estimatedWaitMinutes : ℚ
  message : String

/-- `calculate_multinode_queue_position_and_wait_time`. -/
def calculateMultinodeQueuePosition (masterReservationId gpuType : String)
    (totalGpusNeeded availableGpus : ℕ) : Lambda GroupQueueInfo :=
  orElseGive (do
    let queued ← find (.statusAndGpuType "queued" gpuType)
    let position := (groupsAhead masterReservationId queued).length +
      (queued.filter fun item => !item.truthy "is_multinode").length + 1
    let ahead := gpusAhead masterReservationId queued
    let message := "Multinode reservation queued - position " ++ toString position ++ " (" ++
      toString ahead ++ " GPUs ahead)"
    if 0 < ahead then
      return ⟨position, ((ahead : ℚ) / max availableGpus 1 * 360).floor, message⟩
    else if totalGpusNeeded ≤ availableGpus then
      return ⟨position, 0, message⟩
    else do
      let wait ← orElseGive (count (.waitEstimate masterReservationId)) 60
      return ⟨position, wait, message⟩) ⟨999, 999, "Queue calculation error"⟩

/-- `queue_all_multinode_reservations`. -/
def queueAllMultinodeReservations (masterReservationId : String) (totalGpusNeeded : ℕ)
    (gpuType : String) (availableGpus : ℕ) : Lambda Unit :=
  tryCatch (do
    let nodes ← find (.nodesOf masterReservationId none)
    let info ← calculateMultinodeQueuePosition masterReservationId gpuType totalGpusNeeded
      availableGpus
    forEachNode (fun id => do
      updateReservationWithQueueInfo id (.number info.position) (.number info.estimatedWaitMinutes)
        availableGpus
      updateReservationStatus id "queued" info.message) nodes) fun e =>
    failAllMultinodeReservations masterReservationId e.message

/-! ### One node -/

/-- The request for the allocation of a node: its record with the list of peer pods. -/
def nodeRequest (node : Attributes) (peerPods : List String) : Attributes :=
  if peerPods.isEmpty then node
  else node.set "multinode_peer_pods" (.list (peerPods.map .text))

/-- `process_multinode_individual_node`. -/
def processMultinodeIndividualNode (cfg : Settings) (reservationId : String)
    (nodeIndex totalNodes : ℕ) (peerPods : List String) : Lambda Bool :=
  tryCatch (do
    let item ← getItem reservationId
    match item with
    | none => do
      updateMultinodePodStatus reservationId "not found" nodeIndex totalNodes
      return false
    | some node => do
      let request := nodeRequest node peerPods
      updateMultinodePodStatus reservationId "preparing pod" nodeIndex totalNodes
      let created ← createReservation cfg request
      if created = "" then do
        updateMultinodePodStatus reservationId "failed to create" nodeIndex totalNodes
        return false
      else do
        updateMultinodePodStatus reservationId "allocating resources" nodeIndex totalNodes
        allocateGpuResources cfg created (allocationParameters request)
        return true) fun _ => do
    updateMultinodePodStatus reservationId "processing failed" nodeIndex totalNodes
    return false

/-! ### Coordination -/

/-- The names of the pods of a group, by node index. -/
def peerPodNames (nodes : List Attributes) : List String :=
  (nodes.mergeSort fun a b => a.natural "node_index" 0 ≤ b.natural "node_index" 0).map
    fun node => podNameOf node.key

/-- Allocate all nodes side by side, and fail all if one failed. -/
def startNodes (cfg : Settings) (masterReservationId : String) (totalNodes : ℕ)
    (nodes : List Attributes) : Lambda Bool := do
  let results ← allInThreads (nodes.zipIdx.map fun (node, i) =>
    processMultinodeIndividualNode cfg node.key (node.natural "node_index" i) totalNodes
      (peerPodNames nodes))
  let successCount := (results.filter fun r => r.toOption.getD false).length
  if successCount = totalNodes then do
    logged (attempt (.trigger "multinode-ssh"))
    return true
  else do
    failAllMultinodeReservations masterReservationId
      ("Partial processing failure (" ++ toString successCount ++ "/" ++ toString totalNodes ++ ")")
    return false

/-- Start or queue a group, the lock having been acquired. -/
def coordinateLocked (cfg : Settings) (masterReservationId : String) (totalNodes : ℕ) :
    Lambda Bool := do
  let nodes ← find (.nodesOf masterReservationId (some "pending"))
  if nodes.length ≠ totalNodes then do
    failAllMultinodeReservations masterReservationId "Incomplete node set"
    return false
  else
    match nodes with
    | [] => throw (.error "list index out of range")
    | firstNode :: _ => do
      let gpuType := firstNode.text "gpu_type" "a100"
      let totalGpusNeeded := firstNode.natural "gpu_count" 1 * totalNodes
      let availableGpus ← checkGpuAvailability gpuType
      if totalGpusNeeded ≤ availableGpus then do
        releaseMultinodeLock masterReservationId
        startNodes cfg masterReservationId totalNodes nodes
      else do
        queueAllMultinodeReservations masterReservationId totalGpusNeeded gpuType availableGpus
        return true

/-- `coordinate_multinode_reservation`. The lock is released at the end in any case. -/
def coordinateMultinodeReservation (cfg : Settings) (masterReservationId : String)
    (totalNodes : ℕ) : Lambda Bool :=
  andFinally (tryCatch (do
    let acquired ← acquireMultinodeLock masterReservationId
    if acquired then coordinateLocked cfg masterReservationId totalNodes
    else return true) fun e => do
    failAllMultinodeReservations masterReservationId e.message
    return false) (releaseMultinodeLock masterReservationId)

/-- `process_multinode_reservation_request`. -/
def processMultinodeReservationRequest (cfg : Settings) (request : Attributes) : Lambda Bool :=
  let masterReservationId := request.text "master_reservation_id"
  let totalNodes := request.natural "total_nodes" 1
  tryCatch (do
    whenever (request.key ≠ "") (logged (putMultinodeRecord cfg request))
    let ready ← checkAllMultinodeNodesReady masterReservationId totalNodes
    if ready then coordinateMultinodeReservation cfg masterReservationId totalNodes
    else return true) fun e => do
    whenever (masterReservationId ≠ "")
      (failAllMultinodeReservations masterReservationId e.message)
    return false

end CiInfra.GpuDev

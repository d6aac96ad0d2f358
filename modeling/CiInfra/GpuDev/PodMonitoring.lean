import CiInfra.GpuDev.Placement
import Mathlib.Data.List.Infix

/-!
# Watching a pod start

While a pod starts, a background thread turns its events and its log into a status of the
reservation. It reads the record several times and writes it without a condition; a pod that
cannot be scheduled is deleted and its reservation queued again.
-/

namespace CiInfra.GpuDev

open Interaction Fallible

/-- `part in s`. -/
def mentions (s part : String) : Bool := decide (part.toList <:+: s.toList)

/-- What `update_pod_status_and_events` gives. -/
structure PodStatus where
  displayMessage : String
  hasErrors : Bool
  terminated : Bool

/-- The statuses at which the monitoring stops. -/
def endedForMonitoring : List String := ["cancelled", "failed", "expired"]

/-- Read an item of the table; a missing one reads as an empty one. -/
def getItemOrEmpty (id : String) : Lambda Attributes := do
  let item ← getItem id
  return item.getD fun _ => none

/-- The branch in which the pod is not there. -/
def reportMissingPod (reservationId : String) : Lambda PodStatus := do
  let status ← orElseGive (do
    let item ← getItemOrEmpty reservationId
    return item.text "status" "unknown") "unknown"
  if endedForMonitoring.contains status then
    return ⟨"Reservation " ++ status, false, true⟩
  else do
    updateReservationStatus reservationId "preparing" "⏳ Pod creation pending"
    return ⟨"⏳ Pod creation pending", false, false⟩

/-- Delete a pod that cannot be scheduled and queue its reservation. Gives the message. -/
def convertToQueued (podName reservationId : String) : Lambda String := do
  let item ← getItemOrEmpty reservationId
  let gpuType := item.text "gpu_type"
  let availableGpus ← count (.availabilityTable gpuType)
  let info ← calculateQueuePositionAndWaitTime reservationId gpuType
  updateReservationWithQueueInfo reservationId (numberOrNull (info.position.map fun n => (n : ℚ)))
    (numberOrNull info.estimatedWaitMinutes) availableGpus.floor.toNat
  deletePod podName
  let message := "⏳ Queued - position #" ++ info.shownPosition
  updateReservationStatus reservationId "queued" message
  return message

/-- The message for a pod that waits for GPUs. -/
def explainInsufficientGpus (reservationId : String) : Lambda String :=
  orElseGive (do
    let item ← getItemOrEmpty reservationId
    let gpuType := item.text "gpu_type"
    let availableGpus ← count (.availabilityTable gpuType)
    return if (item.natural "gpu_count" 1 : ℚ) ≤ availableGpus then
      "⏳ Waiting for GPUs on single node (GPUs available but spread across nodes)"
    else "⏳ All " ++ gpuType.toUpper ++ " GPUs currently in use - queuing for next available slot")
    "⏳ Waiting for GPUs to become available"

/-- The message for a pod that no node matches; if there are no nodes of its type, the
reservation has failed. -/
def explainAffinity (podName reservationId : String) : Lambda String :=
  orElseGive (do
    let item ← getItemOrEmpty reservationId
    let gpuType := item.text "gpu_type"
    let nodes ← listNodes
    if !nodes.any (·.isOfType gpuType) then do
      updateReservationStatus reservationId "failed"
        ("GPU type '" ++ gpuType.toUpper ++ "' not available")
      deletePod podName
      return "❌ No " ++ gpuType.toUpper ++ " nodes configured in cluster"
    else return "⏳ Waiting for " ++ gpuType.toUpper ++ " node capacity")
    "⏳ Waiting for node capacity"

/-- The message for a pod that fails to be scheduled. -/
def explainScheduling (podName reservationId : String) : SchedulingTrouble → Lambda String
  | .insufficientGpus => explainInsufficientGpus reservationId
  | .affinity => explainAffinity podName reservationId
  | .other => return "⏳ Waiting for resources"

/-- The message that the events of a pod give. -/
def explainEvents (podName reservationId : String) : PodEvents → Lambda String
  | .plain message => return message
  | .failedScheduling stuck why =>
    if stuck then
      tryCatch (convertToQueued podName reservationId) fun _ =>
        explainScheduling podName reservationId why
    else explainScheduling podName reservationId why

/-- The message to display: errors and waits before the progress of the startup. -/
def displayMessage (eventMessage : String) (pod : PodObservation) : String :=
  if eventMessage ≠ "" && (mentions eventMessage "❌" || mentions eventMessage "⏳") then
    eventMessage
  else if pod.startupMessage ≠ "" then pod.startupMessage
  else if eventMessage ≠ "" then eventMessage
  else if pod.phase = "Pending" then "⏳ Pod pending"
  else if pod.phase = "Running" then "🚀 Container running — starting SSH service…"
  else "Pod phase: " ++ pod.phase

/-- The message is one of an error. -/
def reportsErrors (message : String) : Bool :=
  mentions message "❌" && !mentions message "transient"

/-- The container is ready: it runs, and unless its own entrypoint is kept, its SSH daemon has
started. -/
def PodObservation.isReady (pod : PodObservation) (preserveEntrypoint : Bool) : Bool :=
  pod.phase == "Running" && (preserveEntrypoint ||
    mentions pod.logs "SSH daemon starting on port 22" || mentions pod.logs "Server listening on")

/-- Whether the reservation is active once the container is ready, with the message: it is if the
connection details are there. -/
def activeWhenReady (reservationId message : String) (preserveEntrypoint : Bool) :
    Lambda (Bool × String) :=
  orElseGive (do
    let item ← getItemOrEmpty reservationId
    if preserveEntrypoint then
      return if item.truthy "pod_name" then (true, message)
        else (false, "✅ Pod running, waiting for connection setup")
    else
      return if item.truthy "node_port" && item.truthy "ssh_command" then (true, message)
        else (false, "✅ SSH ready, waiting for connection setup")) (false, message)

/-- Whether the reservation is active, with the message. `currentStatus` is what the record had a
moment ago, if it could be read, and `ddbStatus` what it has now. -/
def decideActive (reservationId message : String) (pod : PodObservation)
    (preserveEntrypoint : Bool) (currentStatus : Option String) (ddbStatus : String) :
    Lambda (Bool × String) :=
  if ddbStatus = "active" || currentStatus = some "active" then
    return (true, message)
  else if currentStatus = none then
    -- Here the code uses the status that it could not read, and raises.
    throw (.error "cannot access local variable 'current_status'")
  else if pod.isReady preserveEntrypoint && !reportsErrors message then
    activeWhenReady reservationId message preserveEntrypoint
  else return (false, message)

/-- The status that is written. -/
def statusToReport (failed active : Bool) : String :=
  if failed then "failed" else if active then "active" else "preparing"

/-- Write the status that follows from what is seen of a pod. -/
def reportPodStatus (reservationId message : String) (pod : PodObservation)
    (currentStatus : Option String) : Lambda PodStatus := do
  let preserveEntrypoint ← orElseGive (do
    let item ← getItemOrEmpty reservationId
    return item.truthy "preserve_entrypoint") false
  let ddbStatus ← tryCatch (do
    let item ← getItemOrEmpty reservationId
    return item.text "status") fun e =>
      match currentStatus with
      | some status => return status
      | none => throw e
  let (active, shown) ←
    decideActive reservationId message pod preserveEntrypoint currentStatus ddbStatus
  let failed := reportsErrors message || pod.phase == "Failed"
  whenever (shown ≠ "") (updateReservationStatus reservationId (statusToReport failed active) shown
    (if failed then shown else ""))
  whenever (pod.logs ≠ "") (updateReservationFields reservationId [("pod_logs", .text pod.logs)])
  return ⟨shown, mentions shown "❌", false⟩

/-- The branch in which the pod is there. -/
def reportPod (podName reservationId : String) (pod : PodObservation) : Lambda PodStatus := do
  let eventMessage ← explainEvents podName reservationId pod.events
  let message := displayMessage eventMessage pod
  let current ← orElseGive (do
    let item ← getItem reservationId
    return some (item.getD fun _ => none)) none
  match current with
  | none => reportPodStatus reservationId message pod none
  | some item =>
    let status := item.text "status"
    if endedForMonitoring.contains status || item.truthy "cancelled_at" then do
      whenever (!endedForMonitoring.contains status)
        (updateReservationFields reservationId [("status", .text "cancelled")])
      return ⟨"Reservation " ++ (if endedForMonitoring.contains status then status
        else "cancelled"), false, true⟩
    else if message ≠ item.text "pod_events" || pod.phase ≠ item.text "pod_status" then
      reportPodStatus reservationId message pod (some status)
    else do
      whenever (pod.logs ≠ "")
        (updateReservationFields reservationId [("pod_logs", .text pod.logs)])
      return ⟨message, mentions message "❌", false⟩

/-- `update_pod_status_and_events`. -/
def updatePodStatusAndEvents (podName reservationId : String) : Lambda PodStatus :=
  orElseGive (do
    let pod ← tryCatch (do
      let pod ← observePod podName
      return some pod) fun
        | .notFound => return none
        | failure => throw failure
    match pod with
    | none => reportMissingPod reservationId
    | some pod => reportPod podName reservationId pod)
    ⟨"⏳ Checking pod status...", false, false⟩

/-- The loop of `start_background_pod_monitoring`, for a number of rounds. -/
def monitorLoop (podName reservationId : String) : ℕ → Lambda Unit
  | 0 => return ()
  | rounds + 1 => do
    let status ← updatePodStatusAndEvents podName reservationId
    if status.terminated then
      return ()
    else do
      let stopped ← ask (.stopEvent reservationId)
      if stopped then
        return ()
      else monitorLoop podName reservationId rounds

end CiInfra.GpuDev

import CiInfra.GpuDev.Multinode
import CiInfra.GpuDev.WarmPool

/-!
# Processing a reservation request

A message asks for a reservation. Its record is written unless it has been terminated, the
request is validated, and if there is room it is allocated at once, otherwise it is queued.
Before that the handler tries to serve it from the warm pool.
-/

namespace CiInfra.GpuDev

open Interaction Fallible

/-- The record that `process_reservation_request` writes first. -/
def initialRecord (request : Attributes) (durationHours : ℚ) (now expiresAt : String) :
    Attributes :=
  let base := Attributes.ofList
    [("reservation_id", .text request.key),
      ("user_id", (request "user_id").getD .null),
      ("gpu_count", (request "gpu_count").getD (.number 1)),
      ("gpu_type", (request "gpu_type").getD (.text "a100")),
      ("duration_hours", .number durationHours),
      ("name", (request "name").getD (.text (toString (request.natural "gpu_count" 1) ++ "x " ++
        (request.text "gpu_type" "A100").toUpper ++ " reservation"))),
      ("created_at", (request "created_at").getD (.text now)),
      ("status", .text "pending"),
      ("expires_at", .text expiresAt)]
  let item := request.carryTruthy "github_user" base "github_user"
  let item := request.carryTruthy "dockerfile" item "dockerfile_base64_data"
  let item := request.carryTruthy "dockerimage" item "dockerimage"
  let item := request.carryTruthy "disk_name" item "disk_name"
  let item := request.carry "no_persistent_disk" item "no_persistent_disk"
  let item := request.carry "recreate_env" item "recreate_env"
  request.carryTruthy "source_command" item "source_command"

/-- Write the initial record. Gives whether the reservation turned out to be terminated; any
other failure is logged. -/
def createInitialRecord (request : Attributes) : Lambda Bool :=
  if request.key = "" then return false
  else tryCatch (do
    let durationHours ← floatOf request "duration_hours" 8
    let expiresAt ← read (.timeAfter durationHours)
    let now ← clock
    putReservationRecord (initialRecord request durationHours now expiresAt)
    return false) fun
    | .reservationTerminated _ => return true
    | _ => return false

/-- The GPU types that can be asked for. -/
def validGpuTypes : List String :=
  ["t4", "l4", "a10g", "rtxpro6000", "t4-small", "a100", "h100", "h100-mig-1g", "h100-mig-2g",
    "h100-mig-3g", "h200", "b200", "b300", "b200-mig-1g", "b200-mig-2g", "b200-mig-3g", "cpu-arm",
    "cpu-x86", "cpu-spot"]

/-- The count of GPUs is one that the type allows. -/
def validatesGpuCount (request : Attributes) : Option String :=
  let gpuType := request.text "gpu_type"
  let gpuCount := request.number "gpu_count" 1
  if startsWith gpuType "cpu-" then
    if gpuCount = 0 then none
    else some ("CPU instances (gpu_type: " ++ gpuType ++ ") must have gpu_count=0")
  else if [1, 2, 4, 8, 16].contains gpuCount then none
  else some "Invalid GPU count. Must be one of: 1, 2, 4, 8, 16"

/-- `validate_reservation_request`: what is wrong with a request, if anything. -/
def validateReservationRequest (cfg : Settings) (request : Attributes) : Option String :=
  let gpuType := request.text "gpu_type"
  if (request "user_id").isNone then some "Missing required field: user_id"
  else if (request "gpu_count").isNone then some "Missing required field: gpu_count"
  else if !validGpuTypes.contains gpuType then some ("Invalid GPU type: " ++ gpuType)
  else if !request.truthy "spot" && cfg.isSpotType gpuType then
    some (gpuType.toUpper ++ " is only available as a spot instance in this environment.")
  else (validatesGpuCount request).or
    (if !startsWith gpuType "cpu-" &&
        cfg.maxReservationHours < request.number "duration_hours" cfg.defaultTimeoutHours then
      some "Duration exceeds maximum"
    else none)

/-- The message for a request that is queued, where `scale_up_spot_asg` is called for a spot type
without nodes. -/
def queueMessage (cfg : Settings) (gpuType : String) (requestedGpus availableGpus maxSingleNode : ℕ)
    (info : QueueInfo) : Lambda String :=
  if availableGpus = 0 then
    if cfg.isSpotType gpuType then do
      logged (attempt (.spotType gpuType))
      return "Spot instance requested for " ++ gpuType.toUpper
    else return "No " ++ gpuType.toUpper ++ " nodes available - position #" ++ info.shownPosition ++
      " in queue"
  else if requestedGpus ≤ availableGpus && maxSingleNode < requestedGpus then
    return "Need " ++ toString requestedGpus ++ " " ++ gpuType.toUpper ++
      " GPUs on one node, max available on single node is " ++ toString maxSingleNode ++
      " - position #" ++ info.shownPosition
  else return "Need " ++ toString requestedGpus ++ " " ++ gpuType.toUpper ++ " GPUs, only " ++
    toString availableGpus ++ " available - position #" ++ info.shownPosition

/-- Queue a request for which there is no room. -/
def queueRequest (cfg : Settings) (request : Attributes) (availableGpus maxSingleNode : ℕ) :
    Lambda Unit :=
  let reservationId := request.key
  let gpuType := request.text "gpu_type" "a100"
  whenever (reservationId ≠ "") do
    let info ← calculateQueuePositionAndWaitTime reservationId gpuType
    updateReservationWithQueueInfo reservationId (numberOrNull (info.position.map fun n => (n : ℚ)))
      (numberOrNull info.estimatedWaitMinutes) availableGpus
    let message ← queueMessage cfg gpuType (request.natural "gpu_count" 1) availableGpus
      maxSingleNode info
    updateReservationStatus reservationId "queued" message

/-- Allocate an admitted request. A snapshot that is not complete sends it to the queue. -/
def allocateAdmitted (cfg : Settings) (request : Attributes) (reservationId : String) :
    Lambda Unit :=
  tryCatch (allocateGpuResources cfg reservationId (allocationParameters request)
    (request.truthy "trace")) fun
    | .snapshotPending message => do
      let terminated ← reservationIsTerminated reservationId
      whenever (!terminated) (updateReservationStatus reservationId "queued" message)
    | e => throw e

/-- `create_reservation`, where a terminated reservation gives `none`. -/
def createUnlessTerminated (cfg : Settings) (request : Attributes) : Lambda (Option String) :=
  tryCatch (do
    let created ← createReservation cfg request
    return some created) fun
    | .reservationTerminated _ => return none
    | e => throw e

/-- The message for a request that is admitted. -/
def admissionMessage (gpuType : String) (availableGpus : ℕ) : String :=
  "Found " ++ toString availableGpus ++ " available " ++ gpuType.toUpper ++
    " GPUs - preparing resources"

/-- Start a request for which there is room. -/
def startRequest (cfg : Settings) (request : Attributes) (availableGpus : ℕ) : Lambda Unit := do
  whenever (request.key ≠ "") (updateReservationStatus request.key "preparing"
    (admissionMessage (request.text "gpu_type" "a100") availableGpus))
  let created ← createUnlessTerminated cfg request
  match created with
  | none => return ()
  | some reservationId => allocateAdmitted cfg request reservationId

/-- A spot type of CPU instances has no nodes. -/
def spotCpuWithoutNodes (cfg : Settings) (gpuType : String) (maxSingleNode : ℕ) : Lambda Bool :=
  if cfg.isSpotType gpuType && startsWith gpuType "cpu-" then do
    let availableGpus ← checkGpuAvailability gpuType
    return availableGpus = 0 && maxSingleNode = 0
  else return false

/-- Start a validated request if there is room for it, and queue it otherwise. -/
def startOrQueue (cfg : Settings) (request : Attributes) : Lambda Unit := do
  let gpuType := request.text "gpu_type" "a100"
  let requestedGpus := request.natural "gpu_count" 1
  let availableGpus ← checkGpuAvailability gpuType
  let maxSingleNode ← checkMaxGpusOnSingleNode gpuType
  let spotCpuNoNodes ← spotCpuWithoutNodes cfg gpuType maxSingleNode
  if requestedGpus ≤ availableGpus && requestedGpus ≤ maxSingleNode && !spotCpuNoNodes then
    startRequest cfg request availableGpus
  else queueRequest cfg request availableGpus maxSingleNode

/-- The part of `process_reservation_request` for a single node. -/
def processSingleNodeRequest (cfg : Settings) (request : Attributes) : Lambda Bool := do
  let terminated ← createInitialRecord request
  if terminated then
    return true
  else
    match validateReservationRequest cfg request with
    | some validationError => do
      updateReservationStatus request.key "failed" ("Validation error: " ++ validationError)
      return false
    | none => do
      startOrQueue cfg request
      return true

/-- `process_reservation_request`. Gives whether the message is done with. -/
def processReservationRequest (cfg : Settings) (request : Attributes) : Lambda Bool :=
  tryCatch (do
    let terminated ← if request.key ≠ "" then reservationIsTerminated request.key else pure false
    if terminated then
      return true
    else if request.truthy "is_multinode" then
      processMultinodeReservationRequest cfg request
    else processSingleNodeRequest cfg request) fun e => do
    whenever (request.key ≠ "") (updateReservationStatus request.key "failed"
      ("Processing error: " ++ e.message))
    throw e

/-- What `handler` does with a reservation message: the warm pool first, then the cold path. -/
def handleReservationMessage (cfg : Settings) (body : Attributes) : Lambda Bool := do
  let claimed ← if warmPoolEligible cfg body then tryClaimWarmPod cfg body else pure false
  if claimed then return true
  else processReservationRequest cfg body

end CiInfra.GpuDev

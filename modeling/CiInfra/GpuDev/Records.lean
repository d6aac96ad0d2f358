import CiInfra.GpuDev.Calls

/-!
# Writing reservation records

Everything that writes a reservation goes through a few functions: one puts a whole record
unless the stored one has been terminated, the others update attributes of the stored record
without a condition.
-/

namespace CiInfra.GpuDev

open Interaction Fallible

/-- What the environment of the Lambdas configures. -/
structure Settings where
  defaultTimeoutHours : ℚ
  maxReservationHours : ℚ
  primaryAvailabilityZone : String
  lambdaVersion : String
  /-- `WARM_POOL_TARGETS`. -/
  warmPoolTargets : List (String × ℕ)
  warmPodMaxAgeHours : ℚ
  /-- `SPOT_GPU_TYPES`; `none` stands for `all`. -/
  spotGpuTypes : Option (List String)
  ecrRepositoryUrl : String

/-- The usual configuration: default timeouts and warm-pool targets, no spot types. -/
def Settings.usual : Settings where
  defaultTimeoutHours := 8
  maxReservationHours := 24
  primaryAvailabilityZone := "us-east-2a"
  lambdaVersion := "0.3.9"
  warmPoolTargets := [("cpu-x86", 5), ("cpu-arm", 5), ("h100-mig-1g", 2), ("h100-mig-2g", 2),
    ("h100-mig-3g", 2), ("b200-mig-1g", 2), ("b200-mig-2g", 2), ("b200-mig-3g", 2), ("h100", 1),
    ("b200", 1)]
  warmPodMaxAgeHours := 12
  spotGpuTypes := some []
  ecrRepositoryUrl := ""

/-- `_is_spot_type`. -/
def Settings.isSpotType (cfg : Settings) (gpuType : String) : Bool :=
  cfg.spotGpuTypes.all (·.contains gpuType)

/-- An optional text as an attribute. -/
def textOrNull : Option String → Value
  | some s => .text s
  | none => .null

/-- `update_reservation_fields`. Whatever it raises is logged. -/
def updateReservationFields (reservationId : String) (fields : List (String × Value)) :
    Lambda Unit :=
  logged <| whenever (reservationId ≠ "" && !fields.isEmpty) do
    let timestamp ← epoch
    updateItem reservationId (.set (("last_updated", .number timestamp.floor) :: fields))

/-- `append_status_history`. -/
def appendStatusHistory (reservationId timestamp message : String) : Lambda Unit :=
  let newEntry := Value.dict [("timestamp", .text timestamp), ("message", .text message)]
  tryCatch (updateItem reservationId (.append "status_history" newEntry)) fun _ =>
    updateItem reservationId (.set [("status_history", .list [newEntry])])

/-- The fields that `update_reservation_status` writes. -/
def statusFields (status detailedStatus failureReason : String) : List (String × Value) :=
  ("status", .text status) ::
    (if detailedStatus ≠ "" then [("current_detailed_status", .text detailedStatus)] else []) ++
    if failureReason ≠ "" ∧ status = "failed" then [("failure_reason", .text failureReason)]
    else []

/-- `update_reservation_status`. Whatever it raises is logged. -/
def updateReservationStatus (reservationId status : String)
    (detailedStatus failureReason : String := "") : Lambda Unit :=
  logged do
    let currentTime ← clock
    updateReservationFields reservationId (statusFields status detailedStatus failureReason)
    whenever (detailedStatus ≠ "")
      (appendStatusHistory reservationId currentTime detailedStatus).logged

/-- `_reservation_is_terminated`. -/
def reservationIsTerminated (reservationId : String) : Lambda Bool := do
  let item ← getItem reservationId true
  return (item.map Attributes.isTerminated).getD false

/-- `_put_reservation_record`. -/
def putReservationRecord (item : Attributes) : Lambda Unit :=
  tryCatch (putItem item (some .notTerminated)) fun
    | .conditionalCheckFailed => throw (.reservationTerminated item.key)
    | failure => throw failure

/-- `float(...)` of an attribute that may be missing. -/
def floatOf (a : Attributes) (name : String) (default : ℚ) : Lambda ℚ :=
  match a name with
  | none => return default
  | some (.number q) => return q
  | some _ => throw (.error "could not convert to float")

/-- `request[name]`. -/
def required (request : Attributes) (name : String) : Lambda Value :=
  match request name with
  | some v => return v
  | none => throw (.error name)

/-- `str(...)` and `strip()` of a value; what is no text or number is written with a bracket. -/
def strippedText : Value → String
  | .null => "None"
  | .text s =>
    String.ofList
      ((s.toList.dropWhile Char.isWhitespace).reverse.dropWhile Char.isWhitespace).reverse
  | .number q => toString q
  | .flag b => if b then "True" else "False"
  | .list _ => "["
  | .dict _ => "\x7b"

/-- `_PYTORCH_REF_RE` matches. -/
def isPytorchRef (s : String) : Bool :=
  1 ≤ s.toList.length && s.toList.length ≤ 200 &&
    s.toList.all fun c => c.isAlphanum || ['.', '_', '/', '#', '-'].contains c

/-- `sanitize_pytorch_ref`. -/
def sanitizePytorchRef (raw : Option Value) : String :=
  match raw with
  | none => "master"
  | some v =>
    if !v.truthy then "master"
    else if ["none", "off", "false", "no", "skip"].contains (strippedText v).toLower then "none"
    else if isPytorchRef (strippedText v) then strippedText v
    else "master"

/-- `gpu-dev-<the first eight characters of the id>`. -/
def podNameOf (reservationId : String) : String :=
  "gpu-dev-" ++ String.ofList (reservationId.toList.take 8)

/-- The fields of a multinode reservation in `create_reservation`. -/
def multinodeFields (request : Attributes) : List (String × Value) :=
  if request.truthy "is_multinode" then
    [("is_multinode", .flag true),
      ("master_reservation_id", (request "master_reservation_id").getD (.text "")),
      ("node_index", (request "node_index").getD (.number 0)),
      ("total_nodes", (request "total_nodes").getD (.number 1))]
  else []

/-- The record that `create_reservation` writes. -/
def createdRecord (cfg : Settings) (request : Attributes) (reservationId : String)
    (userId : Value) (now expiresAt : String) (durationHours : ℚ) : Attributes :=
  let base := Attributes.ofList
    ([("reservation_id", .text reservationId),
      ("user_id", userId),
      ("gpu_count", (request "gpu_count").getD (.number 1)),
      ("gpu_type", (request "gpu_type").getD (.text "a100")),
      ("status", .text "preparing"),
      ("created_at", (request "created_at").getD (.text now)),
      ("expires_at", .text expiresAt),
      ("duration_hours", .number durationHours),
      ("pod_name", .text (podNameOf reservationId)),
      ("namespace", .text "gpu-dev")] ++ multinodeFields request)
  let optional := ["name", "instance_preference", "jupyter_enabled", "github_user"].foldl
    (fun item name => request.carry name item name) base
  let optional := request.carry "version" optional "cli_version"
  let optional := ["preserve_entrypoint", "disk_name", "no_persistent_disk", "recreate_env"].foldl
    (fun item name => request.carry name item name) optional
  optional.set "lambda_version" (.text cfg.lambdaVersion)

/-- `create_reservation`. Gives the id of the reservation. -/
def createReservation (cfg : Settings) (request : Attributes) : Lambda String := do
  let generated ← freshId
  let reservationId := request.text "reservation_id" generated
  let now ← clock
  let durationHours ← floatOf request "duration_hours" cfg.defaultTimeoutHours
  let expiresAt ← read (.timeAfter durationHours)
  let userId ← required request "user_id"
  putReservationRecord (createdRecord cfg request reservationId userId now expiresAt durationHours)
  return reservationId

/-- A place in the queue: the position and the wait in minutes, `none` where the code has `?`. -/
structure QueueInfo where
  position : Option ℕ
  estimatedWaitMinutes : Option ℚ

/-- The position as it is shown. -/
def QueueInfo.shownPosition (info : QueueInfo) : String :=
  match info.position with
  | some n => toString n
  | none => "?"

/-- An optional number as an attribute. -/
def numberOrNull : Option ℚ → Value
  | some q => .number q
  | none => .null

/-- Whether `created_at` of one record sorts before that of another. -/
def createdBefore (a b : Attributes) : Bool := a.text "created_at" ≤ b.text "created_at"

/-- The position of a reservation among the queued ones, from one on; one if it is not there. -/
def queuePositionOf (reservationId : String) (queued : List Attributes) : ℕ :=
  let sorted := queued.mergeSort createdBefore
  match sorted.findIdx? fun item => item.key = reservationId with
  | some i => i + 1
  | none => 1

/-- `calculate_queue_position_and_wait_time`. -/
def calculateQueuePositionAndWaitTime (reservationId gpuType : String) : Lambda QueueInfo :=
  orElseGive (do
    let _ ← find (.status "active")
    let queued ← find (.statusAndGpuType "queued" gpuType)
    let pending ← find (.statusAndGpuType "pending" gpuType)
    let position := queuePositionOf reservationId (queued ++ pending)
    let wait ← orElseGive (count (.waitEstimate reservationId)) (position * 15 : ℕ)
    return ⟨some position, some wait⟩) ⟨none, none⟩

/-- `update_reservation_with_queue_info`. -/
def updateReservationWithQueueInfo (reservationId : String) (position wait : Value)
    (availableGpus : ℕ) : Lambda Unit :=
  logged do
    let now ← clock
    updateReservationFields reservationId
      [("queue_position", position), ("estimated_wait_minutes", wait),
        ("available_gpus", .number availableGpus), ("last_queue_update", .text now)]

end CiInfra.GpuDev

import CiInfra.GpuDev.Endings
import CiInfra.GpuDev.Requests

/-!
# Messages about what exists

Beside requests for reservations the queue carries messages that manage reservations and disks.
Which handler gets a message depends on its type and on its action; whatever is not recognized is
taken for a request for a reservation. A handler drops a message without the fields it insists on.
-/

namespace CiInfra.GpuDev

open Interaction Fallible

/-- `all([...])` of the fields of a message. -/
def Attributes.carriesAll (message : Attributes) (fields : List String) : Bool :=
  fields.all message.truthy

/-- `write_operation_result`. -/
def writeOperationResult (message : Attributes) (status : String) (error : String := "") :
    Lambda Unit :=
  whenever (message.truthy "operation_id")
    (logged (attempt (.operationResult (message.text "operation_id") status error)))

/-! ### What reservations are asked to do -/

/-- The fields that `process_jupyter_action` insists on. -/
def jupyterFields : List String := ["action", "reservation_id", "user_id"]

/-- The fields that `process_add_user_action` insists on. -/
def addUserFields : List String := ["action", "reservation_id", "user_id", "github_username"]

/-- The fields that `process_extend_reservation_action` insists on. -/
def extensionRequestFields : List String := ["reservation_id", "extension_hours"]

/-- A field of a message that is looked up in the table; what is no text cannot be. -/
def lookUpField (message : Attributes) (name : String) : Lambda String :=
  match message name with
  | some (.text s) => return s
  | _ => throw (.error "The provided key element does not match the schema")

/-- What the handlers for Jupyter and for further users have in common: they act on the pod of an
active reservation of the user. -/
def onActiveReservation (message : Attributes) (fields : List String)
    (act : (podName reservationId : String) → Lambda Bool) : Lambda Bool :=
  if !message.carriesAll fields then return true
  else orElseGive (do
    let reservationId ← lookUpField message "reservation_id"
    let user ← lookUpField message "user_id"
    let found ← lookUpReservation reservationId (some user)
    match found with
    | .error done => return done
    | .ok reservation =>
      if !reservation.isOneOf "user_id" [user] then return true
      else if !reservation.isOneOf "status" ["active"] then return true
      else if !reservation.truthy "pod_name" then return true
      else act (reservation.text "pod_name") reservation.key) false

/-- The port of the Jupyter service of a pod, which is created if there is none. -/
def jupyterPort (podName : String) : Lambda ℚ :=
  tryCatch (count (.jupyterService podName)) fun
    | .notFound => do
      let port ← count .nodePort
      attempt (.jupyterService podName)
      return port
    | e => throw e

/-- `enable_jupyter_in_pod`. -/
def enableJupyterInPod (podName reservationId : String) : Lambda Bool :=
  orElseGive (do
    let running ← orElseGive (ask (.jupyter podName)) false
    if running then do
      updateReservationFields reservationId [("jupyter_enabled", .flag true)]
      return true
    else do
      let started ← ask (.exec podName)
      if started then do
        tryCatch (do
          let port ← jupyterPort podName
          let nodeIp ← read (.nodeAddress podName)
          let token ← read (.jupyter podName)
          let item ← getItem reservationId
          let domain ← read (.dnsName ((item.map fun item => item.text "domain_name").getD ""))
          let host := if domain ≠ "" then domain else nodeIp
          let url := "http://" ++ host ++ ":" ++ toString port
          updateReservationFields reservationId
            [("jupyter_enabled", .flag true), ("jupyter_port", .number port),
              ("jupyter_url", .text (if token ≠ "" then url ++ "?token=" ++ token else url)),
              ("jupyter_token", .text token)]) fun _ =>
          updateReservationFields reservationId [("jupyter_enabled", .flag true)]
        return true
      else return false) false

/-- `disable_jupyter_in_pod`. -/
def disableJupyterInPod (podName reservationId : String) : Lambda Bool :=
  orElseGive (do
    let stopped ← ask (.exec podName)
    if stopped then do
      logged (attempt (.jupyterService podName))
      let timestamp ← epoch
      updateItem reservationId (.set
        [("jupyter_enabled", .flag false), ("last_updated", .number timestamp.floor)])
      return true
    else return false) false

/-- `process_jupyter_action`. Gives whether the message is done with, as all handlers do. -/
def processJupyterAction (message : Attributes) : Lambda Bool :=
  onActiveReservation message jupyterFields fun podName reservationId =>
    if message.isOneOf "action" ["enable_jupyter"] then enableJupyterInPod podName reservationId
    else if message.isOneOf "action" ["disable_jupyter"] then
      disableJupyterInPod podName reservationId
    else return false

/-- The value is this text. -/
def Value.isText (s : String) : Value → Bool
  | .text t => t = s
  | _ => false

/-- The secondary users of a reservation. -/
def Attributes.secondaryUsers (item : Attributes) : List Value :=
  match item "secondary_users" with
  | some (.list users) => users
  | _ => []

/-- `add_user_to_pod`. -/
def addUserToPod (podName reservationId githubUsername : String) : Lambda Bool :=
  orElseGive (do
    let keys ← getGithubPublicKey githubUsername
    if keys = "" then
      return false
    else do
      let added ← ask (.exec podName)
      if added then do
        logged do
          let item ← getItem reservationId
          let users := (item.map Attributes.secondaryUsers).getD []
          whenever (!users.any (Value.isText githubUsername)) (updateReservationFields reservationId
            [("secondary_users", .list (users ++ [.text githubUsername]))])
        return true
      else return false) false

/-- `process_add_user_action`. -/
def processAddUserAction (message : Attributes) : Lambda Bool :=
  let githubUsername := message.text "github_username"
  onActiveReservation message addUserFields fun podName reservationId => do
    let added ← addUserToPod podName reservationId githubUsername
    updateReservationFields reservationId [("add_user_error", .text (if added then "" else
      "Failed to add user " ++ githubUsername ++ " - check that the GitHub user has public SSH " ++
        "keys at github.com/" ++ githubUsername ++ ".keys"))]
    return true

/-- Refuse an extension. -/
def refuseExtension (reservationId reason : String) : Lambda Bool := do
  updateReservationFields reservationId [("extension_error", .text reason)]
  return true

/-- The duration of an extended reservation, if its record has one. -/
def extendedDuration (reservation : Attributes) (hours : ℚ) : Lambda (List (String × Value)) :=
  match reservation "duration_hours" with
  | none => return []
  | some _ => do
    let duration ← floatOf reservation "duration_hours" 0
    return [("duration_hours", .number (duration + hours))]

/-- Write the new expiry of a reservation, then tell the mapping of its domain, its pod and its
history. -/
def writeExtension (reservation : Attributes) (newExpiresAt : String) (hours : ℚ) :
    Lambda Bool :=
  let reservationId := reservation.key
  tryCatch (do
    let timestamp ← epoch
    let duration ← extendedDuration reservation hours
    updateItem reservationId (.set ([("expires_at", .text newExpiresAt),
      ("last_updated", .number timestamp.floor)] ++ duration))
    whenever (reservation.truthy "domain_name")
      (logged (attempt (.domainMapping (reservation.text "domain_name"))))
    whenever (reservation.isOneOf "status" ["active"] && reservation.truthy "pod_name")
      (logged (attempt (.exec (reservation.text "pod_name"))))
    logged do
      let now ← clock
      appendStatusHistory reservationId now ("Extended by " ++ toString hours ++ " hours")
    return true) fun e => do
    updateReservationFields reservationId
      [("extension_error", .text ("Database error during extension: " ++ e.message))]
    return false

/-- Extend a reservation that has been found. -/
def extendReservation (reservation : Attributes) (extensionHours : Value) : Lambda Bool :=
  let reservationId := reservation.key
  if !reservation.isOneOf "status" ["active", "preparing"] then
    refuseExtension reservationId "Cannot extend reservation in this status"
  else if !reservation.truthy "expires_at" then
    refuseExtension reservationId ("No expiration time found for reservation " ++ reservationId)
  else do
    let expiresAt := (reservation "expires_at").getD .null
    let launchedAt := (reservation "launched_at").getD .null
    let calculated ← outcome (do
      let newExpiresAt ← read (.extendedExpiry expiresAt extensionHours)
      let hours ← floatOf (.ofList [("hours", extensionHours)]) "hours" 0
      let beyond ← if launchedAt.truthy then ask (.beyondMaximum launchedAt newExpiresAt)
        else pure false
      return (newExpiresAt, hours, beyond))
    match calculated with
    | .error e =>
      refuseExtension reservationId ("Error calculating new expiration time: " ++ e.message)
    | .ok (newExpiresAt, hours, beyond) =>
      if beyond then
        refuseExtension reservationId "Cannot extend reservation beyond 48 hours total"
      else writeExtension reservation newExpiresAt hours

/-- The user of a message, if it names one. -/
def lookUpUser (message : Attributes) : Lambda (Option String) :=
  if message.truthy "user_id" then do
    let user ← lookUpField message "user_id"
    return some user
  else return none

/-- `process_extend_reservation_action`. -/
def processExtendReservationAction (message : Attributes) : Lambda Bool :=
  if !message.carriesAll extensionRequestFields then return true
  else orElseGive (do
    let reservationId ← lookUpField message "reservation_id"
    let user ← lookUpUser message
    let found ← lookUpReservation reservationId user
    match found with
    | .error done => return done
    | .ok reservation =>
      extendReservation reservation ((message "extension_hours").getD .null)) false

/-! ### What disks are asked to do -/

/-- `process_clear_disk_lock_action`. -/
def processClearDiskLockAction (message : Attributes) : Lambda Bool :=
  if !message.carriesAll ["user_id", "disk_name"] then return true
  else do
    let user ← lookUpField message "user_id"
    let disk ← lookUpField message "disk_name"
    let found ← find (.ofUser user "")
    if found.any fun item => item.isOneOf "disk_name" [disk] && item.isOneOf "status" liveStatuses
    then return true
    else do
      markDiskInUse user disk
      logged do
        let volumes ← describeVolumes user disk
        (volumes.filter Volume.isInUse).forM fun _ => attempt (.detachment user disk)
      return true

/-- The fields that `process_delete_disk_action` insists on. -/
def deleteDiskFields : List String := ["action", "user_id", "disk_name", "delete_date"]

/-- Tag the snapshots of a deleted disk that are not tagged yet. -/
def tagSnapshots (user disk deleteDate markedDeletedAt : String) : Lambda Unit := do
  let snapshots ← count (.diskSnapshots user disk)
  (List.range snapshots.floor.toNat).forM fun i => do
    let tagged ← ask (.snapshotTags user disk i)
    whenever (!tagged)
      (logged (attempt (.snapshotTagging user disk i deleteDate markedDeletedAt)))

/-- `process_delete_disk_action`. -/
def processDeleteDiskAction (message : Attributes) : Lambda Bool :=
  if !message.carriesAll deleteDiskFields then return true
  else orElseGive (do
    let user := message.text "user_id"
    let disk := message.text "disk_name"
    let deleteDate := message.text "delete_date"
    let now ← epoch
    let markedDeletedAt := message.text "requested_at" (toString now.floor)
    attempt (.diskDeletion user disk deleteDate markedDeletedAt)
    logged (tagSnapshots user disk deleteDate markedDeletedAt)
    return true) false

/-- `process_create_disk_action`. A disk that exists is left as it is. -/
def processCreateDiskAction (message : Attributes) : Lambda Bool :=
  if !message.carriesAll ["action", "user_id", "disk_name"] then return true
  else tryCatch (do
    attempt (.diskEntry (message.text "user_id") (message.text "disk_name"))
    writeOperationResult message "completed"
    return true) fun e => do
    writeOperationResult message "failed" e.message
    return false

/-- The fields that `process_clone_disk_action` insists on. -/
def cloneDiskFields : List String := ["user_id", "source_disk", "target_disk"]

/-- The snapshot that a clone refers to: the latest one of the source, or else one of its live
volume; `none` if there is neither. -/
def cloneSourceSnapshot (user source : String) : Lambda (Option String) := do
  let latest ← read (.latestSnapshot user source)
  if latest ≠ "" then return some latest
  else do
    let volumeId ← read (.volumeOf user source)
    if volumeId = "" then return none
    else do
      let snapshotId ← read (.liveSnapshot volumeId user source)
      attempt (.snapshotCompleted snapshotId)
      return some snapshotId

/-- `process_clone_disk_action`. A target that exists is left as it is. -/
def processCloneDiskAction (message : Attributes) : Lambda Bool :=
  if !message.carriesAll cloneDiskFields then return true
  else
    let user := message.text "user_id"
    let source := message.text "source_disk"
    tryCatch (do
      let snapshot ← cloneSourceSnapshot user source
      match snapshot with
      | none => do
        writeOperationResult message "failed"
          ("No snapshots or volumes found for source disk '" ++ source ++ "'.")
        return true
      | some snapshotId => do
        let metadata ← orElseGive (read (.diskMetadata user source)) ""
        attempt (.clonedEntry user (message.text "target_disk") source snapshotId metadata)
        writeOperationResult message "completed"
        return true) fun e => do
      writeOperationResult message "failed" e.message
      return false

/-! ### Dispatch -/

/-- `parse_version`. -/
def parseVersion (version : String) : List ℕ :=
  ((version.splitOn ".").mapM String.toNat?).getD [0, 0, 0]

/-- `validate_cli_version`: what is wrong with the version of a message, if anything. -/
def validateCliVersion (minVersion : String) (message : Attributes) : Option String :=
  let version := message.text "version"
  if version = "" then some "Your gpu-dev CLI is outdated and no longer supported."
  else if parseVersion version < parseVersion minVersion then
    some ("Your gpu-dev CLI version " ++ version ++ " is outdated.")
  else none

/-- What a message is taken for. -/
inductive Action
  | cancellation
  | jupyter
  | addUser
  | extendReservation
  | clearDiskLock
  | deleteDisk
  | createDisk
  | cloneDisk
  | multinodeIndividual
  | reservation
  deriving DecidableEq

/-- The message has no type, or that of a request, and no action. -/
def isPlainRequest (message : Attributes) : Bool :=
  (message "type").all (Value.isText "reservation") && !message.truthy "action"

/-- What `handler` takes a message for. -/
def dispatch (message : Attributes) : Action :=
  if message.isOneOf "type" ["cancellation"] then .cancellation
  else if message.isOneOf "action" ["enable_jupyter", "disable_jupyter"] then .jupyter
  else if message.isOneOf "action" ["add_user"] then .addUser
  else if message.isOneOf "action" ["extend_reservation"] then .extendReservation
  else if message.isOneOf "action" ["clear_disk_lock"] then .clearDiskLock
  else if message.isOneOf "action" ["delete_disk"] then .deleteDisk
  else if message.isOneOf "action" ["create_disk"] then .createDisk
  else if message.isOneOf "action" ["clone_disk"] then .cloneDisk
  else if message.isOneOf "action" ["process_multinode_individual"] then .multinodeIndividual
  else .reservation

/-- The peer pods in the message for one node of a group. -/
def Attributes.peerPods (message : Attributes) : List String :=
  match message "multinode_peer_pods" with
  | some (.list pods) => pods.filterMap fun
    | .text pod => some pod
    | _ => none
  | _ => []

/-- The handler of a message. -/
def Action.handle (cfg : Settings) (message : Attributes) : Action → Lambda Bool
  | cancellation => processCancellationRequest message
  | jupyter => processJupyterAction message
  | addUser => processAddUserAction message
  | extendReservation => processExtendReservationAction message
  | clearDiskLock => processClearDiskLockAction message
  | deleteDisk => processDeleteDiskAction message
  | createDisk => processCreateDiskAction message
  | cloneDisk => processCloneDiskAction message
  | multinodeIndividual => processMultinodeIndividualNode cfg message.key
      (message.natural "node_index" 0) (message.natural "total_nodes" 1) message.peerPods
  | reservation =>
    if isPlainRequest message then handleReservationMessage cfg message
    else processReservationRequest cfg message

/-- What `handler` does with a message of the queue. Gives whether the message is done with; what
is raised leaves it in the queue. -/
def handleMessage (cfg : Settings) (minVersion : String) (message : Attributes) : Lambda Bool :=
  orElseGive (
    match if isPlainRequest message then validateCliVersion minVersion message else none with
    | some versionError => do
      writeOperationResult message "failed" versionError
      whenever (message.truthy "reservation_id") (updateReservationStatus message.key "failed"
        "CLI version validation failed" versionError)
      return true
    | none => (dispatch message).handle cfg message) false

theorem Attributes.truthy_of_isOneOf {a : Attributes} {name : String} {texts : List String}
    (h : a.isOneOf name texts = true) (htexts : "" ∉ texts) : a.truthy name = true := by
  unfold isOneOf at h
  split at h
  · rename_i s hs
    have hne : s ≠ "" := by
      rintro rfl
      exact htexts (by simpa using h)
    simp [truthy, hs, Value.truthy, hne]
  · cases h

/-- A plain request is taken for a request. -/
theorem dispatch_of_isPlainRequest {message : Attributes} (h : isPlainRequest message = true) :
    dispatch message = .reservation := by
  simp only [isPlainRequest, Bool.and_eq_true, Bool.not_eq_true'] at h
  obtain ⟨htype, haction⟩ := h
  have haction : ∀ texts, "" ∉ texts → message.isOneOf "action" texts = false := by
    intro texts htexts
    rw [← Bool.not_eq_true]
    intro hone
    rw [Attributes.truthy_of_isOneOf hone htexts] at haction
    cases haction
  have htype : message.isOneOf "type" ["cancellation"] = false := by
    unfold Attributes.isOneOf
    split
    · rename_i s hs
      rw [hs] at htype
      have hs : s = "reservation" := by simpa [Value.isText] using htype
      rw [hs]
      rfl
    · rfl
  simp [dispatch, htype, haction]

/-- The version of a message that is no plain request does not matter. -/
theorem handleMessage_of_not_plain {message : Attributes} (h : isPlainRequest message = false)
    (cfg : Settings) (minVersion : String) :
    handleMessage cfg minVersion message =
      orElseGive ((dispatch message).handle cfg message) false := by
  rw [handleMessage, h]
  rfl

end CiInfra.GpuDev

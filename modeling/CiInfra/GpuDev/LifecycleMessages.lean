import CiInfra.GpuDev.ExpiryHandler

/-!
# Messages that meet the expiry handler

While a run of the expiry handler goes on, reservations become active, are extended and are
cancelled, and locks of disks are cleared on request. All of these read a record or an index, and
write what follows from it without a condition.
-/

namespace CiInfra.GpuDev.Lifecycle

open Interaction Fallible

/-- `update_reservation_fields`, whose failures are logged. -/
def updateReservationFields (reservationId : String) (change : Change) : Lambda Unit :=
  logged (update reservationId change)

/-- The first step of `find_reservation_by_prefix`: a full id is looked up. The check of the user is
inside the `try`, so an item of another user counts as none. -/
def findExactly (reservationId user : String) : Lambda (Option Record) :=
  if isFullId reservationId then orElseGive (do
    let item ← getItem reservationId
    return item.filter fun item => user = "" || item.userId = some user) none
  else return none

/-- `find_reservation_by_prefix`. -/
def findReservationByPrefix (reservationId user : String) : Lambda Record := do
  let exact ← findExactly reservationId user
  match exact with
  | some item => return item
  | none => do
    let matching ← startingWith reservationId (if user ≠ "" then some user else none)
    match matching with
    | [item] => return item
    | [] => throw (.valueError ("Reservation " ++ reservationId ++ " not found"))
    | _ => throw (.valueError ("Ambiguous reservation ID " ++ reservationId))

/-- A message about a reservation that is not found is done with; any other failure leaves it in
the queue. -/
def lookUpReservation (reservationId user : String) : Lambda (Except Bool Record) :=
  tryCatch (do
    let reservation ← findReservationByPrefix reservationId user
    return .ok reservation) fun
    | .valueError _ => return .error true
    | _ => return .error false

/-! ### Extensions -/

/-- What a message may carry as `extension_hours`. -/
inductive Hours
  | number (q : ℚ)
  | text (s : String)
  | other

/-- Python's truth value. -/
def Hours.truthy : Hours → Bool
  | number q => q ≠ 0
  | text s => s ≠ ""
  | other => true

/-- `float(extension_hours)`. -/
def Hours.float? : Hours → Option ℚ
  | number q => some q
  | text s => PythonNumber.float? s.toList
  | other => none

/-- A message that asks for an extension. -/
structure ExtendMessage where
  messageId : String
  reservationId : String
  userId : String
  hours : Option Hours

/-- `t + timedelta(hours=hours)`, which must be in the years 1 to 9999. -/
def plusHours? (t hours : ℚ) : Option ℚ :=
  let sum := t + hours * 3600
  if -62135596800 ≤ sum ∧ sum < 253402300800 then some sum else none

/-- `MAX_TOTAL_HOURS`. -/
def maxTotalHours : ℚ := 48

/-- The new expiry of a reservation, or why there is none. -/
def newExpiry (expiresAt : Stamp) (launchedAt : Option Stamp) (hours : Hours) :
    Except String (ℚ × ℚ) :=
  match expiresAt.time?, hours.float? with
  | some current, some hours =>
    match plusHours? current hours, launchedAt with
    | none, _ => .error "Error calculating new expiration time: date value out of range"
    | some new, none => .ok (new, hours)
    | some new, some launched =>
      match launched.time? with
      | none => .error "Error calculating new expiration time: Invalid isoformat string"
      | some launched =>
        if (new - launched) / 3600 > maxTotalHours then
          .error "Cannot extend reservation beyond 48 hours total."
        else .ok (new, hours)
  | none, _ => .error "Error calculating new expiration time: Invalid isoformat string"
  | _, none => .error "Error calculating new expiration time: could not convert string to float"

/-- Refuse an extension. -/
def refuseExtension (reservationId reason : String) : Lambda Bool := do
  updateReservationFields reservationId (.refused reason)
  return true

/-- Write an extension, then tell the mapping of the domain, the pod and the history. -/
def writeExtension (reservation : Record) (newExpiresAt hours : ℚ) : Lambda Bool :=
  tryCatch (do
    update reservation.id (.extended newExpiresAt (reservation.durationHours.map (· + hours)))
    whenever (reservation.domainName ≠ "")
      (logged (errand (.domainMapping reservation.domainName)))
    whenever (reservation.status = "active" && reservation.podName ≠ "")
      (logged (errand (.clearWarnings reservation.podName)))
    logged (errand (.statusHistory reservation.id))
    return true) fun _ => do
    updateReservationFields reservation.id (.refused "Database error during extension")
    return false

/-- Extend a reservation that has been found. -/
def extendReservation (reservation : Record) (hours : Hours) : Lambda Bool :=
  if !(["active", "preparing"].contains reservation.status) then
    refuseExtension reservation.id ("Cannot extend reservation in status " ++ reservation.status)
  else
    match reservation.expiresAt with
    | none => refuseExtension reservation.id
        ("No expiration time found for reservation " ++ reservation.id)
    | some expiresAt =>
      match newExpiry expiresAt reservation.launchedAt hours with
      | .error reason => refuseExtension reservation.id reason
      | .ok (new, hours) => writeExtension reservation new hours

/-- `process_extend_reservation_action`. Gives whether the message is done with. -/
def processExtendReservationAction (message : ExtendMessage) : Lambda Bool :=
  match message.hours with
  | none => return true
  | some hours =>
    if message.reservationId = "" || !hours.truthy then return true
    else orElseGive (do
      let found ← lookUpReservation message.reservationId message.userId
      match found with
      | .error done => return done
      | .ok reservation => extendReservation reservation hours) false

/-! ### Activation -/

/-- `update_reservation_connection_info`, as far as it concerns the times. -/
def updateReservationConnectionInfo (reservationId podName : String) : Lambda Unit := do
  let item ← getItem reservationId
  match item with
  | none => throw (.valueError ("Reservation " ++ reservationId ++ " not found"))
  | some reservation => do
    let now ← utcnow
    match plusHours? now (reservation.durationHours.getD 2) with
    | none => throw (.error "date value out of range")
    | some expiresAt => do
      errand (.connection podName)
      updateReservationFields reservationId (.activated podName expiresAt now)
      logged (errand (.domainMapping podName))

/-! ### Cancellations and locks -/

/-- `cleanup_pod_resources`. -/
def cleanupPodResources (podName : String) : Lambda Unit := do
  errand .kubernetes
  tryCatch (errand (.service podName)) fun
    | .notFound => return ()
    | .api _ => return ()
    | e => throw e
  deletePodOrForce podName

/-- `mark_disk_in_use(..., False)`, whose failures are logged. -/
def markDiskInUseFalse (user disk : String) (onBehalfOf : Option String) : Lambda Unit :=
  logged (freeDisk user disk onBehalfOf)

/-- The snapshot that a cancellation asks for, without waiting for it. -/
def cancellationSnapshot (reservation : Record) : Lambda Unit :=
  whenever (reservation.ebsVolumeId ≠ "") do
    whenever (reservation.diskName ≠ "")
      (logged (errand (.captureContents reservation.podName reservation.diskName)))
    let _ ← safeCreateSnapshot reservation.ebsVolumeId reservation.user reservation.diskName
    return ()

/-- Take down the pod of an active reservation that is cancelled, and free its disk. -/
def cancelActive (reservation : Record) : Lambda Unit := do
  logged do
    cancellationSnapshot reservation
    cleanupPodResources reservation.podName
    whenever (reservation.ebsVolumeId ≠ "") (logged (errand (.detach reservation.ebsVolumeId)))
  whenever (reservation.diskName ≠ "")
    (markDiskInUseFalse reservation.user reservation.diskName (some reservation.id))

/-- Cancel a reservation that has been found. -/
def cancelReservation (reservation : Record) (user : String) : Lambda Unit := do
  logged (errand (.stopMonitoring reservation.id))
  let now ← utcnow
  updateReservationFields reservation.id (.cancelled now)
  whenever (reservation.status = "active" && reservation.podName ≠ "" && reservation.user ≠ "")
    (cancelActive reservation)
  whenever (reservation.domainName ≠ "")
    (logged (errand (.domainMapping reservation.domainName)))
  whenever (reservation.diskName ≠ "" && reservation.status ≠ "active")
    (markDiskInUseFalse user reservation.diskName (some reservation.id))

/-- `process_cancellation_request`. Gives whether the message is done with. -/
def processCancellationRequest (reservationId user : String) : Lambda Bool :=
  if reservationId = "" || user = "" then return true
  else orElseGive (do
    let found ← lookUpReservation reservationId user
    match found with
    | .error done => return done
    | .ok reservation =>
      if ["active", "queued", "pending", "preparing"].contains reservation.status then do
        cancelReservation reservation user
        return true
      else return true) false

/-- `process_clear_disk_lock_action`. Gives whether the message is done with. -/
def processClearDiskLockAction (user disk : String) : Lambda Bool :=
  if user = "" || disk = "" then return true
  else do
    let users ← usersOf user disk
    match users with
    | _ :: _ => return true
    | [] => do
      markDiskInUseFalse user disk none
      logged (errand (.detachAll user disk))
      return true

/-! ### What runs -/

/-- One run of the expiry Lambda, or of the handler of a message. -/
inductive Job
  | expiry
  | extend (message : ExtendMessage)
  | activate (reservationId podName : String)
  | cancel (reservationId user : String)
  | clearDiskLock (user disk : String)

/-- The program of a run. -/
def Job.program (cfg : Settings) : Job → Program Op Op.Res Unit
  | expiry => (expiryHandler cfg).toEnd
  | extend message => (processExtendReservationAction message).toEnd
  | activate reservationId podName => (updateReservationConnectionInfo reservationId podName).toEnd
  | cancel reservationId user => (processCancellationRequest reservationId user).toEnd
  | clearDiskLock user disk => (processClearDiskLockAction user disk).toEnd

end CiInfra.GpuDev.Lifecycle

import CiInfra.GpuDev.Disks

/-!
# How reservations end

A cancellation marks the record and then takes the pod down; the expiry handler does the same
for reservations whose time is over, whose pod is gone or dead, that are stuck in preparation or
that have been queued for two days. All of them write a terminal status without a condition, and
act on the record they have read from an index.
-/

namespace CiInfra.GpuDev

open Interaction Fallible

/-- `len(reservation_id) == 36 and reservation_id.count('-') == 4`. -/
def isFullId (reservationId : String) : Bool :=
  reservationId.toList.length == 36 && reservationId.toList.count '-' == 4

/-- The search by prefix: among the reservations of the user, or among all if no user is given. -/
def prefixSearch (reservationId : String) : Option String → Selection
  | some user => .ofUser user reservationId
  | none => .startingWith reservationId

/-- `find_reservation_by_prefix`. The check of the user is inside the `try` around the lookup, so
a mismatch falls through to the search by prefix. -/
def findReservationByPrefix (reservationId : String) (user : Option String) :
    Lambda Attributes := do
  let exact ← if isFullId reservationId then orElseGive (do
      let item ← getItem reservationId
      return item.filter fun item => user.all fun user => item.isOneOf "user_id" [user]) none
    else pure none
  match exact with
  | some item => return item
  | none => do
    let matching ← find (prefixSearch reservationId user)
    match matching with
    | [item] => return item
    | [] => throw (.valueError ("Reservation " ++ reservationId ++ " not found"))
    | _ => throw (.valueError ("Ambiguous reservation ID " ++ reservationId))

/-- How the handlers of messages look a reservation up: a message about one that is not found is
done with, any other failure leaves the message in the queue. -/
def lookUpReservation (reservationId : String) (user : Option String) :
    Lambda (Except Bool Attributes) :=
  tryCatch (do
    let reservation ← findReservationByPrefix reservationId user
    return .ok reservation) fun
    | .valueError _ => return .error true
    | _ => return .error false

/-- `cleanup_pod_resources` and `cleanup_pod`: a snapshot, then the services, then the pod. -/
def cleanupPod (podName : String) (reservation : Attributes) : Lambda Unit :=
  logged do
    whenever (reservation.truthy "ebs_volume_id")
      (logged (attempt (.snapshot (reservation.text "ebs_volume_id"))))
    logged (attempt (.service podName))
    tryCatch (deletePod podName) fun _ => deletePod podName

/-- Clear the `in_use` flag of the disk of a reservation. -/
def freeDisk (reservation : Attributes) : Lambda Unit :=
  whenever (reservation.truthy "disk_name") (logged
    (attempt (.diskTable (reservation.text "user_id") (reservation.text "disk_name"))))

/-- The fields that a cancellation writes. -/
def cancellationFields (now : String) : List (String × Value) :=
  [("status", .text "cancelled"), ("cancelled_at", .text now), ("reservation_ended", .text now)]

/-- Cancel a reservation that has been found. -/
def cancelReservation (reservation : Attributes) : Lambda Unit := do
  let reservationId := reservation.key
  logged (attempt (.stopEvent reservationId))
  let now ← clock
  updateReservationFields reservationId (cancellationFields now)
  whenever (reservation.isOneOf "status" ["active"] && reservation.truthy "pod_name" &&
    reservation.truthy "user_id") (cleanupPod (reservation.text "pod_name") reservation)
  whenever (reservation.truthy "domain_name")
    (logged (attempt (.domainMapping (reservation.text "domain_name"))))
  freeDisk reservation

/-- `process_cancellation_request`. Gives whether the message is done with. -/
def processCancellationRequest (message : Attributes) : Lambda Bool :=
  let reservationId := message.text "reservation_id"
  let user := message.text "user_id"
  if reservationId = "" || user = "" then return true
  else orElseGive (do
    let found ← lookUpReservation reservationId (some user)
    match found with
    | .error done => return done
    | .ok reservation =>
      if reservation.isOneOf "status" liveStatuses then do
        cancelReservation reservation
        return true
      else return true) false

/-! ### The expiry handler -/

/-- The fields with which the expiry handler ends a reservation. -/
def endingFields (status mark now reason : String) : List (String × Value) :=
  [("status", .text status), (mark, .text now), ("reservation_ended", .text now)] ++
    if reason ≠ "" then [("failure_reason", .text reason)] else []

/-- End a reservation with a status, then do the rest, whose failures are logged. -/
def endReservation (reservation : Attributes) (status mark reason : String)
    (cleanUp : Lambda Unit) : Lambda Unit := do
  let now ← clock
  updateItem reservation.key (.set (endingFields status mark now reason))
  logged cleanUp

/-- Take down the pod that a record names. -/
def cleanupNamedPod (reservation : Attributes) : Lambda Unit :=
  whenever (reservation.truthy "pod_name") (cleanupPod (reservation.text "pod_name") reservation)

/-- `expire_reservation`. -/
def expireReservation (reservation : Attributes) : Lambda Unit :=
  endReservation reservation "expired" "expired_at" "" (cleanupNamedPod reservation)

/-- `expire_reservation_due_to_missing_pod`. -/
def expireReservationDueToMissingPod (reservation : Attributes) : Lambda Unit :=
  logged (endReservation reservation "expired" "expired_at" "Pod no longer exists"
    (freeDisk reservation))

/-- `expire_reservation_due_to_dead_pod`. -/
def expireReservationDueToDeadPod (reservation : Attributes) (reason : String) : Lambda Unit :=
  endReservation reservation "failed" "failed_at" reason (cleanupNamedPod reservation)

/-- `expire_stuck_preparing_reservation`. -/
def expireStuckPreparingReservation (reservation : Attributes) : Lambda Unit :=
  logged (endReservation reservation "failed" "failed_at"
    ("Reservation stuck in preparing status for more than 1 hour - " ++
      "likely pod creation failed") (cleanupNamedPod reservation))

/-- `cancel_stale_reservation`. -/
def cancelStaleReservation (reservation : Attributes) : Lambda Unit :=
  logged (endReservation reservation "cancelled" "cancelled_at"
    "Stale reservation - exceeded 5 minute queue time" (freeDisk reservation))

/-- `warn_user_expiring` and `handle_oom_event`, as far as they touch the record. -/
def noteWarning (reservation : Attributes) (name : String) : Lambda Unit :=
  logged do
    let now ← clock
    updateItem reservation.key (.set [(name, .text now), ("warnings_sent", .dict [])])

/-- The handling of one preparing reservation. -/
def expirePreparing (reservation : Attributes) : Lambda Unit :=
  logged do
    let stuck ← ask (.isOlderThan ((reservation "created_at").getD .null) 3600)
    whenever stuck (expireStuckPreparingReservation reservation)

/-- An active reservation whose time is not over: is its pod still there and alive? -/
def checkActivePod (reservation : Attributes) : Lambda Unit := do
  let podName := reservation.text "pod_name"
  let missing ← ask (.podAge podName)
  if missing then expireReservationDueToMissingPod reservation
  else do
    let dead ← ask (.podDead podName)
    if dead then do
      let reason ← read (.podDead podName)
      logged (expireReservationDueToDeadPod reservation reason)
    else do
      let outOfMemory ← orElseGive (ask (.outOfMemory podName)) false
      whenever outOfMemory (noteWarning reservation "last_oom_at")

/-- The handling of one active reservation. -/
def expireActive (reservation : Attributes) : Lambda Unit :=
  logged do
    let isOver ← ask (.expiry reservation.key)
    if isOver then expireReservation reservation
    else do
      whenever (reservation.truthy "pod_name") (checkActivePod reservation)
      let warn ← orElseGive (ask (.trigger "warning")) false
      whenever warn (noteWarning reservation "last_warning_time")

/-- The handling of one queued or pending reservation. -/
def expireQueued (reservation : Attributes) : Lambda Unit := do
  let stale ← orElseGive
    (ask (.isOlderThan ((reservation "created_at").getD .null) (48 * 60 * 60))) false
  whenever stale (cancelStaleReservation reservation)

/-- Take down the pod of a reservation that has ended. -/
def cleanupEnded (reservation : Attributes) : Lambda Unit := logged (cleanupNamedPod reservation)

/-- The handler of the expiry Lambda. -/
def expiryHandler : Lambda Unit := do
  let active ← orElseGive (find (.status "active")) []
  let preparing ← orElseGive (find (.status "preparing")) []
  preparing.forM expirePreparing
  active.forM expireActive
  let queued ← find (.status "queued")
  let pending ← find (.status "pending")
  (queued ++ pending).forM expireQueued
  let failed ← orElseGive (find (.status "failed")) []
  failed.forM cleanupEnded
  let expired ← orElseGive (find (.status "expired")) []
  let cancelled ← orElseGive (find (.status "cancelled")) []
  (expired ++ cancelled).forM cleanupEnded

end CiInfra.GpuDev

import CiInfra.GpuDev.Lifecycle

/-!
# The expiry handler

Every minute a run of the expiry Lambda lists the reservations by status and goes over the lists:
it expires what is over, ends what has lost its pod, warns, cancels what has waited for two days,
clears stale locks of disks, and takes down the pods of reservations that have ended. A run reads
the time once, and acts on the items it has listed for as long as it takes.
-/

namespace CiInfra.GpuDev.Lifecycle

open Interaction Fallible

/-- What the environment of the Lambda sets. -/
structure Settings where
  gracePeriodSeconds : ℤ
  dnsEnabled : Bool
  loadBalancerEnabled : Bool

/-- `WARNING_LEVELS`, in minutes, the highest first. -/
def warningLevels : List ℤ := [30, 15, 5]

/-! ### Pods -/

/-- `check_pod_exists`. -/
def checkPodExists (podName : String) : Lambda Bool :=
  tryCatch (do
    let _ ← readPod podName
    return true) fun
    | .notFound => return false
    -- An error is logged and read as the absence of the pod.
    | _ => return false

/-- What `check_pod_dead` makes of the status of a pod. -/
def PodStatus.deadReason (s : PodStatus) : Option String :=
  let withMessage (why message : String) : String :=
    if message ≠ "" then why ++ ": " ++ message else why
  if s.phase = "Failed" ∨ s.phase = "Succeeded" then
    let reason := if s.reason ≠ "" then s.reason else s.phase
    some (withMessage ("Pod " ++ s.phase.toLower ++ " (" ++ reason ++ ")") s.message)
  else
    match s.disruption with
    | some (reason, message) =>
      if s.mainRunning then none
      else
        let reason := if reason ≠ "" then reason else "Disrupted"
        some (withMessage ("Pod disrupted (" ++ reason ++ ")") message)
    | none => none

/-- `check_pod_dead`. -/
def checkPodDead (podName : String) : Lambda (Option String) :=
  tryCatch (do
    let pod ← readPod podName
    return pod.status.deadReason) fun _ => return none

/-- `check_pod_oom_status`. -/
def checkPodOomStatus (podName : String) : Lambda (Option (String × String)) :=
  tryCatch (do
    let pod ← readPod podName
    return pod.status.oomKilled) fun _ => return none

/-! ### Disks -/

/-- The lock of a disk names the reservation, or one with the same first eight characters. -/
def Disk.isAttachedTo (reservationId : String) (d : Disk) : Bool :=
  d.attachedTo ≠ "" && (d.attachedTo = reservationId ||
    (d.attachedTo.toList.take 8).isPrefixOf reservationId.toList)

/-- `find_disk_by_reservation`; the empty text stands for `None`. -/
def findDiskByReservation (user reservationId : String) : Lambda String :=
  orElseGive (do
    let disks ← disksOf user
    return ((disks.find? fun d => d.2.isAttachedTo reservationId).map fun d => d.1.2).getD "") ""

/-- `mark_disk_not_in_use`. -/
def markDiskNotInUse (user disk : String) (onBehalfOf : Option String) : Lambda Unit :=
  freeDisk user disk onBehalfOf

/-- The disk of a reservation: the one that the record names, or else the one that the disks table
shows for it. -/
def diskOf (reservation : Record) : Lambda String :=
  if reservation.user ≠ "" ∧ reservation.diskName = "" then
    findDiskByReservation reservation.user reservation.id
  else return reservation.diskName

/-- Clear the lock of the disk of a reservation. -/
def releaseDisk (reservation : Record) : Lambda Unit := do
  let disk ← diskOf reservation
  whenever (reservation.user ≠ "" && disk ≠ "")
    (logged (markDiskNotInUse reservation.user disk (some reservation.id)))

/-- `sweep_stale_disk_locks`, for one disk. -/
def sweepDisk (disk : NamedDisk) : Lambda Unit :=
  let attachedReservation := disk.2.attachedTo
  whenever (attachedReservation ≠ "" && disk.1.1 ≠ "" && disk.1.2 ≠ "") (logged do
    let item ← getItem attachedReservation
    match item with
    | none => markDiskNotInUse disk.1.1 disk.1.2 (some attachedReservation)
    | some reservation =>
      whenever (["expired", "cancelled", "failed"].contains reservation.status)
        (markDiskNotInUse disk.1.1 disk.1.2 (some attachedReservation)))

/-- `sweep_stale_disk_locks`. -/
def sweepStaleDiskLocks : Lambda Unit :=
  logged do
    let disks ← lockedDisks
    disks.forM sweepDisk

/-! ### Snapshots -/

/-- `safe_create_snapshot`: a snapshot in progress is taken as it is; the latest of them if there
are several. -/
def safeCreateSnapshot (volume user disk : String) : Lambda (Option String) :=
  orElseGive (do
    let ongoing ← pendingSnapshots volume
    match ongoing.argmax fun s => s.2.startTime with
    | some latest => return some latest.1
    | none => do
      let snapshotId ← createSnapshot volume user disk
      whenever (disk ≠ "") (logged (errand (.backingUp user disk)))
      return some snapshotId) none

/-- The user and the volume whose snapshot is taken: those of the record if it has both, else
what the pod shows. -/
def storageOf (podName : String) (reservation : Record) : Lambda (String × String) :=
  let known := (reservation.user, reservation.ebsVolumeId)
  if reservation.user ≠ "" ∧ reservation.ebsVolumeId ≠ "" then return known
  else orElseGive (do
    let pod ← readPod podName
    return (if pod.userLabel ≠ "" then pod.userLabel else reservation.user,
      if pod.volume ≠ "" then pod.volume else reservation.ebsVolumeId)) known

/-- The name of the disk: that of the record, else that of the volume. -/
def diskNameOf (volume : String) (reservation : Record) : Lambda String :=
  if volume ≠ "" ∧ reservation.diskName = "" then orElseGive (do
    let v ← describeVolume volume
    return (v.map Volume.diskTag).getD "") ""
  else return reservation.diskName

/-- Wait for the snapshot, then delete the volume and clear the lock of its disk. -/
def retireVolume (snapshotId volume user disk : String) (reservation : Record) : Lambda Unit := do
  awaitSnapshot snapshotId
  whenever (disk ≠ "") (logged (errand (.snapshotRecorded snapshotId user disk)))
  logged do
    deleteVolume volume
    whenever (disk ≠ "") (logged (markDiskNotInUse user disk (some reservation.id)))

/-- The shutdown snapshot of `cleanup_pod`. Whatever goes wrong with it is logged. -/
def shutdownSnapshot (podName : String) (reservation : Record) : Lambda Unit :=
  logged do
    let (user, volume) ← storageOf podName reservation
    let disk ← diskNameOf volume reservation
    whenever (user ≠ "" && volume ≠ "") do
      whenever (disk ≠ "") (logged (errand (.captureContents podName disk)))
      let snapshotId ← safeCreateSnapshot volume user disk
      match snapshotId with
      | some snapshotId => logged (retireVolume snapshotId volume user disk reservation)
      | none => return ()

/-! ### Taking a pod down -/

/-- Delete a pod gracefully, or by force if that is refused. -/
def deletePodOrForce (podName : String) : Lambda Unit :=
  tryCatch (deletePod podName 30) fun
    | .notFound => return ()
    | .api _ => deletePod podName 0
    | e => throw e

/-- `cleanup_pod`. Whatever it raises, the lock of the disk is cleared. -/
def cleanupPod (cfg : Settings) (podName : String) (reservation : Record) : Lambda Unit :=
  tryCatch (do
    whenever (cfg.dnsEnabled && reservation.domainName ≠ "" && reservation.nodeIp ≠ "" &&
        reservation.nodePort ≠ 0) do
      errand (.dnsRecord reservation.domainName)
      errand (.domainMapping reservation.domainName)
    whenever (cfg.loadBalancerEnabled && reservation.id ≠ "")
      (logged (errand (.loadBalancer reservation.id)))
    errand .kubernetes
    shutdownSnapshot podName reservation
    logged (errand (.service podName))
    deletePodOrForce podName
    logged (errand .availability)
    releaseDisk reservation) fun e => do
    releaseDisk reservation
    throw e

/-- `cleanup_stuck_pod_resources`. -/
def cleanupStuckPodResources (podName : String) : Lambda Unit :=
  logged do
    errand .kubernetes
    tryCatch (deletePod podName 0) fun
      | .notFound => return ()
      | .api _ => return ()
      | e => throw e
    errand (.service podName)

/-! ### Ending a reservation -/

/-- `expire_reservation`. -/
def expireReservation (cfg : Settings) (reservation : Record) : Lambda Unit :=
  match reservation.userId with
  | none => throw (.error "'user_id'")
  | some _ => do
    let now ← utcnow
    update reservation.id (.expired now)
    whenever (reservation.podName ≠ "") (logged (cleanupPod cfg reservation.podName reservation))

/-- `expire_reservation_due_to_missing_pod`. -/
def expireReservationDueToMissingPod (reservation : Record) : Lambda Unit :=
  logged do
    let reason ← read (.preemption reservation.id)
    let now ← utcnow
    update reservation.id (.podMissing now reason)
    releaseDisk reservation

/-- `expire_reservation_due_to_dead_pod`. -/
def expireReservationDueToDeadPod (cfg : Settings) (reservation : Record) (reason : String) :
    Lambda Unit := do
  let now ← utcnow
  update reservation.id (.podDead now reason)
  whenever (reservation.podName ≠ "") (logged (cleanupPod cfg reservation.podName reservation))
  releaseDisk reservation

/-- `expire_stuck_preparing_reservation`. -/
def expireStuckPreparingReservation (reservation : Record) : Lambda Unit :=
  logged do
    let now ← utcnow
    update reservation.id (.stuck now)
    whenever (reservation.podName ≠ "") (logged (cleanupStuckPodResources reservation.podName))
    releaseDisk reservation

/-- `cancel_stale_reservation`. -/
def cancelStaleReservation (reservation : Record) : Lambda Unit :=
  logged do
    let now ← utcnow
    update reservation.id (.stale now)
    whenever (reservation.userId ≠ some "unknown") (releaseDisk reservation)

/-- `warn_user_expiring`. -/
def warnUserExpiring (reservation : Record) (warningMinutes : ℤ) : Lambda Unit :=
  logged do
    let now ← time
    whenever (reservation.podName ≠ "") do
      let exists_ ← checkPodExists reservation.podName
      if exists_ then logged (errand (.warningFile reservation.podName))
      else expireReservationDueToMissingPod reservation
    update reservation.id
      (.warned (warningMinutes :: reservation.warningsSent) (PythonNumber.truncate now))

/-- When a container was killed; now, if that is not known. -/
def oomTimeOrNow (oomTime : String) : Lambda String :=
  if oomTime ≠ "" then return oomTime else read .isoNow

/-- `handle_oom_event`. -/
def handleOomEvent (reservation : Record) (container oomTime : String) : Lambda Unit :=
  logged do
    let newOomTime ← oomTimeOrNow oomTime
    whenever (reservation.lastOomAt = "" || reservation.lastOomAt ≠ newOomTime) do
      update reservation.id (.outOfMemory newOomTime (reservation.oomCount + 1) container)
      whenever (reservation.podName ≠ "") (logged (errand (.memoryFile reservation.podName)))

/-! ### The passes -/

/-- End a reservation that was created more than a number of seconds ago. -/
def endIfOlder (currentTime seconds : ℤ) (reservation : Record) (endIt : Lambda Unit) :
    Lambda Unit :=
  match seconds? reservation.createdAt with
  | none => return ()
  | some created => whenever (created < currentTime - seconds) endIt

/-- The handling of one preparing reservation: one created over an hour ago is stuck. -/
def expirePreparing (currentTime : ℤ) (reservation : Record) : Lambda Unit :=
  endIfOlder currentTime 3600 reservation (expireStuckPreparingReservation reservation)

/-- The `expires_at` of an item, as the handler reads it: what is missing or does not parse is
read as zero. -/
def Record.expiresAtSeconds (r : Record) : ℤ := (seconds? r.expiresAt).getD 0

/-- The time of a reservation is over, the grace period included. -/
def Record.isOver (cfg : Settings) (currentTime : ℤ) (r : Record) : Bool :=
  r.expiresAtSeconds + cfg.gracePeriodSeconds < currentTime

/-- The reservation was launched in the last ten minutes. -/
def Record.isWithinLaunchGrace (currentTime : ℤ) (r : Record) : Bool :=
  match seconds? r.launchedAt with
  | some launched => currentTime < launched + 10 * 60
  | none => false

/-- Is the pod of an active reservation still there and alive? Gives whether the reservation was
ended because it is not. -/
def finalizeLostPod (cfg : Settings) (reservation : Record) : Lambda Bool := do
  let podExists ← checkPodExists reservation.podName
  if !podExists then do
    expireReservationDueToMissingPod reservation
    return true
  else do
    let dead ← checkPodDead reservation.podName
    match dead with
    | none => return false
    | some reason =>
      orElseGive (do
        expireReservationDueToDeadPod cfg reservation reason
        return true) false

/-- The warning to send: that of the highest level that is due and has not been sent. -/
def warningToSend (currentTime : ℤ) (reservation : Record) : Option ℤ :=
  let minutesUntilExpiry := (reservation.expiresAtSeconds - currentTime) / 60
  warningLevels.find? fun level =>
    minutesUntilExpiry ≤ level && !reservation.warningsSent.contains level

/-- The pod of the reservation is looked at. -/
def Record.checksPod (currentTime : ℤ) (r : Record) : Bool :=
  r.podName ≠ "" && !r.isWithinLaunchGrace currentTime

/-- Send the warning that is due, if one is. -/
def sendWarning (currentTime : ℤ) (reservation : Record) : Lambda Unit :=
  match warningToSend currentTime reservation with
  | some level => warnUserExpiring reservation level
  | none => return ()

/-- Record that a container of the pod was killed for its memory. -/
def recordOom (reservation : Record) : Lambda Unit :=
  logged do
    let killed ← checkPodOomStatus reservation.podName
    match killed with
    | some (container, oomTime) => handleOomEvent reservation container oomTime
    | none => return ()

/-- Warn the user of an active reservation, and look at the memory of its pod. -/
def watchPod (currentTime : ℤ) (reservation : Record) : Lambda Unit := do
  sendWarning currentTime reservation
  whenever (reservation.checksPod currentTime) (recordOom reservation)

/-- An active reservation whose time is not over. -/
def watchActive (cfg : Settings) (currentTime : ℤ) (reservation : Record) : Lambda Unit :=
  if reservation.checksPod currentTime then do
    let ended ← finalizeLostPod cfg reservation
    whenever (!ended) (watchPod currentTime reservation)
  else watchPod currentTime reservation

/-- The handling of one active reservation. -/
def expireActive (cfg : Settings) (currentTime : ℤ) (reservation : Record) : Lambda Unit :=
  if reservation.isOver cfg currentTime then logged (expireReservation cfg reservation)
  else watchActive cfg currentTime reservation

/-- The handling of one queued or pending reservation: one created two days ago is stale. -/
def expireQueued (currentTime : ℤ) (reservation : Record) : Lambda Unit :=
  endIfOlder currentTime (48 * 60 * 60) reservation (cancelStaleReservation reservation)

/-- Take down the pod of a reservation that has ended, or clear the lock of its disk if the pod is
gone. -/
def cleanupEnded (cfg : Settings) (reservation : Record) : Lambda Unit := do
  let podExists ← checkPodExists reservation.podName
  if !podExists then releaseDisk reservation
  else logged (cleanupPod cfg reservation.podName reservation)

/-- The same, if the reservation has a pod and ended within a window. -/
def cleanupIfRecent (cfg : Settings) (currentTime window : ℤ) (endedAt : Option Stamp)
    (reservation : Record) : Lambda Unit :=
  match seconds? endedAt with
  | none => return ()
  | some endedAt =>
    whenever (reservation.podName ≠ "" && currentTime - window ≤ endedAt)
      (cleanupEnded cfg reservation)

/-- One failed reservation, if it failed in the last day. -/
def cleanupFailed (cfg : Settings) (currentTime : ℤ) (reservation : Record) : Lambda Unit :=
  cleanupIfRecent cfg currentTime (24 * 3600) (reservation.failedAt.or reservation.createdAt)
    reservation

/-- The cleanup of failed reservations. -/
def cleanupFailedReservations (cfg : Settings) (currentTime : ℤ) : Lambda Unit :=
  logged do
    let failed ← query "failed"
    failed.forM (cleanupFailed cfg currentTime)

/-- The prefix of the names of pods of reservations. -/
def podPrefix : String := "gpu-dev-"

/-- The part of the reservation's id that the name of a pod shows. -/
def reservationIdPrefix (podName : String) : String := String.ofList (podName.toList.drop 8)

/-- One pod: what happens to it is decided by the first reservation that the scan shows. -/
def cleanupPodOfEnded (cfg : Settings) (podName : String) : Lambda Unit :=
  logged do
    let items ← scan (reservationIdPrefix podName)
    match items with
    | [] => return ()
    | reservation :: _ =>
      whenever (["failed", "cancelled", "expired"].contains reservation.status)
        (logged (cleanupPod cfg podName reservation))

/-- A loop that is left when less than two minutes remain. -/
def whileTimeRemains {β : Type} (body : β → Lambda Unit) : List β → Lambda Unit
  | [] => return ()
  | b :: bs => do
    let remainingMs ← remaining
    if remainingMs < 120000 then return ()
    else do
      body b
      whileTimeRemains body bs

/-- The pod-centric cleanup. -/
def cleanupPods (cfg : Settings) : Lambda Unit :=
  logged do
    errand .kubernetes
    let podNames ← listPods
    whileTimeRemains (cleanupPodOfEnded cfg)
      (podNames.filter fun name => podPrefix.toList.isPrefixOf name.toList)

/-- One expired or cancelled reservation, if it ended in the last seven days. -/
def cleanupExpired (cfg : Settings) (currentTime : ℤ) (reservation : Record) : Lambda Unit :=
  cleanupIfRecent cfg currentTime (7 * 24 * 3600)
    (reservation.expiredAt.or reservation.cancelledAt) reservation

/-- The redundant cleanup of expired and cancelled reservations. -/
def cleanupExpiredReservations (cfg : Settings) (currentTime : ℤ) : Lambda Unit :=
  logged do
    let expired ← query "expired"
    let cancelled ← query "cancelled"
    whileTimeRemains (cleanupExpired cfg currentTime) (expired ++ cancelled)

/-- The active and the preparing reservations, or none of either if a query fails. -/
def listLive : Lambda (List Record × List Record) :=
  orElseGive (do
    let active ← query "active"
    let preparing ← query "preparing"
    return (active, preparing)) ([], [])

/-- The first part of `handler`: reservations that are stuck, over, lost or stale are ended. -/
def endReservations (cfg : Settings) (currentTime : ℤ) : Lambda Unit := do
  let (active, preparing) ← listLive
  preparing.forM (expirePreparing currentTime)
  active.forM (expireActive cfg currentTime)
  let queued ← query "queued"
  let pending ← query "pending"
  (queued ++ pending).forM (expireQueued currentTime)

/-- The rest of `handler`: the passes that clean up. The upkeep of snapshots at the end is
modelled with them. -/
def cleanUp (cfg : Settings) (currentTime : ℤ) : Lambda Unit := do
  sweepStaleDiskLocks
  cleanupFailedReservations cfg currentTime
  cleanupPods cfg
  cleanupExpiredReservations cfg currentTime
  logged (errand .upkeep)

/-- `handler`. -/
def expiryHandler (cfg : Settings) : Lambda Unit := do
  let now ← time
  endReservations cfg (PythonNumber.truncate now)
  cleanUp cfg (PythonNumber.truncate now)

end CiInfra.GpuDev.Lifecycle

import CiInfra.GpuDev.Records

/-!
# Persistent disks

The home directory of a reservation can be on a volume that is restored from the latest snapshot
of a disk of the user. A named disk is taken only if no volume tagged with its name is in use. A
reservation that names no disk gets the default one only if no other live record of the user has
a volume or has reserved one.
-/

namespace CiInfra.GpuDev

open Interaction Fallible

/-- The volume is attached. -/
def Volume.isInUse (v : Volume) : Bool := v.state == "in-use"

/-- Look at most a number of times whether a named disk is still in use. -/
def waitForRelease (user disk reservationId : String) (first : Bool) : ℕ → Lambda Unit
  | 0 => return ()
  | n + 1 => do
    let volumes ← describeVolumes user disk
    if !volumes.any Volume.isInUse then
      return ()
    else do
      whenever (first && reservationId ≠ "") (updateReservationStatus reservationId "preparing"
        ("Waiting for disk '" ++ disk ++ "' to be released from previous reservation"))
      waitForRelease user disk reservationId false n

/-- The first step of `create_disk_from_snapshot_or_empty`: a named disk that is still in use
after two minutes, looked at every ten seconds, is not taken. -/
def checkNotInUse (user disk reservationId : String) : Lambda Unit := do
  waitForRelease user disk reservationId true 12
  let volumes ← describeVolumes user disk
  if volumes.any Volume.isInUse then
    throw (.error ("Disk '" ++ disk ++ "' is still in use after waiting 120s"))
  else return ()

/-- The snapshot to restore a disk from: whether it is an initial one, or `none` if there is no
snapshot. -/
def findSnapshot (user : String) (diskName : Option String) : Lambda (Option Bool) := do
  let disk := diskName.getD ""
  let pending ← ask (.snapshotPending user disk)
  if pending then do
    let progress ← read (.snapshotOf user disk)
    throw (.snapshotPending ("Waiting for disk snapshot " ++ progress))
  else do
    let own ← ask (.snapshotOf user disk)
    if own then do
      let initial ← ask (.snapshotInitial user disk)
      return some initial
    else if diskName.isNone then
      return none
    else do
      let cloned ← ask (.cloneSource user disk)
      if !cloned then
        return none
      else do
        let state ← read (.cloneState user disk)
        if state = "pending" then
          throw (.snapshotPending "Waiting for cloned disk snapshot to complete")
        else if state = "completed" then do
          let initial ← ask (.snapshotInitial user disk)
          return some initial
        else throw (.error ("Clone source snapshot is " ++ state))

/-- Create a volume and wait until it is available. -/
def createAvailableVolume (v : Volume) : Lambda String := do
  let generated ← freshId
  let volumeId := "vol-" ++ generated
  createVolume volumeId v
  attempt (.volumeReady volumeId)
  return volumeId

/-- `create_disk_from_snapshot_or_empty`. Gives the volume and whether it is a new disk. -/
def createDiskFromSnapshotOrEmpty (user : String) (diskName : Option String)
    (reservationId : String) (skipSnapshotRestore : Bool) : Lambda (String × Bool) := do
  match diskName with
  | some disk => checkNotInUse user disk reservationId
  | none => pure ()
  if skipSnapshotRestore then do
    whenever (reservationId ≠ "") (updateReservationStatus reservationId "preparing"
      "Creating disk (fast restore from local cache)")
    -- Here an unnamed disk gets no tag with its name.
    let volumeId ← createAvailableVolume ⟨user, diskName, "available"⟩
    return (volumeId, true)
  else do
    let snapshot ← findSnapshot user diskName
    let volumeId ← createAvailableVolume ⟨user, some (diskName.getD "default"), "available"⟩
    return (volumeId, snapshot.getD true)

/-- A record holds a persistent disk or has reserved one. -/
def Attributes.hasPersistentDisk (item : Attributes) : Bool :=
  strippedText ((item "ebs_volume_id").getD (.text "")) ≠ "" && item.truthy "ebs_volume_id" ||
    (match item "ebs_volume_reserved" with
      | some (.flag b) => b
      | _ => false)

/-- `should_use_persistent_disk`. -/
def shouldUsePersistentDisk (user reservationId : String) : Lambda Bool :=
  orElseGive (do
    let others ← find (.otherLive user reservationId)
    return !others.any Attributes.hasPersistentDisk) false

/-- `mark_disk_in_use`. -/
def markDiskInUse (user disk : String) : Lambda Unit := attempt (.diskTable user disk)

end CiInfra.GpuDev

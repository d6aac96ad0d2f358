import CiInfra.Lib.Fallible
import Mathlib.Algebra.GroupWithZero.Nat
import Mathlib.Data.Int.Order.Basic

/-!
# The bookkeeping of snapshots

The item of a disk counts the snapshots that are under way and those that are complete, and has a
flag for a backup under way. The flag is set and the first counter raised when a snapshot is
created. A completion is recorded by the cleanup of the pod, once it has waited for its snapshot,
and by a periodic synchronization, which goes through all the completed snapshots there are.
-/

namespace CiInfra.GpuDev.SnapshotBookkeeping

open Interaction Program Fallible

/-- The key of a disk: `user_id` and `disk_name`. -/
abbrev DiskKey := String × String

/-! ### The disks table and the snapshots -/

/-- An item of the disks table. -/
structure Disk where
  pendingSnapshotCount : Option ℤ := none
  snapshotCount : Option ℤ := none
  isBackingUp : Option Bool := none
  lastUsed : Option ℤ := none
  sizeGb : Option ℤ := none
  latestSnapshotContentS3 : Option String := none
  diskSize : Option String := none
  deriving DecidableEq

/-- What is known of a completed snapshot when it is recorded. -/
structure Completion where
  now : ℤ
  sizeGb : Option ℤ
  contentS3Path : Option String
  diskSize : Option String

namespace Disk

/-- The update of `safe_create_snapshot`. -/
def raise (d : Disk) : Disk :=
  { d with
    isBackingUp := some true
    pendingSnapshotCount := some (d.pendingSnapshotCount.getD 0 + 1) }

/-- The first update of `update_disk_snapshot_completed`. -/
def record (d : Disk) (c : Completion) : Disk :=
  { d with
    snapshotCount := some (d.snapshotCount.getD 0 + 1)
    pendingSnapshotCount := some (d.pendingSnapshotCount.getD 1 - 1)
    lastUsed := some c.now
    sizeGb := c.sizeGb <|> d.sizeGb
    latestSnapshotContentS3 := c.contentS3Path <|> d.latestSnapshotContentS3
    diskSize := c.diskSize <|> d.diskSize }

/-- The second update of `update_disk_snapshot_completed`. -/
def reset (d : Disk) : Disk :=
  { d with isBackingUp := some false, pendingSnapshotCount := some 0 }

end Disk

inductive SnapshotState
  | pending
  | completed
  | error
  deriving DecidableEq

structure Snapshot where
  id : String
  volumeId : String
  state : SnapshotState
  startTime : ℤ
  volumeSize : Option ℤ
  tags : List (String × String)

/-- The value of a tag. The tags of a snapshot have different keys. -/
def Snapshot.tag (snapshot : Snapshot) (key : String) : Option String := snapshot.tags.lookup key

/-- The table and the snapshots, with a record of which snapshots the counter of a disk was raised
for and which completions were recorded. -/
structure World where
  /-- What each item has been, the latest first. An item that was never written does not exist. -/
  versions : DiskKey → List Disk
  snapshot : String → Option Snapshot
  /-- The ids of all snapshots there have ever been. -/
  issued : List String
  raised : List (DiskKey × String)
  recorded : List (DiskKey × String)

namespace World

def disk (w : World) (key : DiskKey) : Option Disk := (w.versions key).head?

/-- `pending_snapshot_count`, which counts as 0 where there is none. -/
def pendingCount (w : World) (key : DiskKey) : ℤ :=
  ((w.disk key).bind Disk.pendingSnapshotCount).getD 0

def snapshotCount (w : World) (key : DiskKey) : ℤ :=
  ((w.disk key).bind Disk.snapshotCount).getD 0

def isBackingUp (w : World) (key : DiskKey) : Bool :=
  ((w.disk key).bind Disk.isBackingUp).getD false

/-- The snapshots of a disk that were created with the counter raised. -/
def raisedOf (w : World) (key : DiskKey) : List String :=
  (w.raised.filter fun x => x.1 = key).map Prod.snd

/-- The snapshots whose completions were recorded in the item of a disk. -/
def recordedOf (w : World) (key : DiskKey) : List String :=
  (w.recorded.filter fun x => x.1 = key).map Prod.snd

/-- The snapshots of a disk that were created with the counter raised and whose completion has not
been recorded yet. -/
def pendingSnapshots (w : World) (key : DiskKey) : List String :=
  (w.raisedOf key).filter fun id => id ∉ w.recordedOf key

/-- The snapshot is not complete yet. -/
def isRunning (w : World) (id : String) : Bool :=
  (w.snapshot id).any fun snapshot => snapshot.state == .pending

/-- `update_item`, which creates an item where there is none. -/
def updateItem (w : World) (key : DiskKey) (f : Disk → Disk) : World :=
  { w with
    versions := Function.update w.versions key (f ((w.disk key).getD {}) :: w.versions key) }

def raise (w : World) (key : DiskKey) (id : String) : World :=
  { w.updateItem key Disk.raise with raised := (key, id) :: w.raised }

def record (w : World) (key : DiskKey) (id : String) (c : Completion) : World :=
  { w.updateItem key (Disk.record · c) with recorded := (key, id) :: w.recorded }

def reset (w : World) (key : DiskKey) : World := w.updateItem key Disk.reset

def addSnapshot (w : World) (snapshot : Snapshot) : World :=
  { w with
    snapshot := Function.update w.snapshot snapshot.id (some snapshot)
    issued := snapshot.id :: w.issued }

end World

/-! ### The calls -/

/-- The calls. Those that update the item of a disk for a snapshot do not name it; here they do,
for the record. -/
inductive Op
  | wallClock
  /-- The snapshots of a volume with status `pending`. -/
  | describePending (volumeId : String)
  | createSnapshot (volumeId description : String) (tags : List (String × String))
  | raise (key : DiskKey) (id : String)
  | record (key : DiskKey) (id : String) (c : Completion)
  /-- `get_item` after a completion was recorded. -/
  | lookAfter (key : DiskKey)
  | reset (key : DiskKey)
  /-- `get_item` in the synchronization. -/
  | getDisk (key : DiskKey)
  /-- The snapshots with status `completed` and both tags, on all pages. -/
  | describeCompleted
  | waitCompleted (id : String)
  | describeSnapshot (id : String)
  /-- The user label and the EBS volume of the pod. -/
  | readPod
  /-- The tags of a volume, if it is found. -/
  | volumeTags (volumeId : String)
  /-- `capture_disk_contents`. -/
  | captureContents (key : DiskKey)
  | deleteVolume (volumeId : String)
  | markNotInUse (key : DiskKey)

/-- The answers; `none` and `false` stand for an exception. -/
def Op.Res : Op → Type
  | wallClock => ℤ
  | describePending _ | describeCompleted | describeSnapshot _ => Option (List Snapshot)
  | createSnapshot .. => Option String
  | raise .. | record .. | reset _ | waitCompleted _ | deleteVolume _ | markNotInUse _ => Bool
  | lookAfter _ | getDisk _ => Option (Option Disk)
  | readPod | captureContents _ => Option (Option String × Option String)
  | volumeTags _ => Option (Option (List (String × String)))

/-- A read may show what the item was earlier. -/
def World.Shows (w : World) (key : DiskKey) (answer : Option (Option Disk)) : Prop :=
  ∀ item, answer = some item → ∀ d, item = some d → d ∈ w.versions key

/-- A listing may miss what has just changed. -/
def World.Lists (w : World) (selects : Snapshot → Bool) (answer : Option (List Snapshot)) : Prop :=
  ∀ shown, answer = some shown →
    ∀ snapshot ∈ shown, w.snapshot snapshot.id = some snapshot ∧ selects snapshot

/-- The snapshot is complete, or was. -/
def World.IsFinished (w : World) (id : String) : Prop := id ∈ w.issued ∧ w.isRunning id = false

/-- A new snapshot has an id of its own. A write that raises may still have been carried out. -/
def Op.Serves : (op : Op) → World → op.Res → World → Prop
  | .describePending volumeId, w, answer, w' =>
    w' = w ∧ w.Lists (fun s => s.volumeId == volumeId && s.state == .pending) answer
  | .createSnapshot volumeId _ tags, w, answer, w' =>
    (∃ snapshot : Snapshot, snapshot.id ∉ w.issued ∧ snapshot.volumeId = volumeId ∧
      snapshot.tags = tags ∧ w' = w.addSnapshot snapshot ∧
      ∀ id, answer = some id → id = snapshot.id) ∨ answer = none ∧ w' = w
  | .raise key id, w, ok, w' => w' = w.raise key id ∨ ok = false ∧ w' = w
  | .record key id c, w, ok, w' => w' = w.record key id c ∨ ok = false ∧ w' = w
  | .reset key, w, ok, w' => w' = w.reset key ∨ ok = false ∧ w' = w
  | .lookAfter key, w, answer, w' => w' = w ∧ w.Shows key answer
  | .getDisk key, w, answer, w' => w' = w ∧ w.Shows key answer
  | .describeCompleted, w, answer, w' =>
    w' = w ∧ w.Lists (fun s => s.state == .completed) answer ∧
      ∀ shown, answer = some shown → ∀ snapshot ∈ shown, snapshot.id ∈ w.issued
  | .waitCompleted id, w, completed, w' => w' = w ∧ (completed = true → w.IsFinished id)
  | _, w, _, w' => w' = w

abbrev Lambda := Fallible Op Op.Res Unit

/-- Make a call whose answer may be an exception. -/
def ask {α : Type} (op : Op) (answer : op.Res → Option α) : Lambda α :=
  request op fun r => (answer r).elim (.error ()) .ok

/-- Make a call for what it does. -/
def perform (op : Op) (succeeded : op.Res → Bool) : Lambda Unit :=
  request op fun r => if succeeded r then .ok () else .error ()

def wallClock : Lambda ℤ := request .wallClock .ok

/-! ### The functions -/

/-- `if x:` of a text that may be missing. -/
def truthy (text : Option String) : Option String := text.filter (· ≠ "")

/-- `max` by a key: the first of the greatest, if there are any. -/
def firstMax {α : Type} (key : α → ℤ) : List α → Option α
  | [] => none
  | a :: rest => some (rest.foldl (fun best b => if key best < key b then b else best) a)

/-- `user_id.split('@')[0]`. -/
def userName (userId : String) : String := String.ofList (userId.toList.takeWhile (· ≠ '@'))

/-- The tags of a new snapshot. -/
def snapshotTags (userId snapshotType : String) (diskName contentS3Path diskSize : Option String)
    (timestamp : ℤ) : List (String × String) :=
  [("Name", "gpu-dev-" ++ snapshotType ++ "-" ++ userName userId ++ "-" ++ toString timestamp),
    ("gpu-dev-user", userId),
    ("gpu-dev-snapshot-type", snapshotType),
    ("SnapshotType", snapshotType),
    ("created_at", toString timestamp)] ++
  ((truthy diskName).map fun disk => ("disk_name", disk)).toList ++
  ((truthy contentS3Path).map fun path => ("snapshot_content_s3", path)).toList ++
  ((truthy diskSize).map fun size => ("disk_size", size)).toList

def snapshotDescription (userId snapshotType : String) (diskName diskSize : Option String) :
    String :=
  "gpu-dev " ++ snapshotType ++ " snapshot for " ++ userId ++
    ((truthy diskName).map fun disk => " (disk: " ++ disk ++ ")").getD "" ++
    ((truthy diskSize).map fun size => " (" ++ size ++ ")").getD ""

/-- `safe_create_snapshot`. Gives the snapshot and whether it was created. -/
def safeCreateSnapshot (volumeId userId snapshotType : String)
    (diskName contentS3Path diskSize : Option String) : Lambda (Option String × Bool) :=
  orElseGive (do
    let ongoing ← ask (.describePending volumeId) id
    match firstMax Snapshot.startTime ongoing with
    | some latest => return (some latest.id, false)
    | none => do
      let timestamp ← wallClock
      let snapshotId ← ask (.createSnapshot volumeId
        (snapshotDescription userId snapshotType diskName diskSize)
        (snapshotTags userId snapshotType diskName contentS3Path diskSize timestamp)) id
      match truthy diskName with
      | some disk => logged (perform (.raise (userId, disk) snapshotId) id)
      | none => pure ()
      return (some snapshotId, true)) (none, false)

/-- An item shows that no snapshot is pending. Without a counter it shows so too. -/
def Disk.showsNonePending (d : Disk) : Bool := d.pendingSnapshotCount.getD 0 ≤ 0

/-- `update_disk_snapshot_completed`, for the snapshot `snapshotId`. -/
def updateDiskSnapshotCompleted (key : DiskKey) (snapshotId : String) (sizeGb : Option ℤ)
    (contentS3Path diskSize : Option String) : Lambda Unit :=
  logged do
    let now ← wallClock
    perform (.record key snapshotId ⟨now, sizeGb, contentS3Path, diskSize⟩) id
    let item ← ask (.lookAfter key) id
    match item with
    | some d => whenever d.showsNonePending (perform (.reset key) id)
    | none => pure ()

/-- The item asks for an update: there are pending snapshots, or it is stuck in its backup. -/
def Disk.asksForUpdate (d : Disk) : Bool :=
  d.pendingSnapshotCount.getD 0 ≠ 0 || d.isBackingUp.getD false

/-- One step of the loop in `sync_completed_snapshots`. Gives the number of disks updated. -/
def syncSnapshot (snapshot : Snapshot) : Lambda ℕ :=
  match truthy (snapshot.tag "gpu-dev-user"), truthy (snapshot.tag "disk_name") with
  | some user, some disk =>
    orElseGive (do
      let item ← ask (.getDisk (user, disk)) id
      match item with
      | none => return 0
      | some d =>
        if d.asksForUpdate then do
          updateDiskSnapshotCompleted (user, disk) snapshot.id snapshot.volumeSize none none
          return 1
        else return 0) 0
  | _, _ => return 0

/-- `sync_completed_snapshots`. -/
def syncCompletedSnapshots : Lambda ℕ :=
  orElseGive (do
    let snapshots ← ask .describeCompleted id
    let updated ← collect syncSnapshot snapshots
    return updated.sum) 0

/-- What the cleanup of a pod is told of its reservation. -/
structure ReservationData where
  userId : Option String
  ebsVolumeId : Option String
  diskName : Option String

/-- The user and the volume: from the reservation, else from the pod. -/
def findStorage (data : ReservationData) : Lambda (Option String × Option String) :=
  if (truthy data.userId).isSome && (truthy data.ebsVolumeId).isSome then
    return (data.userId, data.ebsVolumeId)
  else
    orElseGive (do
      let (label, volume) ← ask .readPod id
      return (truthy label <|> data.userId, volume <|> data.ebsVolumeId))
      (data.userId, data.ebsVolumeId)

/-- The name of the disk: from the reservation, else from the tags of the volume. -/
def findDiskName (data : ReservationData) (volumeId : Option String) : Lambda (Option String) :=
  match truthy volumeId, truthy data.diskName with
  | some volume, none =>
    orElseGive (do
      let tags ← ask (.volumeTags volume) id
      match tags with
      | some tags => return tags.lookup "disk_name"
      | none => return data.diskName) data.diskName
  | _, _ => return data.diskName

/-- The contents of a named disk: where they are listed, and their size. -/
def captureContents (userId : String) (diskName : Option String) :
    Lambda (Option String × Option String) :=
  match truthy diskName with
  | some disk =>
    orElseGive (do
      let _ ← wallClock
      ask (.captureContents (userId, disk)) id) (none, none)
  | none => return (none, none)

/-- The completion of a snapshot of a named disk is recorded. -/
def recordCompletion (userId : String) (diskName : Option String) (snapshotId : String) :
    Lambda Unit :=
  match truthy diskName with
  | some disk =>
    logged do
      let shown ← ask (.describeSnapshot snapshotId) id
      match shown.head? with
      | some snapshot =>
        updateDiskSnapshotCompleted (userId, disk) snapshotId snapshot.volumeSize
          (snapshot.tag "snapshot_content_s3") (snapshot.tag "disk_size")
      | none => pure ()
  | none => pure ()

/-- The volume is deleted, and a named disk given free. -/
def deleteVolume (userId volumeId : String) (diskName : Option String) : Lambda Unit :=
  logged do
    perform (.deleteVolume volumeId) id
    match truthy diskName with
    | some disk => logged (perform (.markNotInUse (userId, disk)) id)
    | none => pure ()

/-- What follows once there is a snapshot. -/
def finishSnapshot (userId volumeId : String) (diskName : Option String) :
    Option String → Lambda Unit
  | some snapshotId =>
    logged do
      perform (.waitCompleted snapshotId) id
      recordCompletion userId diskName snapshotId
      deleteVolume userId volumeId diskName
  | none => pure ()

/-- The shutdown snapshot of `cleanup_pod`; what comes before and after it leaves the counters
and the flag alone. -/
def shutdownSnapshot (data : ReservationData) : Lambda Unit :=
  logged do
    let (userId, volumeId) ← findStorage data
    let diskName ← findDiskName data volumeId
    match truthy userId, truthy volumeId with
    | some user, some volume => do
      let (contentS3Path, diskSize) ← captureContents user diskName
      let (snapshotId, _) ←
        safeCreateSnapshot volume user "shutdown" diskName contentS3Path diskSize
      finishSnapshot user volume diskName (truthy snapshotId)
    | _, _ => pure ()

/-! ### Runs -/

/-- The operations that run side by side. -/
inductive Job
  | create (volumeId userId snapshotType : String) (diskName contentS3Path diskSize : Option String)
  | cleanUp (data : ReservationData)
  | sync

def Job.program : Job → Program Op Op.Res Unit
  | create volumeId userId snapshotType diskName contentS3Path diskSize =>
    (safeCreateSnapshot volumeId userId snapshotType diskName contentS3Path diskSize).toEnd
  | cleanUp data => (shutdownSnapshot data).toEnd
  | sync => syncCompletedSnapshots.toEnd

/-- What happens meanwhile: snapshots are created and deleted and become complete, and the other
attributes of the disks change. -/
structure Surroundings (w w' : World) : Prop where
  pendingCount : w'.pendingCount = w.pendingCount
  snapshotCount : w'.snapshotCount = w.snapshotCount
  isBackingUp : w'.isBackingUp = w.isBackingUp
  raised : w'.raised = w.raised
  recorded : w'.recorded = w.recorded
  issued : w.issued ⊆ w'.issued
  /-- A snapshot that is complete does not start again. -/
  isRunning : ∀ id ∈ w.issued, w'.isRunning id = true → w.isRunning id = true

variable {ι : Type}

def start (job : ι → Job) (w : World) : System ι Op Op.Res Unit World :=
  ⟨w, fun i => (job i).program⟩

end CiInfra.GpuDev.SnapshotBookkeeping

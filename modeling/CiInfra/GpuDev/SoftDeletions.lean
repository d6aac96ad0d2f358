import CiInfra.GpuDev.SnapshotBookkeeping
import CiInfra.Lib.History

/-!
# Deleted disks and their snapshots

Deleting a disk marks its item with the date on which its snapshots are to go, and tags the
snapshots with that date. A synchronization tags those that were missed, by the items that are
marked, and a cleanup deletes the snapshots whose date has come. Creating or cloning a disk leaves
an item that exists as it is.
-/

namespace CiInfra.GpuDev.SoftDeletions

open Interaction Program Fallible
open SnapshotBookkeeping (DiskKey firstMax truthy)

/-! ### The disks table, the snapshots and what has been done to them -/

/-- An item of the disks table. -/
structure Item where
  sizeGb : Option ℤ := none
  createdAt : Option ℤ := none
  lastUsed : Option ℤ := none
  snapshotCount : Option ℤ := none
  pendingSnapshotCount : Option ℤ := none
  inUse : Option Bool := none
  isDeleted : Option Bool := none
  deleteDate : Option String := none
  markedDeletedAt : Option String := none
  clonedFrom : Option String := none
  cloneSourceSnapshot : Option String := none
  latestSnapshotContentS3 : Option String := none
  diskSize : Option String := none

/-- A snapshot with the tags that are read. -/
structure Snapshot where
  id : String
  /-- The tags `gpu-dev-user` and `disk_name`, where there are both. -/
  disk : Option DiskKey
  /-- The tag `delete-date`. -/
  deleteDate : Option String := none
  /-- The tag `marked-deleted-at`. -/
  markedDeletedAt : Option String := none
  completed : Bool := false
  startTime : ℤ := 0

/-- What has been done. -/
inductive Deed
  | deleted (key : DiskKey) (date : String)
  | requested (id : String) (key : DiskKey)
  | tagged (id date : String)
  | purged (id : String)
  deriving DecidableEq

/-- The items and the snapshots, each with what it has been, the latest first; the day; and what
has been done, the latest first. -/
structure World where
  items : DiskKey → List Item
  snapshots : String → List Snapshot
  today : String
  deeds : List Deed

namespace World

/-- `update_item`, which creates an item where there is none. -/
def updateItem (w : World) (key : DiskKey) (f : Item → Item) : World :=
  { w with items := Function.update w.items key (f ((w.items key).headD {}) :: w.items key) }

/-- The update of `process_delete_disk_action`. -/
def markDeleted (w : World) (key : DiskKey) (date markedAt : String) : World :=
  { w.updateItem key fun item =>
      { item with
        isDeleted := some true, deleteDate := some date, markedDeletedAt := some markedAt } with
    deeds := .deleted key date :: w.deeds }

/-- `put_item` of an item that does not exist. -/
def putItem (w : World) (key : DiskKey) (item : Item) : World := w.updateItem key fun _ => item

def request (w : World) (snapshot : Snapshot) : World :=
  { w with
    snapshots := Function.update w.snapshots snapshot.id (snapshot :: w.snapshots snapshot.id)
    deeds := (snapshot.disk.map (Deed.requested snapshot.id)).toList ++ w.deeds }

/-- `create_tags` of a snapshot. -/
def tag (w : World) (id date markedAt : String) : World :=
  { w with
    snapshots := Function.update w.snapshots id (((w.snapshots id).head?.map fun snapshot =>
      { snapshot with
        deleteDate := some date, markedDeletedAt := some markedAt }).toList ++ w.snapshots id)
    deeds := .tagged id date :: w.deeds }

def purge (w : World) (id : String) : World := { w with deeds := .purged id :: w.deeds }

end World

/-! ### The calls -/

inductive PutFailure
  | conditionalCheckFailed
  | other (text : String)

inductive Op
  | wallClock
  /-- `datetime.now().strftime('%Y-%m-%d')`. -/
  | today
  | markDeleted (key : DiskKey) (date markedAt : String)
  /-- `put_item` on condition that the item does not exist. -/
  | putIfAbsent (key : DiskKey) (item : Item)
  | getItem (key : DiskKey)
  /-- The items with `is_deleted`, on all pages. -/
  | scanDeleted
  /-- The snapshots with the tags of the disk. -/
  | describeOf (key : DiskKey)
  /-- Those that are completed, on all pages. -/
  | describeCompletedOf (key : DiskKey)
  | describeSnapshot (id : String)
  /-- The snapshots with the tag `delete-date`, on all pages. -/
  | describeTagged
  /-- Tag a snapshot with `delete-date` and `marked-deleted-at`. -/
  | createTags (id date markedAt : String)
  | deleteSnapshot (id : String)
  | describeVolumes (key : DiskKey)
  /-- The live snapshot of a volume, tagged for the disk. -/
  | createSnapshot (volumeId : String) (key : DiskKey)
  | waitCompleted (id : String)
  /-- `write_operation_result`. -/
  | writeResult (operationId status : String) (error : Option String)

/-- The answers; an error has the text of the exception. -/
def Op.Res : Op → Type
  | wallClock => ℤ
  | today => String
  | putIfAbsent _ _ => Except PutFailure Unit
  | getItem _ => Except String (Option Item)
  | scanDeleted => Except String (List (DiskKey × Item))
  | describeOf _ | describeCompletedOf _ | describeSnapshot _ | describeTagged =>
    Except String (List Snapshot)
  | describeVolumes _ => Except String (List String)
  | createSnapshot _ _ => Except String String
  | markDeleted .. | createTags .. | deleteSnapshot _ | waitCompleted _ | writeResult .. =>
    Except String Unit

/-- A listing shows snapshots as they are or were. It may miss what has just changed. -/
def World.Lists (w : World) (selects : Snapshot → Prop) (answer : Except String (List Snapshot)) :
    Prop :=
  ∀ shown, answer = .ok shown →
    ∀ snapshot ∈ shown, snapshot ∈ w.snapshots snapshot.id ∧ selects snapshot

/-- A scan shows items as they are or were. -/
def World.ShowsDeleted (w : World) (answer : Except String (List (DiskKey × Item))) : Prop :=
  ∀ shown, answer = .ok shown → ∀ x ∈ shown, x.2 ∈ w.items x.1 ∧ x.2.isDeleted = some true

/-- A write that raises may still have been carried out. -/
def Op.Serves : (op : Op) → World → op.Res → World → Prop
  | .today, w, answer, w' => w' = w ∧ answer = w.today
  | .markDeleted key date markedAt, w, answer, w' =>
    w' = w.markDeleted key date markedAt ∨ answer ≠ .ok () ∧ w' = w
  | .putIfAbsent key item, w, answer, w' =>
    w.items key = [] ∧ w' = w.putItem key item ∨ answer ≠ .ok () ∧ w' = w
  | .scanDeleted, w, answer, w' => w' = w ∧ w.ShowsDeleted answer
  | .describeOf key, w, answer, w' => w' = w ∧ w.Lists (fun s => s.disk = some key) answer
  | .describeCompletedOf key, w, answer, w' =>
    w' = w ∧ w.Lists (fun s => s.disk = some key ∧ s.completed = true) answer
  | .describeTagged, w, answer, w' => w' = w ∧ w.Lists (fun s => s.deleteDate.isSome) answer
  | .createTags id date markedAt, w, answer, w' =>
    w' = w.tag id date markedAt ∨ answer ≠ .ok () ∧ w' = w
  | .deleteSnapshot id, w, answer, w' => w' = w.purge id ∨ answer ≠ .ok () ∧ w' = w
  | .createSnapshot _ key, w, answer, w' =>
    (∃ snapshot : Snapshot, w.snapshots snapshot.id = [] ∧ snapshot.disk = some key ∧
      snapshot.deleteDate = none ∧ w' = w.request snapshot) ∨ (∀ id, answer ≠ .ok id) ∧ w' = w
  | _, w, _, w' => w' = w

abbrev Lambda := Fallible Op Op.Res String

/-- Make a call that may raise. -/
def ask {α : Type} (op : Op) (answer : op.Res → Except String α) : Lambda α := request op answer

def wallClock : Lambda ℤ := request .wallClock .ok

def today : Lambda String := request .today .ok

/-! ### The functions -/

/-- One step of the loops that tag snapshots. Gives the number of snapshots tagged. -/
def tagSnapshot (date : String) (markedAt : Lambda String) (snapshot : Snapshot) : Lambda ℕ :=
  if snapshot.deleteDate.isSome then return 0
  else
    orElseGive (do
      let markedAt ← markedAt
      ask (.createTags snapshot.id date markedAt) id
      return 1) 0

/-- The loop over the snapshots of a disk. -/
def tagSnapshotsOf (key : DiskKey) (date : String) (markedAt : Lambda String) : Lambda ℕ :=
  orElseGive (do
    let snapshots ← ask (.describeOf key) id
    let tagged ← collect (tagSnapshot date markedAt) snapshots
    return tagged.sum) 0

/-- One step of the loop over the deleted disks. -/
def syncDeletedDisk (disk : DiskKey × Item) : Lambda ℕ :=
  match truthy (some disk.1.1), truthy (some disk.1.2), truthy disk.2.deleteDate with
  | some user, some name, some date =>
    tagSnapshotsOf (user, name) date do
      let now ← wallClock
      return disk.2.markedDeletedAt.getD (toString now)
  | _, _, _ => return 0

/-- `sync_disk_deleted_snapshots`. -/
def syncDiskDeletedSnapshots : Lambda ℕ :=
  orElseGive (do
    let disks ← ask .scanDeleted id
    let tagged ← collect syncDeletedDisk disks
    return tagged.sum) 0

/-- One step of the loop in `cleanup_soft_deleted_snapshots`. -/
def purgeSnapshot (today : String) (snapshot : Snapshot) : Lambda ℕ :=
  let deleteDate := snapshot.deleteDate.getD ""
  if deleteDate ≠ "" ∧ deleteDate ≤ today then
    orElseGive (do
      ask (.deleteSnapshot snapshot.id) id
      return 1) 0
  else return 0

/-- `cleanup_soft_deleted_snapshots`. -/
def cleanupSoftDeletedSnapshots : Lambda ℕ := do
  let today ← today
  orElseGive (do
    let snapshots ← ask .describeTagged id
    let deleted ← collect (purgeSnapshot today) snapshots
    return deleted.sum) 0

structure DeleteMessage where
  action : Option String
  userId : Option String
  diskName : Option String
  deleteDate : Option String
  requestedAt : Option String

/-- `process_delete_disk_action`, with `none` for a body that cannot be read. Gives whether the
message is done with. -/
def processDeleteDiskAction : Option DeleteMessage → Lambda Bool
  | none => return false
  | some message =>
    match truthy message.action, truthy message.userId, truthy message.diskName,
      truthy message.deleteDate with
    | some _, some user, some disk, some date => do
      let now ← wallClock
      let markedDeletedAt := message.requestedAt.getD (toString now)
      orElseGive (do
        ask (.markDeleted (user, disk) date markedDeletedAt) id
        let _ ← tagSnapshotsOf (user, disk) date (return markedDeletedAt)
        return true) false
    | _, _, _, _ => return true

/-- `write_operation_result`, which does nothing without an operation. -/
def writeOperationResult (operationId : Option String) (status : String) (error : Option String) :
    Lambda Unit :=
  match truthy operationId with
  | some operation => logged (ask (.writeResult operation status error) id)
  | none => return ()

structure CreateMessage where
  action : Option String
  userId : Option String
  diskName : Option String
  operationId : Option String

/-- A disk as it is put in the table at first. -/
def newItem (now : ℤ) : Item where
  sizeGb := some 1024
  createdAt := some now
  lastUsed := some now
  snapshotCount := some 0
  pendingSnapshotCount := some 0
  inUse := some false
  isDeleted := some false

/-- `process_create_disk_action`. -/
def processCreateDiskAction : Option CreateMessage → Lambda Bool
  | none => return false
  | some message =>
    match truthy message.action, truthy message.userId, truthy message.diskName with
    | some _, some user, some disk => do
      let now ← wallClock
      let put ← request (.putIfAbsent (user, disk) (newItem now)) .ok
      match put with
      | .ok _ | .error .conditionalCheckFailed => do
        writeOperationResult message.operationId "completed" none
        return true
      | .error (.other text) => do
        writeOperationResult message.operationId "failed" (some text)
        return false
    | _, _, _ => return true

structure CloneMessage where
  userId : Option String
  sourceDisk : Option String
  targetDisk : Option String
  operationId : Option String

/-- The item of the clone is put in the table. -/
def putClone (user source target : String) (operationId : Option String) (snapshotId : String) :
    Lambda Bool := do
  let now ← wallClock
  let sourceItem ← orElseGive (ask (.getItem (user, source)) id) none
  let item : Item :=
    { newItem now with
      clonedFrom := some source
      cloneSourceSnapshot := some snapshotId
      latestSnapshotContentS3 := truthy (sourceItem.bind Item.latestSnapshotContentS3)
      diskSize := truthy (sourceItem.bind Item.diskSize) }
  let put ← request (.putIfAbsent (user, target) item) .ok
  match put with
  | .ok _ | .error .conditionalCheckFailed => do
    writeOperationResult operationId "completed" none
    return true
  | .error (.other text) => throw text

/-- A snapshot of the volume of a disk that has none yet, or `none` without a volume. -/
def liveSnapshot (key : DiskKey) : Lambda (Option String) := do
  let volumes ← ask (.describeVolumes key) id
  match volumes with
  | [] => return none
  | volume :: _ => do
    let snapshotId ← ask (.createSnapshot volume key) id
    ask (.waitCompleted snapshotId) id
    let shown ← ask (.describeSnapshot snapshotId) id
    match shown with
    | [] => throw "list index out of range"
    | snapshot :: _ => return some snapshot.id

/-- The snapshot that a clone refers to: the latest of the disk that is not to be deleted. -/
def cloneSource (key : DiskKey) : Lambda (Option String) := do
  let snapshots ← ask (.describeCompletedOf key) id
  match firstMax Snapshot.startTime (snapshots.filter fun s => s.deleteDate.isNone) with
  | some snapshot => return some snapshot.id
  | none => liveSnapshot key

/-- `process_clone_disk_action`. A body that cannot be read is an error in its handler too. -/
def processCloneDiskAction : Option CloneMessage → Lambda Bool
  | none => throw "cannot access local variable 'operation_id'"
  | some message =>
    match truthy message.userId, truthy message.sourceDisk, truthy message.targetDisk with
    | some user, some source, some target =>
      tryCatch (do
        let snapshot ← cloneSource (user, source)
        match snapshot with
        | some snapshotId => putClone user source target message.operationId snapshotId
        | none => do
          writeOperationResult message.operationId "failed"
            (some ("No snapshots or volumes found for source disk '" ++ source ++ "'."))
          return true)
        fun text => do
          writeOperationResult message.operationId "failed" (some text)
          return false
    | _, _, _ => return true

/-! ### Runs -/

inductive Job
  | deleteDisk (message : Option DeleteMessage)
  | createDisk (message : Option CreateMessage)
  | cloneDisk (message : Option CloneMessage)
  | sync
  | cleanUp

def Job.program : Job → Program Op Op.Res Unit
  | deleteDisk message => (processDeleteDiskAction message).toEnd
  | createDisk message => (processCreateDiskAction message).toEnd
  | cloneDisk message => (processCloneDiskAction message).toEnd
  | sync => syncDiskDeletedSnapshots.toEnd
  | cleanUp => cleanupSoftDeletedSnapshots.toEnd

/-- What happens meanwhile. -/
inductive Surroundings (w : World) : World → Prop
  /-- The cleanup of a pod requests a snapshot of a disk. -/
  | request (snapshot : Snapshot) (hnew : w.snapshots snapshot.id = [])
      (htag : snapshot.deleteDate = none) : Surroundings w (w.request snapshot)
  /-- A snapshot becomes complete. -/
  | complete (id : String) (snapshot : Snapshot) (hid : (w.snapshots id).head? = some snapshot) :
      Surroundings w { w with
        snapshots :=
          Function.update w.snapshots id ({ snapshot with completed := true } :: w.snapshots id) }
  /-- Another part of an item changes, as when a reservation mounts the disk. -/
  | change (key : DiskKey) (f : Item → Item)
      (hdeleted : ∀ item, (f item).isDeleted = item.isDeleted)
      (hdate : ∀ item, (f item).deleteDate = item.deleteDate) : Surroundings w (w.updateItem key f)
  /-- Days go by. -/
  | pass (day : String) (hday : w.today ≤ day) : Surroundings w { w with today := day }

variable {ι : Type}

def start (job : ι → Job) (w : World) : System ι Op Op.Res Unit World :=
  ⟨w, fun i => (job i).program⟩

end CiInfra.GpuDev.SoftDeletions

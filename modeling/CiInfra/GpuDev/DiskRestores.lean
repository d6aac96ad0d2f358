import CiInfra.GpuDev.SnapshotBookkeeping
import Mathlib.Data.Finset.Image

/-!
# Restoring disks

The volume of a reservation is made from the latest snapshot of a disk of the user, or it is empty
and the pod copies what the node has cached for the user. This file compares what is restored with
what belongs to the disk.
-/

namespace CiInfra.GpuDev.DiskRestores

open SnapshotBookkeeping (firstMax truthy userName)

/-! ### Volumes and snapshots -/

/-- The state of a snapshot. -/
inductive State
  | pending
  | completed
  | error
  | recoverable
  | recovering
  deriving DecidableEq

/-- The state in a message. -/
def State.text : State → String
  | .pending => "pending"
  | .completed => "completed"
  | .error => "error"
  | .recoverable => "recoverable"
  | .recovering => "recovering"

structure Snapshot where
  id : String
  state : State
  startTime : ℤ
  progress : Option String := none
  tags : List (String × String)
  deriving DecidableEq

/-- The value of a tag. -/
def Snapshot.tag (s : Snapshot) (key : String) : Option String := s.tags.lookup key

/-- The snapshot is not to be deleted. -/
def Snapshot.isKept (s : Snapshot) : Bool := (s.tag "delete-date").isNone

structure Volume where
  isInUse : Bool
  tags : List (String × String)

/-- The files of a directory: their paths, with what is in them. -/
abbrev Files := Finset (String × String)

/-- What the calls of the function find. -/
structure Account where
  /-- The volumes, at each look at them. -/
  volumes : ℕ → List Volume
  /-- The snapshots, in the order in which they are listed. -/
  snapshots : List Snapshot
  ids : (snapshots.map Snapshot.id).Nodup
  /-- The files that a snapshot has. -/
  files : String → Files
  /-- The `clone_source_snapshot` in the records of the disks. -/
  cloneSource : String × String → Option String

/-- A volume that is created, from a snapshot or empty. -/
structure NewVolume where
  availabilityZone : String
  source : Option Snapshot
  tags : List (String × String)
  deriving DecidableEq

inductive Failure
  /-- `SnapshotPendingError`. -/
  | snapshotPending (message : String)
  | error (message : String)
  deriving DecidableEq

/-- The volumes that are created on the way, and what the function gives: the volume, and whether it
is a new disk. -/
structure Outcome where
  created : List NewVolume
  result : Except Failure (NewVolume × Bool)

/-! ### `create_disk_from_snapshot_or_empty` -/

/-- A look at the volumes shows one of the disk in use. -/
def showsInUse (a : Account) (user disk : String) (look : ℕ) : Bool :=
  (a.volumes look).any fun v => v.isInUse && v.tags.lookup "gpu-dev-user" == some user &&
    v.tags.lookup "disk_name" == some disk

/-- The look after the wait, which has a number of looks of its own. -/
def lastLook (inUse : ℕ → Bool) : ℕ → ℕ → ℕ
  | 0, look => look
  | n + 1, look => if inUse look then lastLook inUse n (look + 1) else look + 1

/-- A named disk is still in use after two minutes, looked at every ten seconds. -/
def isStillInUse (a : Account) (user : String) (diskName : Option String) : Bool :=
  (truthy diskName).any fun disk =>
    showsInUse a user disk (lastLook (showsInUse a user disk) 12 0)

/-- The filters of `describe_snapshots`. -/
def isListed (user : String) (diskName : Option String) (state : State) (s : Snapshot) : Bool :=
  s.tag "gpu-dev-user" == some user && s.state == state &&
    (truthy diskName).all fun disk => s.tag "disk_name" == some disk

/-- `pending_snapshots`. -/
def pendingSnapshots (a : Account) (user : String) (diskName : Option String) : List Snapshot :=
  a.snapshots.filter (isListed user diskName .pending)

/-- `active_snapshots`. -/
def activeSnapshots (a : Account) (user : String) (diskName : Option String) : List Snapshot :=
  (a.snapshots.filter (isListed user diskName .completed)).filter Snapshot.isKept

/-- `describe_snapshots` with the id of a snapshot. There is an error if it does not exist. -/
def describeSnapshot (a : Account) (id : String) : Except Failure (List Snapshot) :=
  match a.snapshots.filter (·.id = id) with
  | [] => .error (.error ("The snapshot '" ++ id ++ "' does not exist."))
  | found => .ok found

/-- The snapshot that a named disk is cloned from. -/
def cloneSnapshot (a : Account) (user : String) (diskName : Option String) :
    Except Failure (Option Snapshot) :=
  match (truthy diskName).bind fun disk => truthy (a.cloneSource (user, disk)) with
  | none => .ok none
  | some source => do
    match ← describeSnapshot a source with
    | [] => return none
    | s :: _ =>
      match s.state with
      | .pending => throw (.snapshotPending ("Waiting for cloned disk snapshot " ++ source ++
          " to complete (" ++ s.progress.getD "unknown" ++ ")"))
      | .completed => return some s
      | state => throw (.error ("Clone source snapshot " ++ source ++ " is " ++ state.text))

/-- The tags of a volume that is made from a snapshot, or empty for want of one. -/
def diskTags (user : String) (diskName : Option String) (now : ℤ) : List (String × String) :=
  [("gpu-dev-user", user),
    ("Name", "gpu-dev-disk-" ++ userName user ++
      ((truthy diskName).map fun disk => "-" ++ disk).getD ""),
    ("Project", "gpu-dev-servers"),
    ("ManagedBy", "gpu-dev-cli"),
    ("disk_name", (truthy diskName).getD "default"),
    ("created_at", toString now),
    ("last_used", toString now)]

/-- The tags of a volume that the cache is to fill. -/
def cacheTags (user : String) (diskName : Option String) : List (String × String) :=
  [("gpu-dev-user", user),
    ("Name", "gpu-dev-persistent-" ++ userName user),
    ("Project", "gpu-dev-servers"),
    ("ManagedBy", "gpu-dev-cli"),
    ("ActiveVolume", "true"),
    ("RestoreSource", "nvme-cache")] ++
  ((truthy diskName).map fun disk => ("disk_name", disk)).toList

/-- Create a volume and give it. -/
def create (v : NewVolume) (isNewDisk : Bool) : Outcome := ⟨[v], .ok (v, isNewDisk)⟩

/-- End without a volume. -/
def fail (e : Failure) : Outcome := ⟨[], .error e⟩

/-- `create_disk_from_snapshot_or_empty`. -/
def createDiskFromSnapshotOrEmpty (a : Account) (user availabilityZone : String)
    (diskName : Option String) (skipSnapshotRestore : Bool) (now : ℤ) : Outcome :=
  if isStillInUse a user diskName then
    fail (.error ("Disk '" ++ diskName.getD "" ++ "' is still in use after waiting 120s"))
  else if skipSnapshotRestore then
    create ⟨availabilityZone, none, cacheTags user diskName⟩ true
  else
    match firstMax Snapshot.startTime (pendingSnapshots a user diskName) with
    | some latest => fail (.snapshotPending ("Waiting for disk snapshot " ++ latest.id ++
        " to complete (" ++ latest.progress.getD "unknown" ++ ")"))
    | none =>
      let restore (s : Snapshot) := create ⟨availabilityZone, some s, diskTags user diskName now⟩
        (s.tag "SnapshotType" == some "initial")
      match firstMax Snapshot.startTime (activeSnapshots a user diskName) with
      | some latest => restore latest
      | none =>
        match cloneSnapshot a user diskName with
        | .error e => fail e
        | .ok (some s) => restore s
        | .ok none => create ⟨availabilityZone, none, diskTags user diskName now⟩ true

/-! ### The home directory -/

/-- What each node has cached, by the name of the directory. There may be nothing. -/
abbrev Caches := String → String → Files

/-- `_nvme_cache_user_dir`. -/
def nvmeCacheUserDir (user : String) : String :=
  String.ofList (user.toList.flatMap fun c =>
    if c = '@' then "_at_".toList else if c = '.' then ['_'] else [c])

/-- The files of the first directory, over those of the second. -/
def rsync (src dst : Files) : Files := src ∪ dst.filter fun f => f.1 ∉ src.image Prod.fst

/-- The home directory that `create_pod` starts with: the files of the volume, and on a hit those
that the node has cached for the user over them, if it has any. -/
def startHome (caches : Caches) (node user : String) (nvmeCacheHit : Bool) (volume : Files) :
    Files :=
  let cached := caches node (nvmeCacheUserDir (if user = "" then "dev" else user))
  if nvmeCacheHit && cached ≠ ∅ then rsync cached volume else volume

/-- The files of a volume. -/
def volumeFiles (a : Account) (source : Option Snapshot) : Files :=
  (source.map fun s => a.files s.id).getD ∅

end CiInfra.GpuDev.DiskRestores

import CiInfra.GpuDev.Placement
import CiInfra.Lib.Overwriting
import CiInfra.Lib.Passes
import CiInfra.Lib.PythonNumber

/-!
# Spot groups

The nodes of a spot type are in an Auto Scaling group, which the availability updater scales to zero
when no reservation needs it any more. It goes by the types in the records of the reservations,
which another function rewrites once a pod runs, and by a tag of the group.
-/

namespace CiInfra.GpuDev.SpotGroups

open Interaction (Paging)

/-! ### The types in the records -/

/-- `mig_resource_to_sku`. -/
def migResourceToSku : List (String × String) :=
  [("nvidia.com/mig-1g.10gb", "h100-mig-1g"), ("nvidia.com/mig-1g.20gb", "h100-mig-1g"),
    ("nvidia.com/mig-2g.20gb", "h100-mig-2g"), ("nvidia.com/mig-3g.40gb", "h100-mig-3g"),
    ("nvidia.com/mig-4g.40gb", "h100-mig-4g"), ("nvidia.com/mig-7g.80gb", "h100-mig-7g"),
    ("nvidia.com/mig-1g.23gb", "b200-mig-1g"), ("nvidia.com/mig-2g.45gb", "b200-mig-2g"),
    ("nvidia.com/mig-3g.90gb", "b200-mig-3g")]

/-- `gpu_type_mapping`. -/
def gpuTypeMapping : List (String × String) :=
  [("g4dn.4xlarge", "T4"), ("g4dn.8xlarge", "T4"), ("g4dn.12xlarge", "T4"),
    ("g4dn.16xlarge", "T4"), ("g5.12xlarge", "A10G"), ("g5g.2xlarge", "G5G"),
    ("g6.12xlarge", "L4"), ("g6.16xlarge", "L4"), ("g6.24xlarge", "L4"),
    ("g7e.24xlarge", "rtxpro6000"), ("p4d.24xlarge", "A100"), ("p5.48xlarge", "H100"),
    ("p5e.48xlarge", "H200"), ("p5en.48xlarge", "H200"), ("p6-b200.48xlarge", "B200"),
    ("p6-b300.48xlarge", "B300"), ("c6id.2xlarge", "cpu-spot")]

/-- What is read of a pod: its node, if it has one, the label of that with the instance type, and
the requests of the containers. -/
structure PodView where
  nodeName : Option String
  instanceType : Option String
  requests : List (List (String × String))

/-- The slice that a pod requests. -/
def PodView.sku (pod : PodView) : Option String :=
  pod.requests.findSome? fun requests => migResourceToSku.findSome? fun e =>
    if (requests.lookup e.1).any (· ≠ "") then some e.2 else none

/-- `get_instance_type_and_gpu_info`. There is no pod if a call raises. -/
def getInstanceTypeAndGpuInfo (pod : Option PodView) : String × String :=
  match pod.filter fun pod => pod.nodeName.any (· ≠ "") with
  | none => ("unknown", "unknown")
  | some pod =>
    let instanceType := pod.instanceType.getD "unknown"
    (instanceType, pod.sku.getD ((gpuTypeMapping.lookup instanceType).getD "Unknown"))

/-- A reservation: its record, and the type that the user asked for. -/
structure Reservation where
  id : String
  requested : String
  status : String
  gpuType : Option String
  instanceType : Option String := none

/-- What `update_reservation_connection_info` writes of this. -/
def Reservation.connect (r : Reservation) (pod : Option PodView) : Reservation :=
  { r with
    status := "active"
    instanceType := some (getInstanceTypeAndGpuInfo pod).1
    gpuType := some (getInstanceTypeAndGpuInfo pod).2 }

/-! ### The availability updater -/

/-- An Auto Scaling group. -/
structure Group where
  desiredCapacity : ℕ
  tags : List (String × String)

/-- The settings of the availability updater. -/
structure Settings where
  /-- `SPOT_GPU_TYPES`. -/
  spotGpuTypes : String
  /-- The keys of `SUPPORTED_GPU_TYPES`. -/
  supported : List String
  /-- `SPOT_KEEPALIVE_MINUTES`. -/
  keepaliveMinutes : ℚ
  asgNamePrefix : String

/-- `s.strip()`. -/
def strip (s : String) : String := String.ofList (PythonNumber.strip s.toList)

/-- `s.lower()`. -/
def lower (s : String) : String := String.ofList (s.toList.map Char.toLower)

/-- `spot_list`. -/
def Settings.spotList (c : Settings) : List String :=
  if c.spotGpuTypes = "" then []
  else if strip c.spotGpuTypes = "all" then c.supported
  else (c.spotGpuTypes.toList.splitOn ',').map fun t => strip (String.ofList t)

/-- The name of the group of a spot type. -/
def Settings.asg (c : Settings) (st : String) : String := c.asgNamePrefix ++ "-" ++ st

/-- The reservations and the groups, with a record of when a run last took a reservation for one
that needs the group of a spot type. -/
structure World where
  reservations : List Reservation
  groups : String → Option Group
  lastSeen : String → Option ℚ

/-- What the calls for one spot type find: whether one raises, how queries are cut into pages, the
clock, and whether the tag can be written. -/
structure Visit where
  raises : Bool
  paging : Paging Reservation
  now : ℚ
  stamps : Bool

/-- The statuses that are looked at. -/
def liveStatuses : List String := ["active", "preparing", "queued", "pending"]

/-- `SPOT_LAST_ACTIVE_TAG`. -/
def spotLastActiveTag : String := "gpu-dev/spot-last-active"

/-- The records that a query gives for a status. -/
def listed (w : World) (v : Visit) (status : String) : List Reservation :=
  v.paging.firstPage (w.reservations.filter (·.status = status))

/-- `has_active`. -/
def hasActive (w : World) (v : Visit) (st : String) : Bool :=
  liveStatuses.any fun status => (listed w v status).any fun item =>
    lower (item.gpuType.getD "") == lower st

/-- `last_active`. -/
def Group.lastActive (g : Group) : ℤ :=
  match (g.tags.lookup spotLastActiveTag).filter (· ≠ "") with
  | none => 0
  | some value => (PythonNumber.int? value.toList).getD 0

/-- The group has been idle for longer than the grace period, or it is not known for how long. -/
def Settings.isIdle (c : Settings) (g : Group) (now : ℚ) : Bool :=
  g.lastActive = 0 || !decide (now - g.lastActive < c.keepaliveMinutes * 60)

/-- The group of a spot type is up, and idle. -/
def isDue (c : Settings) (w : World) (v : Visit) (st : String) : Bool :=
  (w.groups (c.asg st)).any fun g => 0 < g.desiredCapacity && c.isIdle g v.now

/-- The group of a spot type is scaled to zero. -/
def scalesDown (c : Settings) (w : World) (v : Visit) (st : String) : Bool :=
  !v.raises && !hasActive w v st && isDue c w v st

/-- `create_or_update_tags` with the time. -/
def Group.stamp (g : Group) (now : ℚ) : Group :=
  { g with
    tags := Overwriting.write g.tags spotLastActiveTag (toString (PythonNumber.truncate now)) }

/-- Change the group of a spot type, if there is one. -/
def World.updateGroup (w : World) (name : String) (f : Group → Group) : World :=
  { w with groups := Function.update w.groups name ((w.groups name).map f) }

/-- A reservation for the spot type was seen. -/
def World.see (w : World) (st : String) (now : ℚ) : World :=
  { w with lastSeen := Function.update w.lastSeen st (some now) }

theorem World.groups_updateGroup (w : World) (name : String) (f : Group → Group) :
    (w.updateGroup name f).groups = Function.update w.groups name ((w.groups name).map f) := rfl

theorem World.lastSeen_see (w : World) (st : String) (now : ℚ) :
    (w.see st now).lastSeen = Function.update w.lastSeen st (some now) := rfl

theorem World.groups_see (w : World) (st : String) (now : ℚ) : (w.see st now).groups = w.groups :=
  rfl

/-- The part of `handler` that is about one spot type. An error ends it. -/
def visit (c : Settings) (w : World) (v : Visit) (st : String) : World :=
  if v.raises then w
  else if hasActive w v st then
    if v.stamps then (w.updateGroup (c.asg st) (·.stamp v.now)).see st v.now else w.see st v.now
  else if isDue c w v st then
    w.updateGroup (c.asg st) fun g => { g with desiredCapacity := 0 }
  else w

/-! ### Runs -/

/-- What happens: a reservation is made, gets another status, or is connected to its pod; a group is
changed by others; or a run of the updater gets to a spot type. -/
inductive Step
  | reserve (r : Reservation)
  | move (id status : String)
  | connect (id : String) (pod : Option PodView)
  | change (name : String) (g : Option Group)
  | visit (v : Visit) (st : String)

/-- Change the record of a reservation. -/
def World.updateRecord (w : World) (id : String) (f : Reservation → Reservation) : World :=
  { w with reservations := w.reservations.map fun r => if r.id = id then f r else r }

/-- One step. Only the spot types of the settings are visited. -/
def step (c : Settings) (w : World) : Step → World
  | .reserve r =>
    { w with reservations := { r with gpuType := some r.requested } :: w.reservations }
  | .move id status => w.updateRecord id fun r => { r with status }
  | .connect id pod => w.updateRecord id (·.connect pod)
  | .change name g => { w with groups := Function.update w.groups name g }
  | .visit v st => if st ∈ c.spotList then visit c w v st else w

end CiInfra.GpuDev.SpotGroups

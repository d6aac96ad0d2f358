import CiInfra.GpuDev.Endings
import CiInfra.GpuDev.QueueManagement

/-!
# What each program touches

For each program of the Lambdas, the calls it can make whatever it is answered: on which records
and with what kind of writes, and on which pods. Each fact is proved once, from the program's own
steps and the facts about what it runs; the results about histories rest on these.
-/

namespace CiInfra.GpuDev

open Interaction Fallible

/-- The statuses that are ever written to a reservation. -/
def writtenStatuses : List String :=
  ["pending", "queued", "preparing", "creating_server", "active", "failed", "cancelled", "expired"]

/-- The attributes from which `allocate_gpu_resources` takes its parameters. -/
def parameterNames : List String :=
  ["gpu_count", "gpu_type", "user_id", "recreate_env", "fast_cache", "disk_name", "is_multinode",
    "node_index", "total_nodes", "github_user", "dockerfile", "dockerimage", "preserve_entrypoint",
    "node_labels", "no_persistent_disk", "ref", "name", "duration_hours", "jupyter_enabled",
    "multinode_peer_pods"]

/-- The update names no parameter of an allocation but those that an allocation itself writes. -/
def Update.KeepsParameters : Update → Prop
  | set fields => ∀ f ∈ fields, f.1 ∈ parameterNames →
    f.1 ∈ ["disk_name", "gpu_type", "jupyter_enabled"]
  | append name _ => name ∉ parameterNames

/-- An update as they are made: it leaves the status and the cancellation mark alone or writes
one of the statuses, and it keeps the parameters of the allocation. -/
structure Update.IsLawful (u : Update) : Prop where
  status : u.IsNeutral ∨ ∃ s ∈ writtenStatuses, u.status = some (.text s)
  parameters : u.KeepsParameters

/-- The pod that an update names. -/
def Update.podName : Update → Option Value
  | set fields => Attributes.ofList fields "pod_name"
  | append _ _ => none

/-- A lawful update that does not name a pod. -/
structure Update.IsPlain (u : Update) : Prop extends u.IsLawful where
  pod : u.podName = none

/-- A put of cached SSH keys. -/
def IsKeyCachePut (item : Attributes) (condition : Option Condition) : Prop :=
  ∃ user, item.key = sshKeyCacheKey user ∧ condition = none

/-- A call made in the processing of a reservation: it writes no other record and names no other
pod in it, puts only records of a kind and only where none has been terminated, creates no other
pod, and takes none out of the pool. -/
def Op.IsFor (r : String) (puts : Attributes → Prop) : Op → Prop
  | updateItem id u => id = r ∧ u.IsLawful ∧
    (u.podName = none ∨ u.podName = some (.text (podNameOf r)))
  | putItem item condition =>
    (item.key = r ∧ condition = some .notTerminated ∧ puts item) ∨ IsKeyCachePut item condition
  | deleteItem _ => False
  | createPod name _ => name = podNameOf r
  | patchPod _ _ _ => False
  | _ => True

/-- A kind of calls that has all those that change nothing. -/
class AllowsQuiet (P : Op → Prop) : Prop where
  quiet : ∀ op, op.IsQuiet = true → P op

/-- A kind of calls that also has the updates of one record that do not name a pod. -/
class Covers (r : String) (P : Op → Prop) : Prop extends AllowsQuiet P where
  update : ∀ u, u.IsPlain → P (.updateItem r u)

/-- A kind of calls that also has those by which a reservation is set up: cached keys, a volume,
its own pod, and the removal of pods that are in the way. -/
class Serves (r : String) (P : Op → Prop) : Prop extends Covers r P where
  cache : ∀ item user, item.key = sshKeyCacheKey user → P (.putItem item none)
  deletePod : ∀ name, P (.deletePod name)
  createVolume : ∀ volumeId v, P (.createVolume volumeId v)
  createPod : ∀ pod, P (.createPod (podNameOf r) pod)

/-- A kind of calls that also has the update that makes a reservation active with its own pod. -/
class Connects (r : String) (P : Op → Prop) : Prop extends Serves r P where
  connection : ∀ u : Update, u.IsLawful → u.podName = some (.text (podNameOf r)) →
    P (.updateItem r u)

/-- A kind of calls that has those for any reservation. -/
class Pervades (P : Op → Prop) : Prop extends AllowsQuiet P where
  connects : ∀ r, Connects r P

instance {r : String} {P : Op → Prop} [Pervades P] : Connects r P := Pervades.connects r

instance {r : String} {puts : Attributes → Prop} : Connects r (Op.IsFor r puts) where
  quiet op _ := by cases op <;> trivial
  update _ hu := ⟨rfl, hu.toIsLawful, Or.inl hu.pod⟩
  cache _ user h := Or.inr ⟨user, h, rfl⟩
  deletePod _ := trivial
  createVolume _ _ := trivial
  createPod _ := rfl
  connection _ hu hpod := ⟨rfl, hu, Or.inr hpod⟩

section Looking

variable {P : Op → Prop}

/-! ### Calls that change nothing -/

theorem issues_floatOf (a : Attributes) (name : String) (d : ℚ) :
    (floatOf a name d).Issues P := by
  unfold floatOf
  split <;> trivial

theorem issues_required (a : Attributes) (name : String) :
    (required a name).Issues P := by
  unfold required
  split <;> trivial

theorem meets_floatOf {A : Program.Event Op Op.Res → Prop} (a : Attributes) (name : String)
    (d : ℚ) : (floatOf a name d).Meets A P (fun q => q = a.number name d) fun _ => True := by
  unfold floatOf
  split
  · exact meets_pure (by simp [Attributes.number, *])
  · exact meets_pure (by simp [Attributes.number, *])
  · exact meets_throw trivial

theorem meets_required {A : Program.Event Op Op.Res → Prop} (a : Attributes) (name : String) :
    (required a name).Meets A P (fun v => a name = some v) fun _ => True := by
  unfold required
  split
  · exact meets_pure ‹_›
  · exact meets_throw trivial

variable [AllowsQuiet P]

/-- A call that changes nothing. -/
theorem issues_quiet {α : Type} {op : Op} {answer : op.Res → Except Failure α}
    (h : op.IsQuiet = true) : (request op answer : Lambda α).Issues P :=
  issues_request (AllowsQuiet.quiet op h)

theorem issues_reservationIsTerminated (id : String) :
    (reservationIsTerminated id).Issues P := (issues_quiet rfl).bind fun _ => trivial

theorem issues_calculateQueuePositionAndWaitTime (id gpuType : String) :
    (calculateQueuePositionAndWaitTime id gpuType).Issues P := by
  refine Issues.orElseGive ?_ _
  exact (issues_quiet rfl).bind fun _ => (issues_quiet rfl).bind fun _ =>
    (issues_quiet rfl).bind fun _ => (Issues.orElseGive (issues_quiet rfl) _).bind fun _ => trivial

theorem issues_getGithubPublicKey
    (hcache : ∀ item user, item.key = sshKeyCacheKey user → P (.putItem item none))
    (user : String) :
    (getGithubPublicKey user).Issues P := by
  refine (issues_quiet rfl).bind fun cached => ?_
  split
  · trivial
  · refine Issues.bind (Issues.orElseGive ?_ _) fun stored => ?_
    · exact (issues_quiet rfl).bind fun _ => (issues_quiet rfl).bind fun _ => trivial
    split
    · trivial
    · refine Issues.orElseGive ((issues_quiet rfl).bind fun keys => ?_) _
      split
      · trivial
      · refine (issues_quiet rfl).bind fun now => (Issues.logged (issues_request ?_)).bind
          fun _ => trivial
        exact hcache _ user.toLower rfl

theorem issues_verifyJupyter (podName : String) (jupyterEnabled : Bool) :
    (verifyJupyter podName jupyterEnabled).Issues P := by
  unfold verifyJupyter
  split
  · refine Issues.orElseGive ((issues_quiet rfl).bind fun running => ?_) _
    split
    · trivial
    · exact (issues_quiet rfl).bind fun _ => trivial
  · trivial

theorem issues_getAvailable (gpuType : String) (n : Node) :
    (getAvailableGpusOnNode gpuType n).Issues P := by
  refine Issues.orElseGive ?_ _
  dsimp only
  split
  · trivial
  · exact (issues_quiet rfl).bind fun _ => trivial

theorem issues_roomOnNodes (gpuType : String) : (roomOnNodes gpuType).Issues P :=
  (issues_quiet rfl).bind fun _ => Issues.collect fun n _ => issues_getAvailable gpuType n

theorem issues_checkSchedulableGpusForType (gpuType : String) :
    (checkSchedulableGpusForType gpuType).Issues P := by
  refine Issues.orElseGive ?_ _
  exact (issues_roomOnNodes gpuType).bind fun _ => trivial

theorem issues_checkGpuAvailability (gpuType : String) :
    (checkGpuAvailability gpuType).Issues P :=
  (issues_checkSchedulableGpusForType gpuType).bind fun _ =>
    (Issues.logged (issues_quiet rfl)).bind fun _ => trivial

theorem issues_checkMaxGpusOnSingleNode (gpuType : String) :
    (checkMaxGpusOnSingleNode gpuType).Issues P := by
  refine Issues.orElseGive ?_ _
  exact (issues_roomOnNodes gpuType).bind fun _ => trivial

theorem issues_evict (hdelete : ∀ name, P (.deletePod name)) (resource : String)
    (gpusRequested : ℕ) (pods : List NamedPod) (nodes : List ReadyNode) :
    (evictOnFirstNode resource gpusRequested pods nodes).Issues P := by
  induction nodes with
  | nil => trivial
  | cons n nodes ih =>
    rw [evictOnFirstNode]
    split
    · refine Issues.bind (Issues.forM fun p _ => Issues.whenever _ (Issues.logged ?_))
        fun _ => trivial
      exact (issues_request (hdelete p.1)).bind fun _ => Issues.logged (issues_quiet rfl)
    · exact ih

theorem issues_evictWarmForCapacity (hdelete : ∀ name, P (.deletePod name)) (gpuType : String)
    (gpusRequested : ℕ) (nodes : List ReadyNode) :
    (evictWarmForCapacity gpuType gpusRequested nodes).Issues P := by
  refine Issues.orElseGive ?_ _
  exact (issues_quiet rfl).bind fun pods => issues_evict hdelete _ _ pods _

theorem issues_findSnapshot (user : String) (diskName : Option String) :
    (findSnapshot user diskName).Issues P := by
  refine (issues_quiet rfl).bind fun pending => ?_
  split
  · exact (issues_quiet rfl).bind fun _ => trivial
  · refine (issues_quiet rfl).bind fun own => ?_
    split
    · exact (issues_quiet rfl).bind fun _ => trivial
    · split
      · trivial
      · refine (issues_quiet rfl).bind fun cloned => ?_
        split
        · trivial
        · refine (issues_quiet rfl).bind fun state => ?_
          split
          · trivial
          · split
            · exact (issues_quiet rfl).bind fun _ => trivial
            · trivial

theorem issues_getTargetAz (cfg : Settings) (gpuType : String) (gpusRequested : ℕ)
    (hdelete : ∀ name, P (.deletePod name)) :
    (getTargetAzForReservation cfg gpuType gpusRequested).Issues P := by
  refine Issues.orElseGive ?_ _
  refine (issues_quiet rfl).bind fun nodes => Issues.bind (Issues.collect fun n _ => ?_)
    fun ready => ?_
  · exact (issues_getAvailable gpuType n.1).bind fun _ => trivial
  unfold selectNode
  split
  · trivial
  · split
    · refine (issues_evictWarmForCapacity hdelete _ _ _).bind fun evicted => ?_
      split <;> trivial
    · trivial

theorem issues_createAvailableVolume (v : Volume)
    (hcreate : ∀ volumeId v, P (.createVolume volumeId v)) :
    (createAvailableVolume v).Issues P :=
  (issues_quiet rfl).bind fun _ => (issues_request (hcreate _ _)).bind fun _ =>
    (issues_quiet rfl).bind fun _ => trivial

theorem issues_getItemOrEmpty (id : String) : (getItemOrEmpty id).Issues P :=
  (issues_quiet rfl).bind fun _ => trivial

theorem issues_decideActive (message : String) (pod : PodObservation) (preserveEntrypoint : Bool)
    (currentStatus : Option String) (ddbStatus : String) :
    (decideActive r message pod preserveEntrypoint currentStatus ddbStatus).Issues
      P := by
  unfold decideActive
  split
  · trivial
  · split
    · trivial
    · split
      · refine Issues.orElseGive ?_ _
        refine (issues_getItemOrEmpty r).bind fun item => ?_
        split <;> trivial
      · trivial

theorem issues_findService (name : String) : (findService name).Issues P := by
  refine Issues.tryCatch ?_ fun e => ?_
  · exact (issues_quiet rfl).bind fun _ => trivial
  · cases e <;> trivial

theorem issues_podExists (name : String) : (podExists name).Issues P := by
  refine Issues.tryCatch ?_ fun e => ?_
  · exact (issues_quiet rfl).bind fun _ => trivial
  · cases e <;> trivial

theorem issues_portOr (port : Option ℚ) : (portOr port).Issues P := by
  cases port with
  | none => exact Issues.orElseGive (issues_quiet rfl) _
  | some port => trivial

/-- The fields of a record are written in one update. -/
theorem issues_fields {r : String} {fields : List (String × Value)}
    (h : ∀ v, P (.updateItem r (.set (("last_updated", v) :: fields)))) :
    (updateReservationFields r fields).Issues P :=
  Issues.logged (Issues.whenever _ ((issues_quiet rfl).bind fun _ => issues_request (h _)))

/-- The connection of a reservation is written in one update. -/
theorem issues_connectionInfo {r : String} {info : ConnectionInfo}
    (h : ∀ v expiresAt launchedAt instanceType gpuType token jupyter,
      P (.updateItem r (.set (("last_updated", v) ::
        activeFields info expiresAt launchedAt instanceType gpuType token jupyter)))) :
    (updateReservationConnectionInfo r info).Issues P := by
  refine (issues_quiet rfl).bind fun item => ?_
  split
  · trivial
  · refine (issues_floatOf _ _ _).bind fun _ => (issues_quiet rfl).bind fun _ =>
      (issues_quiet rfl).bind fun _ => (Issues.orElseGive (issues_quiet rfl) _).bind fun _ =>
      (Issues.orElseGive (issues_quiet rfl) _).bind fun _ =>
      (Issues.orElseGive (issues_quiet rfl) _).bind fun _ => (issues_verifyJupyter _ _).bind
        fun _ => (issues_fields fun v => h v _ _ _ _ _ _).bind fun _ => ?_
    split
    · exact Issues.logged (issues_quiet rfl)
    · trivial

end Looking

section Reservation

variable {r : String} {P : Op → Prop} [Covers r P]

/-! ### Writing the record -/

theorem issues_updateItem {u : Update} (h : u.IsPlain) :
    (updateItem r u).Issues P := issues_request (Covers.update u h)

theorem issues_updateReservationFields {fields : List (String × Value)}
    (h : ∀ v, (Update.set (("last_updated", v) :: fields)).IsPlain) :
    (updateReservationFields r fields).Issues P := issues_fields fun v => Covers.update _ (h v)

theorem Update.isPlain_of_neutral {fields : List (String × Value)}
    (h : ∀ f ∈ fields, f.1 ≠ "status" ∧ f.1 ≠ "cancelled_at" ∧ f.1 ≠ "pod_name" ∧
      f.1 ∉ parameterNames) (v : Value) :
    (Update.set (("last_updated", v) :: fields)).IsPlain where
  status := Or.inl (List.forall_mem_cons.mpr ⟨by simp, fun f hf => ⟨(h f hf).1, (h f hf).2.1⟩⟩)
  parameters := List.forall_mem_cons.mpr ⟨by simp [parameterNames],
    fun f hf hname => ((h f hf).2.2.2 hname).elim⟩
  pod := Attributes.ofList_eq_none (List.forall_mem_cons.mpr ⟨by simp,
    fun f hf => (h f hf).2.2.1⟩)

theorem issues_appendStatusHistory (timestamp message : String) :
    (appendStatusHistory r timestamp message).Issues P := by
  refine Issues.tryCatch (issues_updateItem ⟨⟨Or.inl ?_, ?_⟩, rfl⟩)
    fun _ => issues_updateItem ⟨⟨Or.inl ?_, ?_⟩, rfl⟩
  · exact ⟨by decide, by decide⟩
  · simp [Update.KeepsParameters, parameterNames]
  · simp [Update.IsNeutral]
  · simp [Update.KeepsParameters, parameterNames]

theorem Update.isPlain_statusFields {s : String} (hs : s ∈ writtenStatuses) (d f : String)
    (v : Value) : (Update.set (("last_updated", v) :: statusFields s d f)).IsPlain where
  status := by
    refine Or.inr ⟨s, hs, ?_⟩
    by_cases hd : d = "" <;> by_cases hf : f ≠ "" ∧ s = "failed" <;>
      simp [Update.status, statusFields, Attributes.ofList, hd, hf, List.lookup_cons]
  parameters := by
    by_cases hd : d = "" <;> by_cases hf : f ≠ "" ∧ s = "failed" <;>
      simp [Update.KeepsParameters, statusFields, hd, hf, parameterNames]
  pod := by
    by_cases hd : d = "" <;> by_cases hf : f ≠ "" ∧ s = "failed" <;>
      simp [Update.podName, statusFields, Attributes.ofList, hd, hf, List.lookup_cons]

theorem issues_updateReservationStatus {s : String} (hs : s ∈ writtenStatuses) (d f : String) :
    (updateReservationStatus r s d f).Issues P :=
  Issues.logged ((issues_quiet rfl).bind fun _ =>
    (issues_updateReservationFields (Update.isPlain_statusFields hs d f)).bind fun _ =>
      Issues.whenever _ (issues_appendStatusHistory _ _).logged)

theorem issues_updateReservationWithQueueInfo (position wait : Value) (availableGpus : ℕ) :
    (updateReservationWithQueueInfo r position wait availableGpus).Issues P :=
  Issues.logged ((issues_quiet rfl).bind fun _ =>
    issues_updateReservationFields (Update.isPlain_of_neutral (by simp [parameterNames])))

/-! ### Connection -/

/-- The names of the optional fields. -/
theorem optionalFields_names (info : ConnectionInfo) (jupyterError : String) :
    ∀ f ∈ optionalFields info jupyterError,
      f.1 ∈ ["ssh_command", "node_port", "node_ip", "pod_ip", "ebs_volume_id",
        "ebs_volume_reserved", "ebs_availability_zone", "jupyter_error", "domain_name",
        "alb_config"] := by
  intro f hf
  simp only [optionalFields, List.mem_append] at hf
  obtain (((((hf | hf) | hf) | hf) | hf) | hf) | hf := hf
  · split at hf
    · cases hf
    · simp only [List.mem_cons, List.not_mem_nil, or_false] at hf
      rcases hf with rfl | rfl | rfl <;> simp
  · split at hf <;> simp at hf
    simp [hf]
  · cases hvolume : info.persistentVolumeId <;> simp [hvolume] at hf
    rcases hf with rfl | rfl <;> simp
  · cases hzone : info.ebsAvailabilityZone <;> simp [hzone] at hf
    simp [hf]
  · split at hf <;> simp at hf
    simp [hf]
  · cases hdomain : info.domainName <;> simp [hdomain] at hf
    simp [hf]
  · cases hconfig : info.albConfig <;> simp [hconfig] at hf
    simp [hf]

theorem optionalFields_ne (info : ConnectionInfo) (jupyterError : String) {name : String}
    (h : name ∉ ["ssh_command", "node_port", "node_ip", "pod_ip", "ebs_volume_id",
      "ebs_volume_reserved", "ebs_availability_zone", "jupyter_error", "domain_name",
      "alb_config"]) : ∀ f ∈ optionalFields info jupyterError, f.1 ≠ name :=
  fun f hf hname => h (hname ▸ optionalFields_names info jupyterError f hf)

section

variable (info : ConnectionInfo) (expiresAt launchedAt instanceType gpuType token : String)
  (jupyter : Bool × String) (v : Value)

/-- The fields that make a reservation active set that status. -/
theorem status_activeFields : (Update.set (("last_updated", v) ::
    activeFields info expiresAt launchedAt instanceType gpuType token jupyter)).status =
      some (.text "active") := by
  change Attributes.ofList (("last_updated", v) :: (_ ++ optionalFields info jupyter.2)) _ = _
  rw [← List.cons_append, Attributes.ofList_append,
    Attributes.ofList_eq_none (optionalFields_ne info jupyter.2 (by decide))]
  rfl

/-- They name the pod. -/
theorem podName_activeFields : Attributes.ofList (("last_updated", v) ::
    activeFields info expiresAt launchedAt instanceType gpuType token jupyter) "pod_name" =
      some (.text info.podName) := by
  change Attributes.ofList (("last_updated", v) :: (_ ++ optionalFields info jupyter.2)) _ = _
  rw [← List.cons_append, Attributes.ofList_append,
    Attributes.ofList_eq_none (optionalFields_ne info jupyter.2 (by decide))]
  rfl

theorem Update.isLawful_activeFields : (Update.set (("last_updated", v) ::
    activeFields info expiresAt launchedAt instanceType gpuType token jupyter)).IsLawful :=
  ⟨Or.inr ⟨"active", by decide, status_activeFields _ _ _ _ _ _ _ _⟩, by
    intro f hf hname
    rcases List.mem_append.mp (show f ∈ (_ :: _) ++ optionalFields info jupyter.2 from hf) with
      hf | hf
    · simp only [List.mem_cons, List.not_mem_nil, or_false] at hf
      rcases hf with rfl | rfl | rfl | rfl | rfl | rfl | rfl | rfl | rfl | rfl | rfl | rfl <;>
        simp [parameterNames] at hname ⊢
    · have hoptional := optionalFields_names info jupyter.2 f hf
      simp only [List.mem_cons, List.not_mem_nil, or_false] at hoptional
      rcases hoptional with h | h | h | h | h | h | h | h | h | h <;>
        simp [h, parameterNames] at hname⟩

end

end Reservation

section Allocation

variable {r : String} {P : Op → Prop} [Serves r P]

/-! ### Room and disks -/

theorem issues_waitForRelease (user disk : String) (first : Bool) (n : ℕ) :
    (waitForRelease user disk r first n).Issues P := by
  induction n generalizing first with
  | zero => trivial
  | succ n ih =>
    refine (issues_quiet rfl).bind fun volumes => ?_
    split
    · trivial
    · exact (Issues.whenever _ (issues_updateReservationStatus (by decide) _ _)).bind
        fun _ => ih false

theorem issues_checkNotInUse (user disk : String) :
    (checkNotInUse user disk r).Issues P := by
  refine (issues_waitForRelease user disk true 12).bind fun _ => (issues_quiet rfl).bind
    fun volumes => ?_
  split <;> trivial

theorem issues_createDisk (user : String) (diskName : Option String) (skip : Bool) :
    (createDiskFromSnapshotOrEmpty user diskName r skip).Issues P := by
  have hrest : Issues P (if skip = true then do
      whenever (r ≠ "") (updateReservationStatus r "preparing"
        "Creating disk (fast restore from local cache)")
      let volumeId ← createAvailableVolume ⟨user, diskName, "available"⟩
      return (volumeId, true)
    else do
      let snapshot ← findSnapshot user diskName
      let volumeId ← createAvailableVolume ⟨user, some (diskName.getD "default"), "available"⟩
      return (volumeId, snapshot.getD true) : Lambda (String × Bool)) := by
    split
    · exact (Issues.whenever _ (issues_updateReservationStatus (by decide) _ _)).bind fun _ =>
        (issues_createAvailableVolume _ (Serves.createVolume r)).bind fun _ => trivial
    · exact (issues_findSnapshot _ _).bind fun _ =>
        (issues_createAvailableVolume _ (Serves.createVolume r)).bind fun _ => trivial
  unfold createDiskFromSnapshotOrEmpty
  cases diskName with
  | none => exact Issues.bind (issues_pure ()) fun _ => hrest
  | some disk => exact (issues_checkNotInUse user disk).bind fun _ => hrest

/-! ### Monitoring -/

theorem issues_reportMissingPod : (reportMissingPod r).Issues P := by
  refine Issues.bind (Issues.orElseGive ?_ _) fun status => ?_
  · exact (issues_getItemOrEmpty r).bind fun _ => trivial
  · split
    · trivial
    · exact (issues_updateReservationStatus (by decide) _ _).bind fun _ => trivial

theorem issues_convertToQueued (podName : String) :
    (convertToQueued podName r).Issues P :=
  (issues_getItemOrEmpty r).bind fun _ => (issues_quiet rfl).bind fun _ =>
    (issues_calculateQueuePositionAndWaitTime _ _).bind fun _ =>
    (issues_updateReservationWithQueueInfo _ _ _).bind fun _ =>
    (issues_request (Serves.deletePod r _)).bind
      fun _ => (issues_updateReservationStatus (by decide) _ _).bind fun _ => trivial

theorem issues_explainScheduling (podName : String) (why : SchedulingTrouble) :
    (explainScheduling podName r why).Issues P := by
  cases why with
  | insufficientGpus =>
    refine Issues.orElseGive ?_ _
    exact (issues_getItemOrEmpty r).bind fun _ => (issues_quiet rfl).bind fun _ => trivial
  | affinity =>
    refine Issues.orElseGive ?_ _
    refine (issues_getItemOrEmpty r).bind fun _ => (issues_quiet rfl).bind fun nodes => ?_
    split
    · exact (issues_updateReservationStatus (by decide) _ _).bind fun _ =>
        (issues_request (Serves.deletePod r _)).bind fun _ => trivial
    · trivial
  | other => trivial

theorem issues_explainEvents (podName : String) (events : PodEvents) :
    (explainEvents podName r events).Issues P := by
  cases events with
  | plain message => trivial
  | failedScheduling stuck why =>
    unfold explainEvents
    dsimp only
    split
    · exact (issues_convertToQueued podName).tryCatch fun _ => issues_explainScheduling _ _
    · exact issues_explainScheduling _ _

theorem statusToReport_mem (failed active : Bool) :
    statusToReport failed active ∈ writtenStatuses := by
  cases failed <;> cases active <;> decide

theorem issues_pod_logs (c : Bool) (logs : String) :
    (whenever c (updateReservationFields r [("pod_logs", .text logs)])).Issues P :=
  Issues.whenever _
    (issues_updateReservationFields (Update.isPlain_of_neutral (by simp [parameterNames])))

theorem issues_reportPodStatus (message : String) (pod : PodObservation)
    (currentStatus : Option String) :
    (reportPodStatus r message pod currentStatus).Issues P := by
  refine Issues.bind (Issues.orElseGive ?_ _) fun preserve => Issues.bind (Issues.tryCatch ?_ ?_)
    fun ddbStatus => ?_
  · exact (issues_getItemOrEmpty r).bind fun _ => trivial
  · exact (issues_getItemOrEmpty r).bind fun _ => trivial
  · intro e
    split <;> trivial
  · exact (issues_decideActive _ _ _ _ _).bind fun _ =>
      (Issues.whenever _ (issues_updateReservationStatus (statusToReport_mem _ _) _ _)).bind
        fun _ => (issues_pod_logs _ _).bind fun _ => trivial

theorem issues_reportPod (podName : String) (pod : PodObservation) :
    (reportPod podName r pod).Issues P := by
  refine (issues_explainEvents _ _).bind fun eventMessage => Issues.bind (Issues.orElseGive ?_ _)
    fun current => ?_
  · exact (issues_quiet rfl).bind fun _ => trivial
  · split
    · exact issues_reportPodStatus _ _ _
    · dsimp only
      split
      · refine Issues.bind (Issues.whenever _ ?_) fun _ => ?_
        · exact issues_updateReservationFields fun v =>
          ⟨⟨Or.inr ⟨"cancelled", by decide, rfl⟩, by
            simp [Update.KeepsParameters, parameterNames]⟩, rfl⟩
        · trivial
      · split
        · exact issues_reportPodStatus _ _ _
        · exact (issues_pod_logs _ _).bind fun _ => trivial

theorem issues_updatePodStatusAndEvents (podName : String) :
    (updatePodStatusAndEvents podName r).Issues P := by
  refine Issues.orElseGive (Issues.bind (Issues.tryCatch ?_ ?_) fun pod => ?_) _
  · exact (issues_quiet rfl).bind fun _ => trivial
  · intro e
    cases e <;> trivial
  · split
    · exact issues_reportMissingPod
    · exact issues_reportPod _ _

theorem issues_monitorLoop (podName : String) (rounds : ℕ) :
    (monitorLoop podName r rounds).Issues P := by
  induction rounds with
  | zero => trivial
  | succ rounds ih =>
    refine (issues_updatePodStatusAndEvents podName).bind fun status => ?_
    split
    · trivial
    · refine (issues_quiet rfl).bind fun stopped => ?_
      split
      · trivial
      · exact ih

/-! ### Allocation -/

omit [Serves r P] in
theorem issues_reportNode [Covers r P] (params : AllocationParameters) (podStatus : String) :
    (reportNode params r podStatus).Issues P :=
  Issues.whenever _ (issues_updateReservationStatus (by decide) _ _)

theorem issues_reportProgress (last : String) (messages : List String) :
    (reportProgress r last messages).Issues P := by
  induction messages generalizing last with
  | nil => trivial
  | cons message rest ih =>
    exact (Issues.whenever _ (issues_updateReservationStatus (by decide) _ _)).bind fun _ => ih _

theorem issues_chooseImage (cfg : Settings) (params : AllocationParameters) :
    (chooseImage cfg r params).Issues P := by
  unfold chooseImage
  split
  · refine (issues_reportNode _ _).bind fun _ =>
      (issues_updateReservationStatus (by decide) _ _).bind fun _ => Issues.bind ?_ fun _ => trivial
    refine Issues.tryCatch ?_ fun e => ?_
    · refine (issues_quiet rfl).bind fun tag => (issues_quiet rfl).bind fun cached => ?_
      split
      · exact (issues_updateReservationStatus (by decide) _ _).bind fun _ => trivial
      · refine (issues_quiet rfl).bind fun result => (issues_reportProgress _ _).bind fun _ => ?_
        split
        · trivial
        · exact (issues_updateReservationStatus (by decide) _ _).bind fun _ => trivial
    · exact (issues_updateReservationStatus (by decide) _ _).bind fun _ => trivial
  · trivial

theorem issues_wantsPersistentDisk (params : AllocationParameters) :
    (wantsPersistentDisk r params).Issues P := by
  unfold wantsPersistentDisk
  split
  · trivial
  · split
    · trivial
    · split
      · trivial
      · refine Issues.orElseGive ?_ _
        exact (issues_quiet rfl).bind fun _ => trivial

theorem issues_reserveDiskSlot (wanted : Bool) : (reserveDiskSlot r wanted).Issues P := by
  cases wanted with
  | false => trivial
  | true =>
    refine Issues.orElseGive ?_ _
    refine (issues_updateReservationFields
      (Update.isPlain_of_neutral (by simp [parameterNames]))).bind fun _ => ?_
    exact (issues_updateReservationStatus (by decide) _ _).bind fun _ => trivial

theorem issues_setUpDisk (cfg : Settings) (params : AllocationParameters) :
    (setUpDisk cfg r params).Issues P := by
  refine (issues_updateReservationStatus (by decide) _ _).bind fun _ =>
    (issues_getTargetAz _ _ _ (Serves.deletePod r)).bind fun target => ?_
  dsimp only
  split
  · trivial
  · have hrest : ∀ (az : String) (cacheHit : Bool), Issues P (do
        whenever cacheHit
          (updateReservationStatus r "preparing" "Fast restore from local cache")
        let volume ← createDiskFromSnapshotOrEmpty params.user params.disk r cacheHit
        return ⟨volume.1, volume.2, az, target.2, cacheHit⟩ : Lambda DiskSetup) := fun _ _ =>
      (Issues.whenever _ (issues_updateReservationStatus (by decide) _ _)).bind fun _ =>
        (issues_createDisk _ _ _).bind fun _ => trivial
    split
    · exact (Issues.orElseGive (issues_quiet rfl) _).bind fun cacheHit => hrest _ cacheHit
    · exact (issues_pure false).bind fun cacheHit => hrest _ cacheHit

theorem issues_setUpDiskIf (cfg : Settings) (params : AllocationParameters) (use : Bool) :
    (setUpDiskIf cfg r params use).Issues P := by
  cases use with
  | false => trivial
  | true => exact (issues_setUpDisk cfg params).bind fun _ => trivial

theorem issues_setUpEfs (params : AllocationParameters) :
    (setUpEfs r params).Issues P := by
  refine (issues_quiet rfl).bind fun configured => ?_
  split
  · exact (issues_updateReservationStatus (by decide) _ _).bind fun _ => issues_quiet rfl
  · trivial

theorem issues_settleDisk (params : AllocationParameters)
    (disk : Except Failure (Option DiskSetup)) :
    (settleDisk r params disk).Issues P := by
  cases disk with
  | ok disk => trivial
  | error e =>
    refine Issues.bind ?_ fun _ => trivial
    cases e with
    | snapshotPending message => trivial
    | _ =>
      simp only [handleDiskFailure]
      split
      · exact (issues_updateReservationStatus (by decide) _ _).bind fun _ => trivial
      · split
        · exact (issues_updateReservationStatus (by decide) _ _).bind fun _ => trivial
        · exact issues_updateReservationStatus (by decide) _ _

theorem issues_recordDisk (params : AllocationParameters) (disk : Option DiskSetup) :
    (recordDisk r params disk).Issues P := by
  cases disk with
  | none => trivial
  | some disk =>
    refine (Issues.logged (issues_quiet rfl)).bind fun _ => issues_updateReservationFields
      fun v => ⟨⟨Or.inl ?_, ?_⟩, rfl⟩
    · simp [Update.IsNeutral]
    · simp [Update.KeepsParameters, parameterNames]

theorem issues_createPod {pod : PodParameters} (hpod : pod.podName = podNameOf r) :
    (createPod pod).Issues P := by
  unfold createPod
  rw [hpod]
  exact issues_request (Serves.createPod _)

theorem issues_createPodAndServices {pod : PodParameters} (hpod : pod.podName = podNameOf r)
    (exist : Bool) (sshPort : Option ℚ) :
    (createPodAndServices r pod exist sshPort).Issues P :=
  (Issues.whenever _ ((issues_updateReservationStatus (by decide) _ _).bind fun _ =>
    (issues_createPod hpod).bind fun _ => (issues_updateReservationStatus (by decide) _ _).bind
      fun _ => Issues.whenever _ (Issues.logged (issues_quiet rfl)))).bind fun _ =>
    (Issues.whenever _ (issues_quiet rfl)).bind fun _ => Issues.logged (issues_quiet rfl)

theorem issues_ensureResources {pod : PodParameters} (hpod : pod.podName = podNameOf r) :
    (ensureResources r pod).Issues P := by
  have hjupyter : ∀ exist sshPort jupyterPort, Issues P (do
      let nodePort ← portOr sshPort
      let port ← portOr jupyterPort
      createPodAndServices r pod exist sshPort
      whenever jupyterPort.isNone (attempt (.service (pod.podName ++ "-jupyter")))
      return (nodePort, port) : Lambda (ℚ × ℚ)) := fun exist sshPort jupyterPort =>
    (issues_portOr _).bind fun _ => (issues_portOr _).bind fun _ =>
      (issues_createPodAndServices hpod _ _).bind fun _ =>
        (Issues.whenever _ (issues_quiet rfl)).bind fun _ => trivial
  have hplain : ∀ exist sshPort, Issues P (do
      let nodePort ← portOr sshPort
      createPodAndServices r pod exist sshPort
      return (nodePort, 0) : Lambda (ℚ × ℚ)) := fun exist sshPort =>
    (issues_portOr _).bind fun _ =>
      (issues_createPodAndServices hpod _ _).bind fun _ => trivial
  refine (issues_podExists _).bind fun exist => ?_
  dsimp only
  split
  · refine (issues_findService _).bind fun sshPort => (issues_findService _).bind
      fun jupyterPort => ?_
    split
    · split
      · trivial
      · exact hjupyter _ _ _
    · split
      · trivial
      · exact hplain _ _
  · refine (issues_pure none).bind fun sshPort => (issues_findService _).bind
      fun jupyterPort => ?_
    split
    · split
      · trivial
      · exact hjupyter _ _ _
    · split
      · trivial
      · exact hplain _ _

theorem issues_createKubernetesResources {pod : PodParameters} (hpod : pod.podName = podNameOf r) :
    (createKubernetesResources r pod).Issues P :=
  (issues_ensureResources hpod).bind fun _ =>
    (issues_updateReservationStatus (by decide) _ _).bind fun _ =>
    (Issues.logged (issues_quiet rfl)).bind fun _ => (issues_quiet rfl).bind fun _ =>
    (issues_updateReservationStatus (by decide) _ _).bind fun _ => trivial

theorem issues_settleDomain (domain : String) (retries : ℕ) :
    (settleDomain r domain retries).Issues P := by
  induction retries generalizing domain with
  | zero => trivial
  | succ retries ih =>
    refine (issues_quiet rfl).bind fun stored => ?_
    split
    · trivial
    · exact (issues_quiet rfl).bind fun other => ih other

theorem issues_chooseDomain : (chooseDomain r).Issues P := by
  refine (issues_quiet rfl).bind fun dnsEnabled => ?_
  split
  · refine (issues_quiet rfl).bind fun domain => (issues_quiet rfl).bind fun created => ?_
    split
    · exact (issues_settleDomain _ _).bind fun _ => trivial
    · trivial
  · trivial

theorem issues_awaitSsh (podName : String) : (awaitSsh r podName).Issues P := by
  refine Issues.bind (Issues.orElseGive (issues_quiet rfl) _) fun sshReady => ?_
  split
  · trivial
  · refine (issues_updatePodStatusAndEvents podName).bind fun status => ?_
    split
    · exact (issues_updateReservationStatus (by decide) _ _).bind fun _ => trivial
    · trivial

theorem issues_setUpLoadBalancer (domain : Option String) :
    (setUpLoadBalancer r domain).Issues P := by
  cases domain with
  | none => trivial
  | some domain =>
    refine Issues.orElseGive ?_ _
    refine (issues_quiet rfl).bind fun enabled => ?_
    split
    · exact (issues_quiet rfl).bind fun _ => trivial
    · trivial

omit [Serves r P] in
theorem issues_storeTrace [Covers r P] (trace : Bool) : (storeTrace r trace).Issues P :=
  Issues.whenever _ (Issues.logged ((issues_quiet rfl).bind fun _ =>
    issues_updateReservationFields (Update.isPlain_of_neutral (by simp [parameterNames]))))

theorem issues_inThreeThreads {α β γ : Type} {P : Op → Prop} {p : Lambda α} {q : Lambda β}
    {s : Lambda γ} (hturn : P .turn) (hp : p.Issues P) (hq : q.Issues P) (hs : s.Issues P) :
    (inThreeThreads p q s).Issues P :=
  (Program.OnlyCalls.together hturn hp (Program.OnlyCalls.together hturn hq hs)).bind
    fun _ => trivial

theorem issues_ofExcept {α : Type} {P : Op → Prop} (x : Except Failure α) :
    (MonadExcept.ofExcept x : Lambda α).Issues P := by
  cases x <;> trivial

/-- An allocation does what its part after the image does, and writes the record. -/
theorem meets_allocateGpuResources {A : Program.Event Op Op.Res → Prop} {cfg : Settings}
    {params : AllocationParameters} (hallocate : ∀ image,
      (allocateWithImage cfg r params image).Meets A P (fun _ => True) fun _ => True)
    (trace : Bool) :
    (allocateGpuResources cfg r params trace).Meets A P (fun _ => True) fun _ => True := by
  have hfail : ∀ e : Failure, Meets A P (fun _ => True) (fun _ => True) (do
      storeTrace r trace
      updateReservationStatus r "failed" ("Resource allocation failed: " ++ e.message)
      throw e : Lambda Unit) := fun e => Issues.meets
    ((issues_storeTrace _).bind fun _ =>
      (issues_updateReservationStatus (by decide) _ _).bind fun _ => issues_throw e)
  refine Meets.tryCatch (E := fun _ => True) ?_ fun e _ => ?_
  · refine (issues_reportNode _ _).meets.bind fun _ _ =>
      (issues_updateReservationStatus (by decide) _ _).meets.bind fun _ _ =>
      (issues_chooseImage _ _).meets.bind fun image _ => ?_
    split
    · exact meets_pure trivial
    · exact (hallocate _).bind fun _ _ => (issues_storeTrace _).meets
  · cases e with
    | snapshotPending message => exact meets_throw trivial
    | conditionalCheckFailed => exact hfail .conditionalCheckFailed
    | reservationTerminated id => exact hfail (.reservationTerminated id)
    | notFound => exact hfail .notFound
    | valueError message => exact hfail (.valueError message)
    | error message => exact hfail (.error message)

end Allocation

section Connecting

variable {r : String} {P : Op → Prop} [Connects r P]

theorem issues_updateReservationConnectionInfo {info : ConnectionInfo}
    (hpod : info.podName = podNameOf r) :
    (updateReservationConnectionInfo r info).Issues (P) :=
  issues_connectionInfo fun v _ _ _ _ _ _ =>
    Connects.connection _ (Update.isLawful_activeFields info _ _ _ _ _ _ v) (by
      rw [← hpod]
      exact podName_activeFields info _ _ _ _ _ _ v)

theorem issues_connect (params : AllocationParameters) {pod : PodParameters}
    (hpod : pod.podName = podNameOf r) (ports : ℚ × ℚ) : (connect r params pod ports).Issues P := by
  refine (issues_reportNode _ _).bind fun _ =>
    (issues_updateReservationStatus (by decide) _ _).bind fun _ => (issues_quiet rfl).bind fun _ =>
    (Issues.orElseGive (issues_quiet rfl) _).bind fun _ =>
    (Issues.orElseGive (issues_quiet rfl) _).bind fun _ => issues_chooseDomain.bind fun _ => ?_
  exact (issues_updateReservationStatus (by decide) _ _).bind fun _ =>
    (issues_updateReservationStatus (by decide) _ _).bind fun _ => (issues_awaitSsh _).bind fun _ =>
    (issues_updateReservationStatus (by decide) _ _).bind fun _ =>
    (issues_setUpLoadBalancer _).bind fun _ =>
    (issues_updateReservationConnectionInfo hpod).bind fun _ => Issues.logged (issues_quiet rfl)

theorem issues_allocateWithImage (cfg : Settings) (params : AllocationParameters)
    (image : Option Value) : (allocateWithImage cfg r params image).Issues P := by
  refine (issues_wantsPersistentDisk _).bind fun wanted => (issues_reserveDiskSlot _).bind
    fun use => Issues.bind (issues_inThreeThreads (AllowsQuiet.quiet _ rfl)
      (issues_getGithubPublicKey (Serves.cache r) _)
      (issues_setUpDiskIf _ _ _) (issues_setUpEfs _)) fun results =>
    (issues_ofExcept _).bind fun key => (issues_settleDisk _ _).bind fun disk => ?_
  split
  · trivial
  · exact (issues_recordDisk _ _).bind fun _ =>
      (issues_updateReservationStatus (by decide) _ _).bind fun _ =>
      (issues_createKubernetesResources rfl).bind fun _ => issues_connect _ rfl _

theorem issues_allocateGpuResources (cfg : Settings) (params : AllocationParameters)
    (trace : Bool) : (allocateGpuResources cfg r params trace).Issues P :=
  (meets_allocateGpuResources (fun image => (issues_allocateWithImage cfg params image).meets)
    trace).issues

end Connecting

end CiInfra.GpuDev

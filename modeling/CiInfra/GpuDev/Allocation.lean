import CiInfra.GpuDev.Connection
import CiInfra.GpuDev.Disks
import CiInfra.GpuDev.PodMonitoring

/-!
# Allocating a reservation

An admitted reservation is allocated in one long run: its image is built, its keys are fetched
and its disk is set up side by side, its pod and services are created, and once the pod is ready
the connection details make it active. Nearly every step writes a status first. Whatever goes
wrong on the way makes the reservation failed, but for a snapshot that is not complete yet.
-/

namespace CiInfra.GpuDev

open Interaction Fallible

/-- What `allocate_gpu_resources` takes from the request. -/
structure AllocationParameters where
  gpuCount : ℕ
  gpuType : String
  userId : Option Value
  recreateEnv : Value
  fastCache : Value
  diskName : Option Value
  isMultinode : Value
  nodeIndex : ℕ
  totalNodes : ℕ
  githubUser : Option Value
  dockerfile : Option Value
  dockerimage : Option Value
  preserveEntrypoint : Value
  nodeLabels : Option Value
  noPersistentDisk : Value
  ref : String
  name : Option Value
  durationHours : ℚ
  jupyterEnabled : Value
  peerPods : List String

/-- The texts of a list attribute. -/
def Attributes.texts (a : Attributes) (name : String) : List String :=
  match a name with
  | some (.list l) => l.filterMap fun
      | .text s => some s
      | _ => none
  | _ => []

/-- How `allocate_gpu_resources` reads the request. -/
def allocationParameters (request : Attributes) : AllocationParameters where
  gpuCount := request.natural "gpu_count" 1
  gpuType := request.text "gpu_type" "a100"
  userId := request "user_id"
  recreateEnv := (request "recreate_env").getD (.flag false)
  fastCache := (request "fast_cache").getD (.flag false)
  diskName := request "disk_name"
  isMultinode := (request "is_multinode").getD (.flag false)
  nodeIndex := if request.truthy "is_multinode" then request.natural "node_index" 0 else 0
  totalNodes := if request.truthy "is_multinode" then request.natural "total_nodes" 1 else 1
  githubUser := (request "github_user").or (request "user_id")
  dockerfile := request "dockerfile"
  dockerimage := request "dockerimage"
  preserveEntrypoint := (request "preserve_entrypoint").getD (.flag false)
  nodeLabels := request "node_labels"
  noPersistentDisk := (request "no_persistent_disk").getD (.flag false)
  ref := sanitizePytorchRef (request "ref")
  name := request "name"
  durationHours := request.number "duration_hours" 8
  jupyterEnabled := (request "jupyter_enabled").getD (.flag false)
  peerPods := request.texts "multinode_peer_pods"

/-- The text of an optional value, and the empty text for none. -/
def textOf : Option Value → String
  | some (.text s) => s
  | _ => ""

namespace AllocationParameters

/-- The user. -/
def user (params : AllocationParameters) : String := textOf params.userId

/-- The disk that is asked for by name. -/
def disk (params : AllocationParameters) : Option String :=
  if textOf params.diskName = "" then none else some (textOf params.diskName)

/-- The name of the disk in the tables: an unnamed one is the default. -/
def effectiveDisk (params : AllocationParameters) : String := params.disk.getD "default"

end AllocationParameters

/-- `update_multinode_pod_status`. -/
def updateMultinodePodStatus (reservationId podStatus : String) (nodeIndex totalNodes : ℕ) :
    Lambda Unit :=
  updateReservationStatus reservationId "preparing"
    ("Pod " ++ toString (nodeIndex + 1) ++ "/" ++ toString totalNodes ++ ": " ++ podStatus)

/-- The status of one node of a multinode reservation, where it is one. -/
def reportNode (params : AllocationParameters) (reservationId podStatus : String) : Lambda Unit :=
  whenever params.isMultinode.truthy
    (updateMultinodePodStatus reservationId podStatus params.nodeIndex params.totalNodes)

/-! ### The image -/

/-- Report the progress of a build, each message once. -/
def reportProgress (reservationId : String) (last : String) : List String → Lambda Unit
  | [] => return ()
  | message :: rest => do
    whenever (message ≠ last) (updateReservationStatus reservationId "creating_server" message)
    reportProgress reservationId message rest

/-- Build the image of a Dockerfile. `none` if the build failed, which has been recorded. -/
def buildImage (cfg : Settings) (reservationId : String) : Lambda (Option Value) :=
  tryCatch (do
    let tag ← read (.buildJob reservationId)
    let image := Value.text (cfg.ecrRepositoryUrl ++ ":" ++ tag)
    let cached ← ask (.dockerImage reservationId)
    if cached then do
      updateReservationStatus reservationId "creating_server" "Using cached Docker image"
      return some image
    else do
      let (progress, success) ← build (.dockerBuild reservationId)
      reportProgress reservationId "" progress
      if success then
        return some image
      else do
        updateReservationStatus reservationId "failed" "Docker image build failed"
          "Docker image build failed"
        return none) fun e => do
    updateReservationStatus reservationId "failed" "Docker build process failed"
      ("Docker image build error: " ++ e.message)
    throw e

/-- The image of a reservation: built, named or left to the default. `none` stands for a build
that failed. -/
def chooseImage (cfg : Settings) (reservationId : String) (params : AllocationParameters) :
    Lambda (Option (Option Value)) :=
  if (params.dockerfile.map Value.truthy).getD false then do
    reportNode params reservationId "building custom Docker image"
    updateReservationStatus reservationId "preparing" "Building custom Docker image from Dockerfile"
    let image ← buildImage cfg reservationId
    return image.map some
  else return some params.dockerimage

/-! ### The disk -/

/-- Whether a reservation gets a persistent disk. -/
def wantsPersistentDisk (reservationId : String) (params : AllocationParameters) : Lambda Bool :=
  if params.noPersistentDisk.truthy then
    return false
  else if params.isMultinode.truthy && 0 < params.nodeIndex then
    return false
  else if params.disk.isSome then
    return true
  else shouldUsePersistentDisk params.user reservationId

/-- Mark the record of a reservation as having a disk before the disk exists. Gives whether it
uses a disk after all. -/
def reserveDiskSlot (reservationId : String) : Bool → Lambda Bool
  | false => return false
  | true => orElseGive (do
      updateReservationFields reservationId [("ebs_volume_reserved", .flag true)]
      updateReservationStatus reservationId "preparing" "Reserving persistent disk slot"
      return true) false

/-- A disk that has been set up. -/
structure DiskSetup where
  volumeId : String
  isNewDisk : Bool
  targetAz : String
  targetNode : Option String
  nvmeCacheHit : Bool

/-- `_setup_disk`. -/
def setUpDisk (cfg : Settings) (reservationId : String) (params : AllocationParameters) :
    Lambda DiskSetup := do
  updateReservationStatus reservationId "preparing" "Setting up persistent disk"
  let (az, node) ← getTargetAzForReservation cfg params.gpuType params.gpuCount
  match az with
  | none => throw (.error ("No " ++ params.gpuType ++ " nodes found in cluster"))
  | some az => do
    let cacheHit ← if params.fastCache.truthy then orElseGive (ask (.nvmeCache params.user)) false
      else pure false
    whenever cacheHit
      (updateReservationStatus reservationId "preparing" "Fast restore from local cache")
    let (volumeId, isNewDisk) ←
      createDiskFromSnapshotOrEmpty params.user params.disk reservationId cacheHit
    return ⟨volumeId, isNewDisk, az, node, cacheHit⟩

/-- `_setup_disk`, or nothing if no disk is wanted. -/
def setUpDiskIf (cfg : Settings) (reservationId : String) (params : AllocationParameters) :
    Bool → Lambda (Option DiskSetup)
  | false => return none
  | true => do
    let disk ← setUpDisk cfg reservationId params
    return some disk

/-- `_setup_efs`; the empty text stands for `None`. -/
def setUpEfs (reservationId : String) (params : AllocationParameters) : Lambda String := do
  let configured ← ask .efsConfigured
  if configured then do
    updateReservationStatus reservationId "preparing"
      "Setting up shared storage (/shared) for user collaboration"
    read (.efs params.user)
  else return ""

/-- What becomes of a failure to set up the disk: a named disk or one in use makes the
reservation failed, otherwise it goes on without a disk. -/
def handleDiskFailure (reservationId : String) (params : AllocationParameters) :
    Failure → Lambda Unit
  | .snapshotPending message => throw (.snapshotPending message)
  | e =>
    match params.disk with
    | some disk => do
      updateReservationStatus reservationId "failed" ""
        ("Persistent disk '" ++ disk ++ "' setup failed: " ++ e.message)
      throw (.error
        ("Cannot create reservation: disk '" ++ disk ++ "' setup failed: " ++ e.message))
    | none =>
      if mentions e.message.toLower "in use" then do
        updateReservationStatus reservationId "failed" "" e.message
        throw (.error ("Cannot create reservation: " ++ e.message))
      else updateReservationStatus reservationId "preparing"
        "Persistent disk setup failed - continuing without persistent storage"

/-- The result of the disk thread, once failures are dealt with. -/
def settleDisk (reservationId : String) (params : AllocationParameters) :
    Except Failure (Option DiskSetup) → Lambda (Option DiskSetup)
  | .ok disk => return disk
  | .error e => do
    handleDiskFailure reservationId params e
    return none

/-- Record the disk that has been set up. -/
def recordDisk (reservationId : String) (params : AllocationParameters) :
    Option DiskSetup → Lambda Unit
  | none => return ()
  | some _ => do
    logged (markDiskInUse params.user params.effectiveDisk)
    updateReservationFields reservationId [("disk_name", .text params.effectiveDisk)]

/-! ### The pod -/

/-- The arguments of `create_kubernetes_resources`. -/
structure PodParameters where
  podName : String
  gpuCount : ℕ
  gpuType : String
  githubPublicKey : String
  githubUser : Option Value
  jupyterEnabled : Value
  persistentVolumeId : Option String
  userId : Option Value
  isNewDisk : Bool
  recreateEnv : Value
  efsFilesystemId : String
  isMultinode : Value
  dockerfile : Option Value
  dockerimage : Option Value
  targetAz : Option String
  targetNode : Option String
  peerPods : List String
  multinodeRank : ℕ
  preserveEntrypoint : Value
  nodeLabels : Option Value
  nvmeCacheHit : Bool
  pytorchRef : String

/-- The arguments for `create_kubernetes_resources` that an allocation ends up with. -/
def podParameters (reservationId : String) (params : AllocationParameters) (key efs : String)
    (image : Option Value) (disk : Option DiskSetup) : PodParameters where
  podName := podNameOf reservationId
  gpuCount := params.gpuCount
  gpuType := params.gpuType
  githubPublicKey := key
  githubUser := params.githubUser
  jupyterEnabled := params.jupyterEnabled
  persistentVolumeId := disk.map (·.volumeId)
  userId := params.userId
  isNewDisk := (disk.map (·.isNewDisk)).getD true
  recreateEnv := params.recreateEnv
  efsFilesystemId := efs
  isMultinode := params.isMultinode
  dockerfile := params.dockerfile
  dockerimage := image
  targetAz := disk.map (·.targetAz)
  targetNode := disk.bind (·.targetNode)
  peerPods := params.peerPods
  multinodeRank := if params.isMultinode.truthy then params.nodeIndex else 0
  preserveEntrypoint := params.preserveEntrypoint
  nodeLabels := params.nodeLabels
  nvmeCacheHit := (disk.map (·.nvmeCacheHit)).getD false
  pytorchRef := params.ref

/-- `create_pod` for a reservation. -/
def createPod (pod : PodParameters) : Lambda Unit :=
  createNamespacedPod pod.podName
    { labels := dictOf [("app", "gpu-dev-pod"), ("reservation", pod.podName)]
      annotations := dictOf
        ((pod.persistentVolumeId.map fun v => ("gpu-dev-volume-id", v)).toList ++
          [("gpu-dev-user-id", textOf pod.userId)])
      phase := "Pending"
      nodeName := none
      containers := [podRequests pod.gpuType pod.gpuCount]
      deletionRequested := false
      peerPods := pod.peerPods
      volume := pod.persistentVolumeId }

/-- Look a service up; one that is not found gives `none`. -/
def findService (name : String) : Lambda (Option ℚ) :=
  tryCatch (do
    let port ← count (.service name)
    return some port) fun
    | .notFound => return none
    | failure => throw failure

/-- Whether a pod is there. -/
def podExists (name : String) : Lambda Bool :=
  tryCatch (do
    let _ ← readPod name
    return true) fun
    | .notFound => return false
    | failure => throw failure

/-- Use a port that is there, or find a free one. -/
def portOr : Option ℚ → Lambda ℚ
  | some port => return port
  | none => orElseGive (count .nodePort) 30000

/-- `start_background_pod_monitoring`: the monitoring itself runs on its own. -/
def startBackgroundPodMonitoring (reservationId : String) : Lambda Unit :=
  logged (attempt (.monitorRunning reservationId))

/-- Create the pod, unless it is there, and its services. -/
def createPodAndServices (reservationId : String) (pod : PodParameters) (exist : Bool)
    (sshPort : Option ℚ) : Lambda Unit := do
  whenever (!exist) do
    updateReservationStatus reservationId "preparing" ("Creating Kubernetes pod " ++ pod.podName)
    createPod pod
    updateReservationStatus reservationId "preparing"
      "Pod created, waiting for container to download and start"
    whenever pod.jupyterEnabled.truthy (startBackgroundPodMonitoring reservationId)
  whenever sshPort.isNone (attempt (.service (pod.podName ++ "-ssh")))
  logged (attempt (.service pod.podName))

/-- The ports of the services, created as needed together with the pod. -/
def ensureResources (reservationId : String) (pod : PodParameters) : Lambda (ℚ × ℚ) := do
  let exist ← podExists pod.podName
  let sshPort ← if exist then findService (pod.podName ++ "-ssh") else pure none
  let jupyterPort ← findService (pod.podName ++ "-jupyter")
  if pod.jupyterEnabled.truthy then
    match exist, sshPort, jupyterPort with
    | true, some ssh, some jupyter => return (ssh, jupyter)
    | _, _, _ => do
      let nodePort ← portOr sshPort
      let port ← portOr jupyterPort
      createPodAndServices reservationId pod exist sshPort
      whenever jupyterPort.isNone (attempt (.service (pod.podName ++ "-jupyter")))
      return (nodePort, port)
  else
    match exist, sshPort with
    | true, some ssh => return (ssh, 0)
    | _, _ => do
      let nodePort ← portOr sshPort
      createPodAndServices reservationId pod exist sshPort
      return (nodePort, 0)

/-- `create_kubernetes_resources`. Gives the SSH and the Jupyter port. -/
def createKubernetesResources (reservationId : String) (pod : PodParameters) : Lambda (ℚ × ℚ) := do
  let ports ← ensureResources reservationId pod
  updateReservationStatus reservationId "preparing"
    ("Waiting for pod " ++ pod.podName ++ " to become ready")
  startBackgroundPodMonitoring reservationId
  attempt (.podReady pod.podName)
  updateReservationStatus reservationId "preparing" "Pod is ready, setting up services"
  return ports

/-! ### The connection -/

/-- Bind a domain name to the reservation; on a collision try others. -/
def settleDomain (reservationId domain : String) : ℕ → Lambda String
  | 0 => return domain
  | retries + 1 => do
    let stored ← ask (.domainMapping domain)
    if stored then
      return domain
    else do
      let other ← read (.dnsName reservationId)
      settleDomain reservationId other retries

/-- The domain name of the reservation, where DNS is set up. -/
def chooseDomain (reservationId : String) : Lambda (Option String) := do
  let dnsEnabled ← ask .dnsEnabled
  if dnsEnabled then do
    let domain ← read (.dnsName reservationId)
    let created ← ask (.dnsName reservationId)
    if created then do
      let settled ← settleDomain reservationId domain 6
      return some settled
    else return none
  else return none

/-- Wait for the SSH daemon; a pod with errors makes the reservation failed, one that is merely
slow does not. -/
def awaitSsh (reservationId podName : String) : Lambda Unit := do
  let sshReady ← orElseGive (ask (.sshDaemon podName)) true
  if sshReady then
    return ()
  else do
    let status ← updatePodStatusAndEvents podName reservationId
    if status.hasErrors then do
      updateReservationStatus reservationId "failed"
        ("Pod failed to start properly: " ++ status.displayMessage)
      throw (.error ("Pod failed: " ++ status.displayMessage))
    else return ()

/-- The load balancer of the reservation, if there is a domain and one can be set up. -/
def setUpLoadBalancer (reservationId : String) : Option String → Lambda (Option Value)
  | none => return none
  | some _ => orElseGive (do
      let enabled ← ask (.loadBalancer reservationId)
      if enabled then do
        let config ← read (.loadBalancer reservationId)
        return some (.text config)
      else return none) none

/-- The part of `allocate_gpu_resources` after the pod has become ready. -/
def connect (reservationId : String) (params : AllocationParameters) (pod : PodParameters)
    (ports : ℚ × ℚ) : Lambda Unit := do
  reportNode params reservationId "pulling container image"
  updateReservationStatus reservationId "preparing"
    "Pod created, downloading container image and starting services"
  let nodePublicIp ← read (.nodeAddress pod.podName)
  let nodePrivateIp ← orElseGive (read (.nodeAddress pod.podName)) ""
  let podIp ← orElseGive (read (.nodeAddress pod.podName)) ""
  let domainName ← chooseDomain reservationId
  updateReservationStatus reservationId "preparing"
    "Finalizing connection and configuring access..."
  updateReservationStatus reservationId "preparing"
    (if pod.persistentVolumeId.isSome then
      "Container running — restoring your environment and starting SSH…"
    else "Container running — starting SSH service…")
  awaitSsh reservationId pod.podName
  updateReservationStatus reservationId "preparing"
    "Finalizing connection and setting up access..."
  let albConfig ← setUpLoadBalancer reservationId domainName
  updateReservationConnectionInfo reservationId
    { sshCommand := sshCommandFor domainName ports.1 nodePublicIp
      podName := pod.podName
      nodePort := ports.1
      nodeIp := nodePublicIp
      nodePrivateIp := nodePrivateIp
      podIp := podIp
      jupyterPort := ports.2
      jupyterUrlBase := "http://" ++ domainName.getD nodePublicIp
      jupyterEnabled := pod.jupyterEnabled.truthy
      persistentVolumeId := pod.persistentVolumeId
      ebsAvailabilityZone := pod.targetAz
      domainName := domainName
      albConfig := albConfig
      preserveEntrypoint := pod.preserveEntrypoint.truthy }
  logged (attempt (.trigger "availability-update"))

/-! ### The whole -/

/-- Store the trace of a reservation, if it is traced. -/
def storeTrace (reservationId : String) (trace : Bool) : Lambda Unit :=
  whenever trace <| logged do
    let traceData ← read (.trace reservationId)
    updateReservationFields reservationId [("trace_data", .text traceData)]

/-- The part of `allocate_gpu_resources` after the image is known. -/
def allocateWithImage (cfg : Settings) (reservationId : String) (params : AllocationParameters)
    (image : Option Value) : Lambda Unit := do
  let wantsDisk ← wantsPersistentDisk reservationId params
  let useDisk ← reserveDiskSlot reservationId wantsDisk
  let (keys, disk, efs) ← inThreeThreads (getGithubPublicKey (textOf params.githubUser))
    (setUpDiskIf cfg reservationId params useDisk) (setUpEfs reservationId params)
  let key ← MonadExcept.ofExcept keys
  let disk ← settleDisk reservationId params disk
  if key = "" then
    throw (.error ("Could not fetch GitHub public key for GitHub user '" ++
      textOf params.githubUser ++ "'"))
  else do
    recordDisk reservationId params disk
    let pod := podParameters reservationId params key (efs.toOption.getD "") image disk
    updateReservationStatus reservationId "preparing" ("Creating pod " ++ pod.podName)
    let ports ← createKubernetesResources reservationId pod
    connect reservationId params pod ports

/-- The body of `allocate_gpu_resources`. -/
def allocate (cfg : Settings) (reservationId : String) (params : AllocationParameters)
    (trace : Bool) : Lambda Unit := do
  reportNode params reservationId "fetching SSH keys"
  updateReservationStatus reservationId "preparing"
    ("Fetching SSH keys for GitHub user " ++ textOf params.githubUser)
  let image ← chooseImage cfg reservationId params
  match image with
  | none => return ()
  | some image => do
    allocateWithImage cfg reservationId params image
    storeTrace reservationId trace

/-- `allocate_gpu_resources`. -/
def allocateGpuResources (cfg : Settings) (reservationId : String) (params : AllocationParameters)
    (trace : Bool := false) : Lambda Unit :=
  tryCatch (allocate cfg reservationId params trace) fun
    | .snapshotPending message => throw (.snapshotPending message)
    | e => do
      storeTrace reservationId trace
      updateReservationStatus reservationId "failed" ("Resource allocation failed: " ++ e.message)
      throw e

end CiInfra.GpuDev

import CiInfra.GpuDev.Requests
import CiInfra.Lib.PythonNumber

/-!
# What a warm pod is worth

A pod of the warm pool is booted before anybody asks for it, with the defaults of `create_pod`. A
claim adds the keys, the identity of the user and the shared storage, and nothing else. The cold
path validates a request first and then builds a pod with what the request asks for. Here both are
reduced to what a request can decide about the pod, and compared.
-/

namespace CiInfra.GpuDev

/-! ### Validation, with what it says -/

/-- An entry of `GPU_MAINTENANCE`. -/
structure Maintenance where
  allowedUsers : List String
  reason : String

/-- The table `GPU_MAINTENANCE`, which is empty. -/
def gpuMaintenance : List (String × Maintenance) := []

/-- What `validate_reservation_request` finds wrong, with what its message shows. -/
inductive Rejection
  | missingField (field : String)
  | invalidGpuType (gpuType : String)
  | maintenance (gpuType reason : String)
  | spotOnly (gpuType : String)
  | cpuCount (gpuType : String) (gpuCount : Value)
  | gpuCount (gpuCount : Value)
  | duration (hours limit : ℚ)
  /-- The duration cannot be compared with the limit. -/
  | incomparable (duration : Value)

/-- A value as a number: truth values are numbers too. -/
def Value.numeric? : Value → Option ℚ
  | .number q => some q
  | .flag b => some (if b then 1 else 0)
  | _ => none

/-- `int(...)`. -/
def Value.int? : Value → Option ℤ
  | .number q => some (PythonNumber.truncate q)
  | .flag b => some (if b then 1 else 0)
  | .text s => PythonNumber.int? s.toList
  | _ => none

/-- The type is under maintenance, and the user is not let in. -/
def maintenanceRejection (maintenance : List (String × Maintenance)) (request : Attributes) :
    Option Rejection :=
  let gpuType := request.text "gpu_type"
  match maintenance.lookup gpuType with
  | none => none
  | some entry =>
    if entry.allowedUsers.contains (request.text "user_id") then none
    else some (.maintenance gpuType entry.reason)

/-- The type is only there as a spot instance, and the request does not say `spot`. -/
def spotRejection (cfg : Settings) (request : Attributes) : Option Rejection :=
  if !request.truthy "spot" && cfg.isSpotType (request.text "gpu_type") then
    some (.spotOnly (request.text "gpu_type"))
  else none

/-- The count is not one that the type allows. -/
def countRejection (request : Attributes) : Option Rejection :=
  let gpuType := request.text "gpu_type"
  let gpuCount := (request "gpu_count").getD (.number 1)
  if startsWith gpuType "cpu-" then
    if gpuCount.numeric? = some 0 then none else some (.cpuCount gpuType gpuCount)
  else if gpuCount.numeric?.any ([1, 2, 4, 8, 16].contains ·) then none
  else some (.gpuCount gpuCount)

/-- The reservation of a GPU would last too long. -/
def durationRejection (cfg : Settings) (request : Attributes) : Option Rejection :=
  let duration := (request "duration_hours").getD (.number cfg.defaultTimeoutHours)
  if startsWith (request.text "gpu_type") "cpu-" then none
  else
    match duration.numeric? with
    | none => some (.incomparable duration)
    | some hours =>
      if cfg.maxReservationHours < hours then some (.duration hours cfg.maxReservationHours)
      else none

/-- `validate_reservation_request`: the first thing that is wrong, if anything. -/
def findRejection (cfg : Settings) (maintenance : List (String × Maintenance))
    (request : Attributes) : Option Rejection :=
  if (request "user_id").isNone then some (.missingField "user_id")
  else if (request "gpu_count").isNone then some (.missingField "gpu_count")
  else if !validGpuTypes.contains (request.text "gpu_type") then
    some (.invalidGpuType (request.text "gpu_type"))
  else (maintenanceRejection maintenance request).or <| (spotRejection cfg request).or <|
    (countRejection request).or (durationRejection cfg request)

/-! ### The pod -/

/-- What a request decides about a pod in `create_pod`. -/
structure BoxSpec where
  gpuType : String
  /-- `int(gpu_count)`, from which the resources follow. -/
  gpuCount : Option ℤ
  /-- The image in place of the default one. -/
  customImage : Option Value
  /-- The volume behind `/home/dev`; an `emptyDir` without one. -/
  home : Option String
  /-- `JUPYTER_ENABLED`. -/
  jupyterEnabled : Bool
  /-- `CREATE_SH_ENV`. -/
  createShEnv : Value
  /-- The image's own entrypoint runs, and not the startup script with its SSH daemon. -/
  ownEntrypoint : Bool
  /-- Whether nodes for profiling are preferred or avoided; pods without GPUs do neither. -/
  prefersProfiling : Option Bool
  /-- The PyTorch checkout that is staged. -/
  stagedRef : Option String
  /-- The zone and the node that the pod is pinned to. -/
  pinned : Option String × Option String

/-- `node_labels and node_labels.get("nsight") == "true"`; what is no dictionary has no `get`. -/
def asksForProfiling : Option Value → Option Bool
  | none => some false
  | some (.dict labels) =>
    match labels.lookup "nsight" with
    | some (.text s) => some (s = "true")
    | _ => some false
  | some v => if v.truthy then none else some false

/-- The node affinity of a pod; `none` if building it raises. -/
def profilingPreference (gpuType : String) (nodeLabels : Option Value) : Option (Option Bool) :=
  if startsWith gpuType "cpu-" then some none else (asksForProfiling nodeLabels).map some

/-- `create_pod`, as far as a request decides it; `none` if it raises. -/
def boxSpec (gpuCount : Option ℤ) (pod : PodParameters) : Option BoxSpec :=
  (profilingPreference pod.gpuType pod.nodeLabels).map fun prefersProfiling =>
    { gpuType := pod.gpuType
      gpuCount := gpuCount
      customImage := pod.dockerimage.filter Value.truthy
      home := pod.persistentVolumeId
      jupyterEnabled := pod.jupyterEnabled.truthy
      createShEnv := if pod.isNewDisk then .flag true else pod.recreateEnv
      ownEntrypoint := pod.preserveEntrypoint.truthy
      prefersProfiling := prefersProfiling
      stagedRef := if pod.persistentVolumeId.isNone && pod.pytorchRef != "none" then
        some pod.pytorchRef else none
      pinned := (pod.targetAz, pod.targetNode) }

/-- How a request is served: it is rejected, its allocation raises, or it gets a pod. -/
inductive Service
  | rejected (rejection : Rejection)
  | raised
  | box (spec : BoxSpec)

/-- A pod, if building it does not raise. -/
def Service.ofSpec : Option BoxSpec → Service
  | some spec => .box spec
  | none => .raised

/-! ### The cold path -/

/-- What the cold path finds outside the request: the other live records of the user, unless the
query for them raises, the disk it would set up, and the keys and the shared storage. -/
structure Surroundings where
  otherLive : Option (List Attributes)
  disk : DiskSetup
  githubPublicKey : String
  efsFilesystemId : String

/-- `should_use_persistent_disk`. -/
def Surroundings.allowPersistentDisk (around : Surroundings) : Bool :=
  match around.otherLive with
  | none => false
  | some others => !others.any Attributes.hasPersistentDisk

/-- Whether `allocate_gpu_resources` uses a persistent disk. -/
def usesPersistentDisk (around : Surroundings) (params : AllocationParameters) : Bool :=
  if params.noPersistentDisk.truthy then false
  else if params.isMultinode.truthy && 0 < params.nodeIndex then false
  else if params.disk.isSome then true
  else around.allowPersistentDisk

/-- The arguments of `create_pod` on the cold path for a request that names an image or none. -/
def coldParameters (around : Surroundings) (request : Attributes) : PodParameters :=
  let params := allocationParameters request
  podParameters request.key params around.githubPublicKey around.efsFilesystemId params.dockerimage
    (if usesPersistentDisk around params then some around.disk else none)

/-- The cold path where its calls succeed: `process_reservation_request` for a single node. -/
def coldService (cfg : Settings) (maintenance : List (String × Maintenance))
    (around : Surroundings) (request : Attributes) : Service :=
  match findRejection cfg maintenance request with
  | some rejection => .rejected rejection
  | none => .ofSpec (boxSpec ((request "gpu_count").getD (.number 1)).int?
      (coldParameters around request))

/-! ### The warm path -/

/-- The arguments of `create_pod` in `_create_warm_pod`; what is not passed has its default. -/
def warmParameters (podName gpuType : String) : PodParameters where
  podName := podName
  gpuCount := warmGpuCount gpuType
  gpuType := gpuType
  githubPublicKey := ""
  githubUser := none
  jupyterEnabled := .flag false
  persistentVolumeId := none
  userId := some (.text "warm")
  isNewDisk := true
  recreateEnv := .flag false
  efsFilesystemId := ""
  isMultinode := .flag false
  dockerfile := none
  dockerimage := none
  targetAz := none
  targetNode := none
  peerPods := []
  multinodeRank := 0
  preserveEntrypoint := .flag false
  nodeLabels := none
  nvmeCacheHit := false
  pytorchRef := "master"

/-- What a claimed pod is: `try_claim_warm_pod` leaves all of this as it was built. -/
def warmService (podName gpuType : String) : Service :=
  .ofSpec (boxSpec (some (warmGpuCount gpuType)) (warmParameters podName gpuType))

/-- The count that `try_claim_warm_pod` reads is that of the pods of the type. -/
def countMatchesPool (request : Attributes) : Bool :=
  ((request "gpu_count").getD (.number 0)).int? ==
    some (warmGpuCount (request.text "gpu_type") : ℤ)

/-! ### Where the two agree -/

section Comparison

variable {cfg : Settings} {maintenance : List (String × Maintenance)} {around : Surroundings}
  {request : Attributes} {podName : String}

/-- The request is valid, and asks for nothing that a pod with the defaults lacks: no persistent
disk, named or by default, no Jupyter, no entrypoint of its own and no node for profiling. -/
structure DefaultsSuffice (cfg : Settings) (maintenance : List (String × Maintenance))
    (around : Surroundings) (request : Attributes) : Prop where
  valid : findRejection cfg maintenance request = none
  ephemeral : request.truthy "no_persistent_disk" = true ∨ around.allowPersistentDisk = false
  withoutJupyter : request.truthy "jupyter_enabled" = false
  startupScript : request.truthy "preserve_entrypoint" = false
  noProfiling : startsWith (request.text "gpu_type") "cpu-" = true ∨
    asksForProfiling (request "node_labels") = some false

/-- A text that is there reads the same with any default. -/
theorem Attributes.text_of_ne {a : Attributes} {name default : String} (h : a.text name ≠ "") :
    a.text name default = a.text name := by
  unfold Attributes.text at h ⊢
  split
  · rfl
  · simp_all

/-- What a valid request has. -/
theorem findRejection_eq_none (h : findRejection cfg maintenance request = none) :
    (∃ gpuCount, request "gpu_count" = some gpuCount) ∧
      validGpuTypes.contains (request.text "gpu_type") = true := by
  unfold findRejection at h
  split_ifs at h with huser hcount htype
  refine ⟨Option.isSome_iff_exists.mp ?_, by simpa using htype⟩
  simpa [Option.isNone_iff_eq_none, Option.isSome_iff_ne_none] using hcount

/-- The type of a valid request is read as such by the allocation. -/
theorem allocationParameters_gpuType (h : findRejection cfg maintenance request = none) :
    (allocationParameters request).gpuType = request.text "gpu_type" := by
  refine Attributes.text_of_ne fun hempty => ?_
  have hvalid := (findRejection_eq_none h).2
  rw [hempty] at hvalid
  revert hvalid
  decide

theorem truthy_getD {value : Option Value} :
    (value.getD (.flag false)).truthy = (value.map Value.truthy).getD false := by
  cases value <;> rfl

/-- A request that the pool may serve uses a persistent disk unless it says no or the user has
one already. -/
theorem usesPersistentDisk_of_eligible (h : warmPoolEligible cfg request = true) :
    usesPersistentDisk around (allocationParameters request) =
      (!request.truthy "no_persistent_disk" && around.allowPersistentDisk) := by
  simp only [warmPoolEligible, Bool.and_eq_true, Bool.not_eq_true'] at h
  obtain ⟨⟨⟨⟨⟨⟨-, -⟩, -⟩, -⟩, hmultinode⟩, hdisk⟩, -⟩ := h
  have hname : (allocationParameters request).disk = none := by
    have htext : textOf (request "disk_name") = "" := by
      unfold textOf
      split
      · rename_i s hs
        simpa [Attributes.truthy, hs, Value.truthy] using hdisk
      · rfl
    simp [AllocationParameters.disk, allocationParameters, htext]
  have hsingle : (allocationParameters request).isMultinode.truthy = false :=
    truthy_getD.trans hmultinode
  have hno : (allocationParameters request).noPersistentDisk.truthy =
      request.truthy "no_persistent_disk" := truthy_getD
  unfold usesPersistentDisk
  rw [hname, hsingle, hno]
  cases request.truthy "no_persistent_disk" <;> simp

/-- The pod that the cold path builds for a valid request that the pool may serve. -/
theorem coldService_of_eligible (h : warmPoolEligible cfg request = true)
    (hvalid : findRejection cfg maintenance request = none)
    (hcount : countMatchesPool request = true) :
    coldService cfg maintenance around request =
      .ofSpec ((profilingPreference (request.text "gpu_type") (request "node_labels")).map fun p =>
        let disk := if !request.truthy "no_persistent_disk" && around.allowPersistentDisk then
          some around.disk else none
        { gpuType := request.text "gpu_type"
          gpuCount := some (warmGpuCount (request.text "gpu_type"))
          customImage := none
          home := disk.map (·.volumeId)
          jupyterEnabled := request.truthy "jupyter_enabled"
          createShEnv := if (disk.map (·.isNewDisk)).getD true then .flag true
            else (request "recreate_env").getD (.flag false)
          ownEntrypoint := request.truthy "preserve_entrypoint"
          prefersProfiling := p
          stagedRef := if disk.isNone then some "master" else none
          pinned := (disk.map (·.targetAz), disk.bind (·.targetNode)) }) := by
  have huses : usesPersistentDisk around (allocationParameters request) =
      (!request.truthy "no_persistent_disk" && around.allowPersistentDisk) :=
    usesPersistentDisk_of_eligible h
  have htype := allocationParameters_gpuType hvalid
  obtain ⟨⟨gpuCount, hgpuCount⟩, -⟩ := findRejection_eq_none hvalid
  have hint : ((request "gpu_count").getD (.number 1)).int? =
      some (warmGpuCount (request.text "gpu_type") : ℤ) := by
    simpa [countMatchesPool, hgpuCount] using hcount
  simp only [warmPoolEligible, Bool.and_eq_true, Bool.not_eq_true', beq_iff_eq] at h
  obtain ⟨⟨⟨⟨⟨⟨-, himage⟩, -⟩, -⟩, -⟩, -⟩, href⟩ := h
  have himage' : (request "dockerimage").filter Value.truthy = none := by
    cases hvalue : request "dockerimage" with
    | none => rfl
    | some v =>
      rw [Option.filter_eq_none_iff]
      simpa [Attributes.truthy, hvalue] using himage
  have hjupyter : (allocationParameters request).jupyterEnabled.truthy =
      request.truthy "jupyter_enabled" := truthy_getD
  have hentrypoint : (allocationParameters request).preserveEntrypoint.truthy =
      request.truthy "preserve_entrypoint" := truthy_getD
  have href' : (allocationParameters request).ref = "master" := href
  simp only [coldService, hvalid, hint, coldParameters, huses, boxSpec, podParameters, htype,
    hjupyter, hentrypoint, href']
  simp only [allocationParameters, himage', Option.isNone_map]
  congr 2
  funext p
  split <;> rfl

/-- The affinity is that of a pod with the defaults where no node for profiling is asked for. -/
theorem profilingPreference_eq_default {gpuType : String} {nodeLabels : Option Value} :
    profilingPreference gpuType nodeLabels =
        some (if startsWith gpuType "cpu-" then none else some false) ↔
      startsWith gpuType "cpu-" = true ∨ asksForProfiling nodeLabels = some false := by
  unfold profilingPreference
  cases startsWith gpuType "cpu-" with
  | true => simp
  | false => simp [Option.map_eq_some_iff]

/-- The pod that is claimed. -/
theorem warmService_eq (podName gpuType : String) :
    warmService podName gpuType =
      .box { gpuType := gpuType
             gpuCount := some (warmGpuCount gpuType)
             customImage := none
             home := none
             jupyterEnabled := false
             createShEnv := .flag true
             ownEntrypoint := false
             prefersProfiling := if startsWith gpuType "cpu-" then none else some false
             stagedRef := some "master"
             pinned := (none, none) } := by
  have hprofiling : profilingPreference (warmParameters podName gpuType).gpuType
      (warmParameters podName gpuType).nodeLabels =
        some (if startsWith gpuType "cpu-" then none else some false) :=
    profilingPreference_eq_default.mpr (.inr rfl)
  rw [warmService, boxSpec, hprofiling]
  rfl

/-- For a request that the pool may serve and whose count is that of its pods, the claimed pod is
what the cold path would have given just when the request is valid and the defaults suffice. -/
theorem coldService_eq_warmService_iff (heligible : warmPoolEligible cfg request = true)
    (hcount : countMatchesPool request = true) :
    coldService cfg maintenance around request =
        warmService podName (request.text "gpu_type") ↔
      DefaultsSuffice cfg maintenance around request := by
  rw [warmService_eq]
  cases hvalid : findRejection cfg maintenance request with
  | some rejection =>
    have hcold : coldService cfg maintenance around request = .rejected rejection := by
      simp only [coldService, hvalid]
    rw [hcold]
    refine iff_of_false (fun h => by cases h) fun h => ?_
    have hnone := h.valid
    rw [hvalid] at hnone
    cases hnone
  | none =>
    rw [coldService_of_eligible heligible hvalid hcount]
    constructor
    · intro h
      cases hp : profilingPreference (request.text "gpu_type") (request "node_labels") with
      | none =>
        rw [hp] at h
        cases h
      | some p =>
        rw [hp] at h
        simp only [Option.map_some, Service.ofSpec, Service.box.injEq, BoxSpec.mk.injEq,
          Option.map_eq_none_iff] at h
        obtain ⟨-, -, -, hhome, hjupyter, -, hentrypoint, hprofiling, -, -⟩ := h
        refine ⟨hvalid, ?_, hjupyter, hentrypoint, ?_⟩
        · by_contra hdisk
          simp only [not_or, Bool.not_eq_true, Bool.not_eq_false] at hdisk
          rw [hdisk.1, hdisk.2] at hhome
          cases hhome
        · rw [← profilingPreference_eq_default, hp, hprofiling]
    · intro h
      have hdisk : (!request.truthy "no_persistent_disk" && around.allowPersistentDisk)
          = false := by
        obtain hno | hother := h.ephemeral
        · rw [hno]
          rfl
        · rw [hother, Bool.and_false]
      rw [profilingPreference_eq_default.mpr h.noProfiling, h.withoutJupyter,
        h.startupScript, hdisk]
      rfl

/-- A request for a single GPU that asks for no disk. -/
def plainRequest : Attributes :=
  .ofList [("reservation_id", .text "00000000-1111"), ("user_id", .text "user"),
    ("gpu_type", .text "h100"), ("gpu_count", .number 1), ("duration_hours", .number 8),
    ("no_persistent_disk", .flag true)]

/-- The user has no other reservation, and the default disk would be restored. -/
def noOtherReservation : Surroundings :=
  ⟨some [], ⟨"vol-1", false, "us-east-2a", some "node-1", false⟩, "ssh-ed25519 AAAA", ""⟩

theorem coldService_eq_warmService_plain :
    coldService .usual gpuMaintenance noOtherReservation plainRequest =
      warmService "gpu-dev-h100-1d95ba" "h100" :=
  (coldService_eq_warmService_iff (by decide +kernel) (by decide +kernel)).mpr
    ⟨by decide +kernel, .inl rfl, rfl, rfl, .inr rfl⟩

/-- The same request without a word about the disk: the cold path would restore the default one. -/
theorem not_coldService_eq_warmService :
    ¬ ∀ (cfg : Settings) (maintenance : List (String × Maintenance)) (around : Surroundings)
        (request : Attributes) (podName : String),
      warmPoolEligible cfg request = true → countMatchesPool request = true →
        coldService cfg maintenance around request =
          warmService podName (request.text "gpu_type") := by
  intro hall
  have h := hall .usual gpuMaintenance noOtherReservation
    (.ofList [("user_id", .text "user"), ("gpu_type", .text "h100"), ("gpu_count", .number 1)])
    "gpu-dev-h100-1d95ba" (by decide +kernel) (by decide +kernel)
  cases h

end Comparison

end CiInfra.GpuDev

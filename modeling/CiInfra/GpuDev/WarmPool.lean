import CiInfra.GpuDev.Connection
import CiInfra.GpuDev.Placement

/-!
# The warm pool

For some types a number of booted pods stand by. A reservation that asks for nothing special
claims one: it takes the pod out of the pool by its labels, puts the user's keys into it and
writes an active record. A scheduled pass recycles and tops up the pool. Nothing here is done
under a condition: each pass acts on the list of pods it has read.
-/

namespace CiInfra.GpuDev

open Interaction Fallible

/-- `int(...)` of an attribute that may be missing. -/
def intOf (a : Attributes) (name : String) (default : ℤ) : Lambda ℤ :=
  match a name with
  | none => return default
  | some (.number q) => return (if 0 ≤ q then q.floor else q.ceil)
  | some (.text s) =>
    match s.toInt? with
    | some n => return n
    | none => throw (.error "invalid literal for int()")
  | some _ => throw (.error "int() argument must be a string or a number")

/-- The text begins with a prefix. -/
def startsWith (s start : String) : Bool := start.toList.isPrefixOf s.toList

/-- `_warm_gpu_count`. -/
def warmGpuCount (gpuType : String) : ℕ := if startsWith gpuType "cpu-" then 0 else 1

/-! ### Claiming a pod -/

/-- What a claimed pod is called and reached by. -/
structure PodAddress where
  nodePort : ℚ
  nodePublicIp : String
  nodePrivateIp : String
  podIp : String
  domainName : Option String

/-- The labels that take a pod out of the pool. -/
def graduationLabels : List (String × Option String) :=
  [("app", some "gpu-dev-pod"), ("warm-state", none), ("warm-gpu-type", none),
    ("warm-gpu-count", none)]

/-- The record of a reservation that is served from the pool. -/
def claimedRecord (cfg : Settings) (body : Attributes) (gpuCount : ℤ) (durationHours : ℚ)
    (createdAt expiresAt : String) : Attributes :=
  .ofList
    [("reservation_id", (body "reservation_id").getD .null),
      ("user_id", (body "user_id").getD .null),
      ("gpu_count", .number gpuCount),
      ("gpu_type", (body "gpu_type").getD .null),
      ("duration_hours", .number durationHours),
      ("name", (body "name").getD (.text (toString gpuCount ++ "x " ++ body.text "gpu_type"))),
      ("created_at", (body "created_at").getD (.text createdAt)),
      ("status", .text "preparing"),
      ("expires_at", .text expiresAt),
      ("github_user", (body "github_user").getD (.text "")),
      ("lambda_version", .text cfg.lambdaVersion),
      ("source_command", (body "source_command").getD (.text "reserve")),
      ("warm_claimed", .flag true)]

/-- The port of the SSH service of a pod, which is created if there is none. -/
def servicePort (podName : String) : Lambda ℚ :=
  tryCatch (count (.service podName)) fun _ => do
    let nodePort ← orElseGive (count .nodePort) 30000
    attempt (.service podName)
    return nodePort

/-- The address of a pod looked up live. -/
def lookUpAddress (podName reservationId : String) : Lambda PodAddress := do
  let nodePort ← servicePort podName
  let nodePublicIp ← read (.nodeAddress podName)
  let nodePrivateIp ← orElseGive (read (.nodeAddress podName)) ""
  let podIp ← orElseGive (read (.nodeAddress podName)) ""
  let dnsEnabled ← ask .dnsEnabled
  if dnsEnabled then do
    let domain ← read (.dnsName reservationId)
    return ⟨nodePort, nodePublicIp, nodePrivateIp, podIp, some domain⟩
  else return ⟨nodePort, nodePublicIp, nodePrivateIp, podIp, none⟩

/-- The address of a claimed pod: from its annotations if it has been provisioned. -/
def claimedAddress (candidate : NamedPod) (reservationId : String) : Lambda PodAddress :=
  let noted := fun name => (candidate.2.annotations name).getD ""
  if noted "warm-node-port" ≠ "" && noted "warm-domain" ≠ "" then
    match (noted "warm-node-port").toInt? with
    | none => throw (.error "invalid literal for int()")
    | some port => return ⟨port, noted "warm-node-ip", noted "warm-node-private-ip",
        noted "warm-pod-ip",
        if noted "warm-domain" ≠ "-" then some (noted "warm-domain") else none⟩
  else lookUpAddress candidate.1 reservationId

/-- Bind the domain name of a claimed pod; one that cannot be bound is given up. -/
def bindDomain : Option String → Lambda (Option String)
  | none => return none
  | some domain => orElseGive (do
      attempt (.domainMapping domain)
      return some domain) none

/-- The end of `try_claim_warm_pod`: the record and the connection of a pod that has been taken
out of the pool. -/
def recordClaim (cfg : Settings) (body : Attributes) (gpuCount : ℤ) (candidate : NamedPod) :
    Lambda Bool := do
  let reservationId := body.text "reservation_id"
  attempt (.exec candidate.1)
  let durationHours ← floatOf body "duration_hours" 8
  let createdAt ← clock
  let expiresAt ← read (.timeAfter durationHours)
  putItem (claimedRecord cfg body gpuCount durationHours createdAt expiresAt)
  let address ← claimedAddress candidate reservationId
  let domainName ← bindDomain address.domainName
  updateReservationConnectionInfo reservationId
    { sshCommand := sshCommandFor domainName address.nodePort address.nodePublicIp
      podName := candidate.1
      nodePort := address.nodePort
      nodeIp := address.nodePublicIp
      nodePrivateIp := address.nodePrivateIp
      podIp := address.podIp
      jupyterPort := 0
      jupyterUrlBase := ""
      jupyterEnabled := false
      persistentVolumeId := none
      ebsAvailabilityZone := none
      domainName := domainName
      albConfig := none
      preserveEntrypoint := false }
  whenever (body.truthy "trace") <| logged do
    let traceData ← read (.trace reservationId)
    updateItem reservationId
      (.set [("trace_data", .text traceData), ("claim_path", .text "warm")])
  logged (attempt (.trigger "warm-reconcile"))
  logged (attempt (.trigger "efs-mount"))
  logged (attempt (.trigger "availability-update"))
  return true

/-- The pod that a claim takes from a listing. -/
def claimCandidate (gpuCount : ℤ) (pods : List NamedPod) : Option NamedPod :=
  pods.find? fun p =>
    p.2.phase == "Running" && p.2.labels "warm-gpu-count" == some (toString gpuCount)

/-- The body of `try_claim_warm_pod`. -/
def claimWarmPod (cfg : Settings) (body : Attributes) : Lambda Bool := do
  let gpuType := body.text "gpu_type"
  let gpuCount ← intOf body "gpu_count" 0
  if gpuCount ≠ warmGpuCount gpuType then
    return false
  else do
    let githubPublicKey ← getGithubPublicKey (body.text "github_user")
    if githubPublicKey = "" then
      return false
    else do
      let pods ← listWarmPods (some gpuType) (some "ready")
      match claimCandidate gpuCount pods with
      | none => return false
      | some candidate => do
        patchPod candidate.1 graduationLabels [("gpu-dev-user-id", some (body.text "user_id"))]
        recordClaim cfg body gpuCount candidate

/-- `try_claim_warm_pod`. -/
def tryClaimWarmPod (cfg : Settings) (body : Attributes) : Lambda Bool :=
  orElseGive (claimWarmPod cfg body) false

/-! ### Keeping the pool -/

/-- `_recycle_warm_pod`. Gives whether the pod has been deleted. -/
def recycleWarmPod (p : NamedPod) : Lambda Bool :=
  orElseGive (do
    let domain := (p.2.annotations "warm-domain").getD ""
    deletePod p.1
    logged (attempt (.service p.1))
    whenever (domain ≠ "" && domain ≠ "-") (logged (attempt (.domainMapping domain)))
    return true) false

/-- Recycle a listed pod without looking at the outcome. -/
def recycle (p : NamedPod) : Lambda Unit := do
  let _ ← recycleWarmPod p
  return ()

/-- `_create_warm_pod`. -/
def createWarmPod (gpuType : String) (gpuCount : ℕ) : Lambda Unit := do
  let generated ← freshId
  let podName := "gpu-dev-" ++ gpuType ++ "-" ++ String.ofList (generated.toList.take 6)
  createNamespacedPod podName
    { labels := dictOf [("app", "gpu-dev-warm"), ("reservation", podName), ("warm-state", "ready"),
        ("warm-gpu-type", gpuType), ("warm-gpu-count", toString gpuCount)]
      annotations := dictOf [("gpu-dev-user-id", "warm")]
      phase := "Pending"
      nodeName := none
      containers := [podRequests gpuType gpuCount]
      deletionRequested := false
      peerPods := []
      volume := none }
  logged do
    let _ ← count .nodePort
    attempt (.service podName)

/-- `_provision_warm_pod`. -/
def provisionWarmPod (p : NamedPod) : Lambda Unit :=
  if (p.2.annotations "warm-domain").any (· ≠ "") || p.2.phase ≠ "Running" then
    return ()
  else do
    let nodePort ← orElseGive (do
      let port ← count (.service p.1)
      return some port) none
    match nodePort with
    | none => return ()
    | some nodePort => do
      let nodePublicIp ← read (.nodeAddress p.1)
      let nodePrivateIp ← orElseGive (read (.nodeAddress p.1)) ""
      let podIp ← orElseGive (read (.nodeAddress p.1)) ""
      let dnsEnabled ← ask .dnsEnabled
      let domainName ← orElseGive (if dnsEnabled then (do
          let domain ← read (.dnsName "warm")
          attempt (.domainMapping domain)
          return domain) else return "-") "-"
      patchPod p.1 [] [("warm-node-ip", some nodePublicIp),
        ("warm-node-private-ip", some nodePrivateIp), ("warm-pod-ip", some podIp),
        ("warm-node-port", some (toString nodePort)), ("warm-domain", some domainName)]

/-- The pod has been claimed, as far as the pool's own label says. -/
def Pod.isClaimed (p : Pod) : Bool := p.labels "warm-state" == some "claimed"

/-- Whether a listed pod is finished or too old. -/
def isSpent (cfg : Settings) (p : NamedPod) : Lambda Bool := do
  let age ← orElseGive (count (.podAge p.1)) 0
  return p.2.phase == "Failed" || p.2.phase == "Succeeded" ||
    (p.2.labels "warm-state" == some "ready" && cfg.warmPodMaxAgeHours * 3600 < age)

/-- Recycle the spent ones among the listed pods, and give those that live on. -/
def recycleSpent (cfg : Settings) : List NamedPod → Lambda (List NamedPod)
  | [] => return []
  | p :: ps =>
    if p.2.isClaimed then recycleSpent cfg ps
    else do
      let spent ← isSpent cfg p
      if spent then do
        recycle p
        recycleSpent cfg ps
      else do
        let live ← recycleSpent cfg ps
        return p :: live

/-- Recycle one ready pod with an outdated image, and give the others. -/
def rotateOne (desired : String) : List NamedPod → Lambda (List NamedPod)
  | [] => return []
  | p :: ps =>
    if p.2.labels "warm-state" ≠ some "ready" then do
      let live ← rotateOne desired ps
      return p :: live
    else do
      let running ← orElseGive (read (.podImage p.1)) ""
      if running ≠ "" && running ≠ desired then do
        let recycled ← recycleWarmPod p
        return if recycled then ps else p :: ps
      else do
        let live ← rotateOne desired ps
        return p :: live

/-- The pass over the pods of one type in `reconcile_warm_pool`. -/
def reconcileType (cfg : Settings) (desired gpuType : String) (target : ℕ) : Lambda Unit := do
  let pods ← listWarmPods (some gpuType)
  let live ← recycleSpent cfg pods
  (live.drop target).forM recycle
  let live ← if desired ≠ "" then rotateOne desired (live.take target)
    else pure (live.take target)
  (live.filter fun p => p.2.labels "warm-state" == some "ready").forM fun p =>
    logged (provisionWarmPod p)
  logged ((List.replicate (target - live.length) gpuType).forM fun t =>
    createWarmPod t (warmGpuCount t))

/-- The last pass of `reconcile_warm_pool`: a listed pod of a type that is no longer pooled. -/
def recycleUntargeted (cfg : Settings) (p : NamedPod) : Lambda Unit :=
  whenever (!p.2.isClaimed && !(p.2.labels "warm-gpu-type").any fun t =>
    (cfg.warmPoolTargets.lookup t).isSome) (recycle p)

/-- `reconcile_warm_pool`. -/
def reconcileWarmPool (cfg : Settings) : Lambda Unit := do
  let desired ← orElseGive (read .currentImage) ""
  cfg.warmPoolTargets.forM fun (gpuType, target) =>
    logged (reconcileType cfg desired gpuType target)
  logged do
    let pods ← listWarmPods
    pods.forM (recycleUntargeted cfg)

/-! ### Requests that the pool can serve -/

/-- `warm_pool_eligible`. -/
def warmPoolEligible (cfg : Settings) (body : Attributes) : Bool :=
  (cfg.warmPoolTargets.lookup (body.text "gpu_type")).isSome &&
    !body.truthy "dockerimage" && !body.truthy "dockerfile" &&
    !body.truthy "spot" && !body.truthy "is_multinode" && !body.truthy "disk_name" &&
    sanitizePytorchRef (body "ref") == "master"

end CiInfra.GpuDev

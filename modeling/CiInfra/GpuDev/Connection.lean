import CiInfra.GpuDev.Records

/-!
# Connecting a user to a pod

A reservation becomes active with the write of its connection details. The SSH keys that are put
into a pod come from a cache, whose items share the reservations table, or from GitHub.
-/

namespace CiInfra.GpuDev

open Interaction Fallible

/-- `get_github_public_key`; the empty text stands for `None`. -/
def getGithubPublicKey (githubUsername : String) : Lambda String := do
  let usernameLower := githubUsername.toLower
  let cached ← read (.keysInMemory usernameLower)
  if cached ≠ "" then
    return cached
  else do
    let stored ← orElseGive (do
      let item ← getItem (sshKeyCacheKey usernameLower)
      let fresh ← ask (.keyCacheFresh usernameLower)
      return item.bind fun item => if fresh then some (item.text "ssh_keys") else none) none
    match stored with
    | some keys => return keys
    | none => orElseGive (do
        let keys ← read (.githubKeys githubUsername)
        if keys = "" then
          return ""
        else do
          let now ← epoch
          logged (putItem (.ofList
            [("reservation_id", .text (sshKeyCacheKey usernameLower)),
              ("ssh_keys", .text keys),
              ("cached_at", .text (toString now)),
              ("github_user", .text githubUsername),
              ("status", .text "cache")]))
          return keys) ""

/-- The SSH command for a pod, by its domain name or else by its port. -/
def sshCommandFor (domainName : Option String) (nodePort : ℚ) (nodeIp : String) : String :=
  match domainName with
  | some domain => "ssh -o ProxyCommand='gpu-dev-ssh-proxy %h %p' dev@" ++ domain
  | none => "ssh -p " ++ toString nodePort ++ " dev@" ++ nodeIp

/-- The arguments of `update_reservation_connection_info`. -/
structure ConnectionInfo where
  sshCommand : String
  podName : String
  nodePort : ℚ
  nodeIp : String
  nodePrivateIp : String
  podIp : String
  jupyterPort : ℚ
  jupyterUrlBase : String
  jupyterEnabled : Bool
  persistentVolumeId : Option String
  ebsAvailabilityZone : Option String
  domainName : Option String
  albConfig : Option Value
  preserveEntrypoint : Bool

/-- Whether Jupyter runs in the pod, with the message to store if it should but does not. -/
def verifyJupyter (podName : String) (jupyterEnabled : Bool) : Lambda (Bool × String) :=
  if jupyterEnabled then
    orElseGive (do
      let running ← ask (.jupyter podName)
      if running then
        return (true, "")
      else do
        let log ← read (.jupyterLog podName)
        return (false, "Jupyter failed to start: " ++ log)) (true, "")
  else return (false, "")

/-- The fields about the connection that are written only where there is something to write. -/
def optionalFields (info : ConnectionInfo) (jupyterError : String) : List (String × Value) :=
  (if info.preserveEntrypoint then [] else
    [("ssh_command", .text info.sshCommand), ("node_port", .number info.nodePort),
      ("node_ip", .text info.nodeIp)]) ++
  (if info.podIp ≠ "" then [("pod_ip", .text info.podIp)] else []) ++
  (info.persistentVolumeId.map fun volume =>
    [("ebs_volume_id", Value.text volume), ("ebs_volume_reserved", .flag false)]).getD [] ++
  (info.ebsAvailabilityZone.map fun zone =>
    [("ebs_availability_zone", Value.text zone)]).getD [] ++
  (if jupyterError ≠ "" then [("jupyter_error", .text jupyterError)] else []) ++
  (info.domainName.map fun domain => [("domain_name", Value.text domain)]).getD [] ++
  (info.albConfig.map fun config => [("alb_config", config)]).getD []

/-- The fields that make a reservation active. -/
def activeFields (info : ConnectionInfo) (expiresAt launchedAt instanceType gpuType token : String)
    (jupyter : Bool × String) : List (String × Value) :=
  [("pod_name", .text info.podName),
    ("expires_at", .text expiresAt),
    ("launched_at", .text launchedAt),
    ("namespace", .text "gpu-dev"),
    ("instance_type", .text instanceType),
    ("gpu_type", .text gpuType),
    ("jupyter_port", .number info.jupyterPort),
    ("jupyter_url", .text (if token ≠ "" ∧ jupyter.1 then info.jupyterUrlBase ++ "?token=" ++ token
      else info.jupyterUrlBase)),
    ("jupyter_token", .text token),
    ("jupyter_enabled", .flag jupyter.1),
    ("status", .text "active")] ++ optionalFields info jupyter.2

/-- `update_reservation_connection_info`. -/
def updateReservationConnectionInfo (reservationId : String) (info : ConnectionInfo) :
    Lambda Unit := do
  let item ← getItem reservationId
  match item with
  | none => throw (.error ("Reservation " ++ reservationId ++ " not found"))
  | some reservation => do
    let durationHours ← floatOf reservation "duration_hours" 2
    let now ← clock
    let expiresAt ← read (.timeAfter durationHours)
    let instanceType ← orElseGive (read (.instanceType info.podName)) "unknown"
    let gpuType ← orElseGive (read (.gpuTypeOf info.podName)) "unknown"
    let token ← orElseGive (read (.jupyter info.podName)) ""
    let jupyter ← verifyJupyter info.podName info.jupyterEnabled
    updateReservationFields reservationId
      (activeFields info expiresAt now instanceType gpuType token jupyter)
    match info.domainName with
    | some domain => logged (attempt (.domainMapping domain))
    | none => return ()

end CiInfra.GpuDev

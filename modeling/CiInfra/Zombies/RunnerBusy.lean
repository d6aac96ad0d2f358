import CiInfra.Lib.Fallible
import CiInfra.Lib.History
import Mathlib.Data.List.Nodup
import Mathlib.Data.Rat.Defs

/-!
# Which pods are protected

The cleanup of a runner namespace deletes pods that have been pending or running for too long. A
runner is protected while it executes a job: its EphemeralRunner has a job, or a live job pod
names it. A job pod is protected while its runner is there. One classifier decides on the pods of a
listing and once more before each deletion, but the two resolve what it is fed from different
evidence.
-/

namespace CiInfra.Zombies

open Interaction Fallible

/-- A pod, as far as the cleanup looks at it. -/
structure Pod where
  name : String
  /-- The kinds of the `ownerReferences`. -/
  ownerKinds : List String
  /-- The label `runner-pod`. -/
  runnerPod : Option String
  phase : Option String
  /-- The creation time in seconds, if it is known. -/
  createdAt : Option ℚ
  /-- The deletion timestamp is set. -/
  deletionRequested : Bool
  deriving DecidableEq

/-- An EphemeralRunner with `status.jobId`. -/
structure Runner where
  name : String
  jobId : Option String
  deriving DecidableEq

/-- The thresholds, in hours, and whether anything is deleted. -/
structure Config where
  pendingMaxHours : ℤ
  runningMaxHours : ℤ
  busyMaxHours : ℤ
  dryRun : Bool

/-- What is raised: an `ApiError` with its status code, or anything else. -/
inductive Failure
  | api (code : ℕ)
  | other
  deriving DecidableEq

/-! ### The namespace -/

/-- The pods and the runners of the namespace. -/
structure Cluster where
  pods : List Pod
  runners : List Runner
  podNames : (pods.map (·.name)).Nodup
  runnerNames : (runners.map (·.name)).Nodup

/-- The deletion of a pod is requested. -/
def Pod.terminate (name : String) (p : Pod) : Pod :=
  if p.name = name then { p with deletionRequested := true } else p

theorem Pod.name_terminate (name : String) (p : Pod) : (p.terminate name).name = p.name := by
  unfold terminate
  split <;> rfl

/-- The namespace after the deletion of a pod has been requested. -/
def Cluster.terminate (c : Cluster) (name : String) : Cluster where
  pods := c.pods.map (Pod.terminate name)
  runners := c.runners
  podNames := by
    rw [List.map_map]
    simpa only [Function.comp_def, Pod.name_terminate] using c.podNames
  runnerNames := c.runnerNames

/-- The EphemeralRunner of a name. -/
def Cluster.runner (c : Cluster) (name : String) : Option Runner :=
  c.runners.find? fun r => r.name = name

/-- The calls. -/
inductive Op
  /-- `datetime.now(UTC)`, in seconds. -/
  | now
  | listPods
  | listRunners
  | getRunner (name : String)
  | deletePod (name : String)

/-- The answers to each call. -/
def Op.Res : Op → Type
  | now => ℚ
  | listPods => Except Failure (List Pod)
  | listRunners => Except Failure (List Runner)
  | getRunner _ => Except Failure Runner
  | deletePod _ => Except Failure Unit

/-- `op.Answers c r c'`: in the namespace `c` the call may be answered `r`, leaving `c'`. What is
read without an error is what is there; a runner is not found only where there is none; a deletion
that raises may have been accepted. -/
def Op.Answers : (op : Op) → Cluster → op.Res → Cluster → Prop
  | now, c, _, c' => c' = c
  | listPods, c, r, c' => c' = c ∧ ∀ l, r = .ok l → l = c.pods
  | listRunners, c, r, c' => c' = c ∧ ∀ l, r = .ok l → l = c.runners
  | getRunner name, c, r, c' => c' = c ∧ (∀ x, r = .ok x → c.runner name = some x) ∧
      (r = .error (.api 404) → c.runner name = none)
  | deletePod name, c, r, c' => match r with
    | .ok () => c' = c.terminate name
    | .error _ => c' = c ∨ c' = c.terminate name

/-- Programs of the cleanup. -/
abbrev Cleaner := Fallible Op Op.Res Failure

/-! ### The classifier -/

/-- `Decision`. -/
inductive Decision
  | failSafeProtect
  | busyProtect
  | jobpodProtect
  | hardCapDelete
  | normalAgeDelete
  | notOverAgeKeep
  deriving DecidableEq

/-- `Decision.is_delete`. -/
def Decision.isDelete : Decision → Bool
  | hardCapDelete | normalAgeDelete => true
  | _ => false

/-- `RunnerLiveness`. -/
structure RunnerLiveness where
  readFailed : Bool := false
  runnerBusy : Bool := false
  anchorPresent : Bool := false
  deriving DecidableEq

/-- `is_ephemeralrunner_pod`. -/
def Pod.isEphemeralRunnerPod (p : Pod) : Bool := p.ownerKinds.contains "EphemeralRunner"

/-- `phase in TERMINAL_PHASES`. -/
def isTerminal (phase : Option String) : Bool :=
  phase == some "Succeeded" || phase == some "Failed"

/-- `age_over_threshold`. -/
def ageOverThreshold (cfg : Config) (phase : Option String) (ageHours : ℚ) : Option ℤ :=
  if phase = some "Pending" ∧ cfg.pendingMaxHours < ageHours then some cfg.pendingMaxHours
  else if (phase = some "Running" ∨ phase = some "Unknown") ∧ cfg.runningMaxHours < ageHours then
    some cfg.runningMaxHours
  else none

/-- `_age_decision`. -/
def ageDecision (cfg : Config) (phase : Option String) (ageHours : ℚ) : Decision :=
  if (ageOverThreshold cfg phase ageHours).isSome then .normalAgeDelete else .notOverAgeKeep

/-- `classify_pod`. -/
def classifyPod (cfg : Config) (pod : Pod) (phase : Option String) (ageHours : ℚ)
    (liveness : RunnerLiveness) : Decision :=
  if pod.isEphemeralRunnerPod then
    if liveness.readFailed then .failSafeProtect
    else if liveness.runnerBusy && !isTerminal phase then
      if cfg.busyMaxHours < ageHours then .hardCapDelete else .busyProtect
    else ageDecision cfg phase ageHours
  else if pod.runnerPod.isSome then
    if liveness.readFailed then .failSafeProtect
    else if liveness.anchorPresent then
      if cfg.busyMaxHours < ageHours then .hardCapDelete else .jobpodProtect
    else ageDecision cfg phase ageHours
  else ageDecision cfg phase ageHours

/-! ### From a listing -/

/-- `BusyState`. -/
structure BusyState where
  /-- `er_jobid`, in the order of the listing. -/
  erJobid : List (String × String)
  liveRunnerNames : List String
  busyByWorkflow : List String
  erReadFailed : Bool

/-- `er_jobid.get(pod_name, "")`; a later entry replaces an earlier one. -/
def BusyState.jobIdOf (state : BusyState) (podName : String) : String :=
  (state.erJobid.reverse.lookup podName).getD ""

/-- `is_runner_busy`. -/
def BusyState.isRunnerBusy (state : BusyState) (podName : String) : Bool :=
  state.jobIdOf podName != "" || state.busyByWorkflow.contains podName

/-- `liveness_for`. -/
def BusyState.livenessFor (state : BusyState) (pod : Pod) : RunnerLiveness :=
  if pod.isEphemeralRunnerPod then
    { readFailed := state.erReadFailed, runnerBusy := state.isRunnerBusy pod.name }
  else
    match pod.runnerPod with
    | some label => { anchorPresent := state.liveRunnerNames.contains label }
    | none => {}

/-- `live_runner_names` of `build_busy_sets`. -/
def liveRunnerNames (pods : List Pod) : List String :=
  (pods.filter fun p => !isTerminal p.phase && p.isEphemeralRunnerPod).map (·.name)

/-- `busy_by_workflow` of `build_busy_sets`. -/
def busyByWorkflow (pods : List Pod) : List String :=
  (pods.filter fun p => !isTerminal p.phase).filterMap fun p => p.runnerPod.filter (· ≠ "")

/-- `build_busy_sets`, with the job ids of the runners. -/
def buildBusyState (pods : List Pod) (erJobid : List (String × String)) (erReadFailed : Bool) :
    BusyState := ⟨erJobid, liveRunnerNames pods, busyByWorkflow pods, erReadFailed⟩

/-- `status.get("jobId") or ""` of each runner. -/
def jobIdsOf (runners : List Runner) : List (String × String) :=
  runners.map fun r => (r.name, r.jobId.getD "")

/-- `read_ephemeralrunner_jobids`. -/
def readEphemeralRunnerJobids : Cleaner (List (String × String) × Bool) :=
  tryCatch (do
    let runners ← request .listRunners id
    return (jobIdsOf runners, false)) fun _ => return ([], true)

/-- `gather_busy_state`. -/
def gatherBusyState (pods : List Pod) : Cleaner BusyState := do
  let (erJobid, erReadFailed) ← readEphemeralRunnerJobids
  return buildBusyState pods erJobid erReadFailed

/-! ### Before a deletion -/

/-- What `get_ephemeralrunner` gives: whether the runner is there, its job, and whether the read
failed. -/
structure Lookup where
  found : Bool
  jobId : String
  readFailed : Bool

/-- `get_ephemeralrunner`. -/
def getEphemeralRunner (name : String) : Cleaner Lookup :=
  tryCatch (do
    let er ← request (.getRunner name) id
    return ⟨true, er.jobId.getD "", false⟩) fun
    | .api 404 => return ⟨false, "", false⟩
    | _ => return ⟨false, "", true⟩

/-- `recheck_liveness`. -/
def recheckLiveness (pod : Pod) : Cleaner RunnerLiveness :=
  if pod.isEphemeralRunnerPod then do
    let er ← getEphemeralRunner pod.name
    return if er.readFailed then { readFailed := true }
      else { runnerBusy := er.found && er.jobId != "" }
  else
    match pod.runnerPod with
    | some label => do
      let er ← getEphemeralRunner label
      return if er.readFailed then { readFailed := true } else { anchorPresent := er.found }
    | none => return {}

end CiInfra.Zombies

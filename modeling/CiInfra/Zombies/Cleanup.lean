import CiInfra.Zombies.RunnerBusy

/-!
# The cleanup

A run lists the pods and the runners, selects the pods to delete, cuts the selection to a part of
the namespace, and looks at each selected pod's runner once more before it deletes the pod.
-/

namespace CiInfra.Zombies

open Interaction Fallible

/-- `validate_config`. -/
def validateConfig (cfg : Config) : Option String :=
  if cfg.runningMaxHours ≤ 0 then
    some ("running_max_age_hours must be > 0 (got " ++ toString cfg.runningMaxHours ++ ")")
  else if cfg.pendingMaxHours ≤ 0 then
    some ("pending_max_age_hours must be > 0 (got " ++ toString cfg.pendingMaxHours ++ ")")
  else if cfg.busyMaxHours < cfg.runningMaxHours then
    some ("busy_max_age_hours (" ++ toString cfg.busyMaxHours ++
      ") must be >= running_max_age_hours (" ++ toString cfg.runningMaxHours ++ ")")
  else none

/-- `MANAGED_OWNER_KINDS`. -/
def managedOwnerKinds : List String := ["ReplicaSet", "DaemonSet", "StatefulSet", "Job"]

/-- `is_managed_pod`. -/
def Pod.isManagedPod (p : Pod) : Bool :=
  p.ownerKinds.any fun kind => managedOwnerKinds.contains kind

/-- `get_pod_age_hours`. -/
def Pod.ageHours (p : Pod) (now : ℚ) : ℚ :=
  match p.createdAt with
  | none => -1
  | some created => (now - created) / 3600

/-- The decision on a pod of the listing. -/
def findDecision (cfg : Config) (now : ℚ) (state : BusyState) (pod : Pod) : Decision :=
  classifyPod cfg pod pod.phase (pod.ageHours now) (state.livenessFor pod)

/-- The pod of the listing is selected. -/
def isZombie (cfg : Config) (now : ℚ) (state : BusyState) (pod : Pod) : Bool :=
  !pod.isManagedPod && !pod.deletionRequested && 0 ≤ pod.ageHours now &&
    (findDecision cfg now state pod).isDelete

/-- `find_zombie_pods`, with the number of pods that were listed. -/
def findZombiePods (cfg : Config) : Cleaner (List Pod × ℕ) := do
  let now ← request .now .ok
  let pods ← request .listPods id
  let state ← gatherBusyState pods
  return (pods.filter (isZombie cfg now state), pods.length)

/-- The decision on a selected pod right before its deletion. A pod without a phase counts as one
of an unknown phase here. -/
def recheckDecision (cfg : Config) (now : ℚ) (pod : Pod) (liveness : RunnerLiveness) : Decision :=
  classifyPod cfg pod (if (pod.phase.getD "") = "" then some "Unknown" else pod.phase)
    (pod.ageHours now) liveness

/-- What has become of the selected pods. -/
structure Tally where
  deleted : ℕ
  failed : ℕ
  recheckSkipped : ℕ

/-- Delete one pod. -/
def deleteOne (pod : Pod) (tally : Tally) : Cleaner Tally :=
  tryCatch (do
    request (.deletePod pod.name) id
    return { tally with deleted := tally.deleted + 1 }) fun
    | .api 404 => return { tally with deleted := tally.deleted + 1 }
    | _ => return { tally with failed := tally.failed + 1 }

/-- One selected pod: look at its runner once more, and delete it if that is still the decision. -/
def recheckAndDelete (cfg : Config) (now : ℚ) (pod : Pod) (tally : Tally) : Cleaner Tally := do
  let liveness ← recheckLiveness pod
  if (recheckDecision cfg now pod liveness).isDelete then
    if cfg.dryRun then return { tally with deleted := tally.deleted + 1 }
    else deleteOne pod tally
  else return { tally with recheckSkipped := tally.recheckSkipped + 1 }

/-- The loop of `delete_zombies`. -/
def deleteLoop (cfg : Config) (now : ℚ) : List Pod → Tally → Cleaner Tally
  | [], tally => return tally
  | pod :: rest, tally => do
    let tally ← recheckAndDelete cfg now pod tally
    deleteLoop cfg now rest tally

/-- `delete_zombies`. -/
def deleteZombies (cfg : Config) (zombies : List Pod) : Cleaner Tally := do
  let now ← request .now .ok
  deleteLoop cfg now zombies ⟨0, 0, 0⟩

/-- `max(int(total_pods_count * 0.1), 10)`. -/
def cleanupCap (totalPods : ℕ) : ℕ := max (totalPods / 10) 10

/-- `main`. Gives the exit code. -/
def main (cfg : Config) : Cleaner ℕ :=
  if (validateConfig cfg).isSome then return 1
  else orElseGive (do
    let (zombies, totalPods) ← findZombiePods cfg
    if zombies.isEmpty then return 0
    else do
      let tally ← deleteZombies cfg (zombies.take (cleanupCap totalPods))
      return if 0 < tally.failed then 1 else 0) 1

end CiInfra.Zombies

import CiInfra.Compactor.Fit
import Mathlib.Data.Finset.Basic

/-!
# Which pending pods could run on which nodes

Tolerations, node selectors, required node affinity and remaining resources; the burst
check that picks tainted nodes to give back; and the pending pods a node group must
count in its bin-pack minimum.
-/

namespace CiInfra.Compactor

open Kube

/-- Taints that pods are not expected to tolerate. -/
def ignoredTaintKeys : List String :=
  ["node-init.osdc.io/cache-enforcer", "node-init.osdc.io/registry-mirror",
    "node-init.osdc.io/perf-tuning", "node-init.osdc.io/algif-mitigation",
    "node-init.osdc.io/dirtyfrag-mitigation", "karpenter.sh/unregistered",
    "node.kubernetes.io/not-ready", "node.kubernetes.io/unreachable",
    "node.kubernetes.io/network-unavailable", "node.kubernetes.io/unschedulable",
    "node.kubernetes.io/memory-pressure", "node.kubernetes.io/disk-pressure",
    "node.kubernetes.io/pid-pressure"]

/-- Whether `tol` tolerates `taint`; unset fields are empty strings, the default operator
is `Equal`, and the empty key tolerates every taint, but only with `Exists`. -/
def tolerationMatchesTaint (tol : Toleration) (taint : Taint) : Bool :=
  let effect := tol.effect.getD ""
  let operator := if tol.operator.getD "" = "" then "Equal" else tol.operator.getD ""
  let key := tol.key.getD ""
  if effect ≠ "" ∧ effect ≠ taint.effect then false
  else if key = "" then operator = "Exists"
  else if key ≠ taint.key then false
  else if operator = "Exists" then true
  else if operator = "Equal" then tol.value.getD "" = taint.value
  else false

/-- Compare the integers written in a label and in the first value of an expression;
false if either is missing or not an integer. -/
def compareInts (r : ℤ → ℤ → Bool) (nodeValue : Option String) (values : List String) : Bool :=
  match nodeValue.bind (PythonNumber.int? ·.toList),
      values.head?.bind (PythonNumber.int? ·.toList) with
  | some a, some b => r a b
  | _, _ => false

/-- Whether one expression holds of the labels; an unknown operator excludes nothing. -/
def expressionMatches (labels : Dict) (e : NodeSelectorRequirement) : Bool :=
  match e.operator with
  | "In" => (labels e.key).any (· ∈ e.values)
  | "NotIn" => !(labels e.key).any (· ∈ e.values)
  | "Exists" => (labels e.key).isSome
  | "DoesNotExist" => (labels e.key).isNone
  | "Gt" => compareInts (fun a b => b < a) (labels e.key) e.values
  | "Lt" => compareInts (fun a b => a < b) (labels e.key) e.values
  | _ => true

/-- Check if all matchExpressions in a term match (AND'd). -/
def allExpressionsMatch (expressions : List NodeSelectorRequirement) (labels : Dict) : Bool :=
  expressions.all (expressionMatches labels)

/-- Check if any nodeSelectorTerm matches (terms are OR'd). -/
def anyTermMatches (terms : List NodeSelectorTerm) (labels : Dict) : Bool :=
  terms.any fun term => allExpressionsMatch term.matchExpressions labels

/-- Whether a pod's scheduling constraints (tolerations, nodeSelector, nodeAffinity)
match a node. -/
def podConstraintsMatch (pod : Pod) (n : NodeState) : Bool :=
  match pod.spec with
  | none => n.nodeTaints.isEmpty
  | some spec =>
    (n.nodeTaints.all fun taint =>
      taint.key ∈ ignoredTaintKeys || !(taint.effect ∈ ["NoSchedule", "NoExecute"]) ||
        spec.tolerations.any (tolerationMatchesTaint · taint)) &&
    (spec.nodeSelector.all fun (key, value) => n.labels key = some value) &&
    (spec.nodeSelectorTerms.isEmpty || anyTermMatches spec.nodeSelectorTerms n.labels)

/-- What the constraints of a pod ask of a node. -/
structure ConstraintsHold (spec : PodSpec) (n : NodeState) : Prop where
  taints : ∀ taint ∈ n.nodeTaints, taint.key ∉ ignoredTaintKeys →
    taint.effect ∈ ["NoSchedule", "NoExecute"] →
      ∃ tol ∈ spec.tolerations, tolerationMatchesTaint tol taint = true
  selector : ∀ pair ∈ spec.nodeSelector, n.labels pair.1 = some pair.2
  affinity : spec.nodeSelectorTerms ≠ [] → anyTermMatches spec.nodeSelectorTerms n.labels = true

theorem podConstraintsMatch_iff {pod : Pod} {spec : PodSpec} {n : NodeState}
    (hspec : pod.spec = some spec) :
    podConstraintsMatch pod n = true ↔ ConstraintsHold spec n := by
  have hselector : (spec.nodeSelector.all fun (key, value) => n.labels key = some value) = true ↔
      ∀ pair ∈ spec.nodeSelector, n.labels pair.1 = some pair.2 := by
    simp [List.all_eq_true]
  rw [podConstraintsMatch, hspec]
  simp only [Bool.and_eq_true, hselector, List.all_eq_true, Bool.or_eq_true, Bool.not_eq_true',
    decide_eq_true_eq, decide_eq_false_iff_not, List.any_eq_true, List.isEmpty_iff, or_assoc]
  constructor
  · rintro ⟨⟨htaints, hselector⟩, haffinity⟩
    exact ⟨fun taint htaint hkey heffect => ((htaints taint htaint).resolve_left hkey).resolve_left
      (not_not.mpr heffect), hselector, haffinity.resolve_left⟩
  · rintro ⟨htaints, hselector, haffinity⟩
    exact ⟨⟨fun taint htaint => or_iff_not_imp_left.mpr fun hkey =>
      or_iff_not_imp_left.mpr fun heffect => htaints taint htaint hkey (not_not.mp heffect),
      hselector⟩, or_iff_not_imp_left.mpr haffinity⟩

/-- Whether a pod's resource requests fit in the node's remaining capacity. -/
def podFitsResources (pod : Pod) (n : NodeState) : Bool :=
  if n.remaining.cpuRemaining < podCpuRequest pod then false
  else if n.remaining.memRemaining < podMemoryRequest pod then false
  else if 0 < podGpuRequest pod then
    if n.allocatableGpu = 0 then false else podGpuRequest pod ≤ n.remaining.gpuRemaining
  else true

/-- Check if a pending pod could run on a given node. -/
def podMatchesNode (pod : Pod) (n : NodeState) : Bool :=
  podConstraintsMatch pod n && podFitsResources pod n

/-- Take nodes in order until the pods fit on those taken. -/
def untaintUntilFit (pods : List PodInfo) (taken : List NodeState) :
    List NodeState → List NodeState
  | [] => taken
  | n :: rest =>
    if podsFitOnNodes pods (taken ++ [n]) then taken ++ [n]
    else untaintUntilFit pods (taken ++ [n]) rest

/-- Check for unschedulable pending pods; return nodes to untaint and compatible
pending count. -/
def checkPendingPods (cfg : Config) (nodeStates : NodeMap) (pendingPods : List Pod) :
    Finset String × ℕ :=
  let taintedNodes := nodeStates.values.filter NodeState.isTainted
  let onUntainted (pod : Pod) (n : NodeState) : Bool :=
    podMatchesNode pod (nodeViewWithoutTaint n cfg.taintKey)
  let compatiblePending := pendingPods.filter fun pod => taintedNodes.any (onUntainted pod)
  if compatiblePending = [] then (∅, 0)
  else
    let compatibleTainted :=
      taintedNodes.filter fun n => compatiblePending.any fun pod => onUntainted pod n
    let byUtilization := compatibleTainted.insertionSort fun n n' => n'.utilization ≤ n.utilization
    (((untaintUntilFit (compatiblePending.map podToPodinfo) [] byUtilization).map
      NodeState.name).toFinset, compatiblePending.length)

/-! ### Pending pods of a group -/

/-- Whether a pod of this age, with these constraints and requests, could land on some
node of the group once our taint is removed, net of DaemonSet overhead. -/
def couldLandOn (groupNodes : List NodeState) (taintKey : String) (pendingMinAge pendingMaxAge : ℤ)
    (now : ℚ) (pod : Pod) : Bool :=
  match pod.metadata.creationTimestamp with
  | none => false
  | some creation =>
    if now - creation < pendingMinAge ∨ (pendingMaxAge : ℚ) < now - creation then false
    else
      groupNodes.any (fun n => podConstraintsMatch pod (nodeViewWithoutTaint n taintKey)) &&
      groupNodes.any fun n =>
        podCpuRequest pod ≤ n.allocatableCpu - n.daemonsetCpu &&
        podMemoryRequest pod ≤ n.allocatableMemory - n.daemonsetMemory &&
        (podGpuRequest pod ≤ 0 || podGpuRequest pod ≤ n.allocatableGpu - n.daemonsetGpu)

/-- Filter raw pending pods to those that could land on this fleet, as `PodInfo`. -/
def pendingPodsForGroup (pendingPods : List Pod) (groupNodes : List NodeState)
    (taintKey : String) (pendingMinAge pendingMaxAge : ℤ) (now : ℚ) : List PodInfo :=
  (pendingPods.filter (couldLandOn groupNodes taintKey pendingMinAge pendingMaxAge now)).map
    podToPodinfo

/-! ### The burst check only names tainted nodes -/

end CiInfra.Compactor

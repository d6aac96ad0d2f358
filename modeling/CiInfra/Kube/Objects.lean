import Mathlib.Data.Rat.Defs

/-!
# Kubernetes objects as the controllers read them

Only the fields that some modelled function reads or writes are kept. Points in
time are seconds since the epoch as exact rationals; optional lists are empty
when absent, as `x or []` makes them.
-/

namespace CiInfra.Kube

/-- A string-to-string map such as labels or annotations. -/
abbrev Dict := String → Option String

/-- Apply a patch to a map: a value sets the key, `none` (JSON null) removes it. -/
def Dict.patch (d : Dict) : List (String × Option String) → Dict
  | [] => d
  | (k, v) :: rest => Dict.patch (fun k' => if k' = k then v else d k') rest

/-- A node taint. The empty `value` is the absent one (Go zero-value semantics). -/
structure Taint where
  key : String
  value : String
  effect : String
  timeAdded : Option ℚ
  deriving DecidableEq

/-- Resource quantities. CPU and memory are the API's quantity strings; of the GPU
count, an extended resource that the API server only accepts as an integer, the value
that `int(...)` reads is kept. -/
structure ResourceList where
  cpu : Option String
  memory : Option String
  gpu : Option ℤ
  deriving DecidableEq

/-- A node, with the revision of its last write. -/
structure Node where
  name : String
  resourceVersion : ℕ
  labels : Dict
  annotations : Dict
  creationTimestamp : Option ℚ
  taints : List Taint
  allocatable : ResourceList

/-- A Karpenter NodePool. -/
structure NodePool where
  name : String
  labels : Dict

/-- A namespace; a deletion timestamp marks it as terminating. -/
structure Namespace where
  name : String
  deletionTimestamp : Option ℚ

structure Toleration where
  key : Option String
  operator : Option String
  value : Option String
  effect : Option String
  deriving DecidableEq

/-- One expression of a node selector term. -/
structure NodeSelectorRequirement where
  key : String
  operator : String
  values : List String
  deriving DecidableEq

/-- Requirements on labels and on fields of a node, all of which must hold. -/
structure NodeSelectorTerm where
  matchExpressions : List NodeSelectorRequirement
  matchFields : List NodeSelectorRequirement
  deriving DecidableEq

/-- A container, reduced to its resource requests. -/
structure Container where
  requests : ResourceList
  deriving DecidableEq

structure PodCondition where
  type : String
  status : String
  reason : Option String
  message : Option String
  deriving DecidableEq

inductive PodPhase
  | pending
  | running
  | succeeded
  | failed
  | unknown
  deriving DecidableEq

/-- Pod metadata; of the owner references only the kinds are read. -/
structure PodMeta where
  name : String
  «namespace» : String
  creationTimestamp : Option ℚ
  deletionTimestamp : Option ℚ
  ownerKinds : List String

/-- A pod specification. `nodeSelectorTerms` are those of the required node affinity. -/
structure PodSpec where
  nodeName : Option String
  schedulingGates : List String
  containers : List Container
  tolerations : List Toleration
  nodeSelector : List (String × String)
  nodeSelectorTerms : List NodeSelectorTerm

structure PodStatus where
  phase : Option PodPhase
  conditions : List PodCondition
  startTime : Option ℚ

structure Pod where
  metadata : PodMeta
  spec : Option PodSpec
  status : Option PodStatus

/-- The node a pod is bound to; the empty name counts as unbound. -/
def Pod.nodeName (pod : Pod) : Option String :=
  match pod.spec with
  | none => none
  | some spec => spec.nodeName.filter (· ≠ "")

/-- `pod.status.phase if pod.status else None`. -/
def Pod.phase (pod : Pod) : Option PodPhase := pod.status.bind PodStatus.phase

/-- `pod.status.conditions or [] if pod.status else []`. -/
def Pod.conditions (pod : Pod) : List PodCondition :=
  match pod.status with
  | none => []
  | some status => status.conditions

/-- The containers of a pod; none without a specification. -/
def Pod.containers (pod : Pod) : List Container :=
  match pod.spec with
  | none => []
  | some spec => spec.containers

end CiInfra.Kube

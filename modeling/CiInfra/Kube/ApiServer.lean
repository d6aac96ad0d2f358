import CiInfra.Kube.Objects
import CiInfra.Lib.Program
import CiInfra.Lib.VersionedStore

/-!
# The API server

The server keeps nodes in a versioned store. A JSON patch is refused as a whole
when its `test` on the resource version fails; a merge patch that names a stale
resource version is refused as a conflict; a strategic patch of annotations names
no version and always applies. Every accepted patch bumps the resource version.
-/

namespace CiInfra.Kube

open Interaction VersionedStore

/-- What a failed call raises: an `ApiError` with its status code, or anything else. -/
inductive Failure
  | api (code : ℕ)
  | other
  deriving DecidableEq

/-- A taint as the client sends it. No client in this repository sends `timeAdded`. -/
structure TaintDict where
  key : String
  effect : String
  value : Option String
  deriving DecidableEq

/-- The taint the server stores for a dictionary it was sent. -/
def TaintDict.decode (t : TaintDict) : Taint := ⟨t.key, t.value.getD "", t.effect, none⟩

/-- The RFC 6902 operations used on nodes. -/
inductive JsonOp
  /-- `test` on `/metadata/resourceVersion`. -/
  | testResourceVersion (value : ℕ)
  /-- `add` past the end of the array at `/spec/taints`. -/
  | addTaint (value : TaintDict)
  /-- `add` at `/spec/taints`. -/
  | addTaints (value : List TaintDict)

/-- The patches sent to nodes. -/
inductive Patch
  /-- RFC 6902 JSON patch. -/
  | json (ops : List JsonOp)
  /-- JSON merge patch of `metadata.resourceVersion` and `spec.taints` (`none` is null). -/
  | mergeTaints (resourceVersion : ℕ) (taints : Option (List TaintDict))
  /-- JSON merge patch of `metadata.resourceVersion` and `metadata.annotations`. -/
  | mergeAnnotations (resourceVersion : ℕ) (annotations : List (String × Option String))
  /-- Strategic merge patch of `metadata.annotations`. -/
  | strategicAnnotations (annotations : List (String × Option String))

/-- One JSON patch operation. Appending needs the array to exist. -/
def JsonOp.apply (n : Node) : JsonOp → Except Failure Node
  | testResourceVersion v => if n.resourceVersion = v then .ok n else .error (.api 422)
  | addTaint t =>
    if n.taints = [] then .error (.api 422) else .ok { n with taints := n.taints ++ [t.decode] }
  | addTaints l => .ok { n with taints := l.map TaintDict.decode }

/-- JSON patch operations apply in order; the first refusal refuses all. -/
def JsonOp.applyAll (n : Node) : List JsonOp → Except Failure Node
  | [] => .ok n
  | op :: ops =>
    match op.apply n with
    | .error e => .error e
    | .ok n' => applyAll n' ops

/-- The node a patch produces, before its resource version is bumped. -/
def Patch.apply (n : Node) : Patch → Except Failure Node
  | json ops => JsonOp.applyAll n ops
  | mergeTaints v taints =>
    if n.resourceVersion = v then
      .ok { n with taints := (taints.getD []).map TaintDict.decode }
    else .error (.api 409)
  | mergeAnnotations v annotations =>
    if n.resourceVersion = v then
      .ok { n with annotations := Dict.patch n.annotations annotations }
    else .error (.api 409)
  | strategicAnnotations annotations =>
    .ok { n with annotations := Dict.patch n.annotations annotations }

theorem JsonOp.name_of_applyAll {ops : List JsonOp} {n n' : Node}
    (h : JsonOp.applyAll n ops = .ok n') : n'.name = n.name := by
  induction ops generalizing n with
  | nil =>
    cases h
    rfl
  | cons op ops ih =>
    cases hop : op.apply n with
    | error e => simp [applyAll, hop] at h
    | ok m =>
      have hm : m.name = n.name := by
        cases op <;> simp only [JsonOp.apply] at hop
        · split at hop <;> cases hop
          rfl
        · split at hop <;> cases hop
          rfl
        · cases hop
          rfl
      rw [← hm]
      exact ih (by simpa only [applyAll, hop] using h)

/-- No patch renames a node. -/
theorem Patch.name_of_apply {p : Patch} {n n' : Node} (h : p.apply n = .ok n') :
    n'.name = n.name := by
  cases p with
  | json ops => exact JsonOp.name_of_applyAll h
  | mergeTaints v taints =>
    simp only [Patch.apply] at h
    split at h <;> cases h
    rfl
  | mergeAnnotations v annotations =>
    simp only [Patch.apply] at h
    split at h <;> cases h
    rfl
  | strategicAnnotations annotations =>
    cases h
    rfl

/-- The effect of a patch on a node: nothing where it is refused. -/
def Patch.applyTo (p : Patch) (n : Node) : Node :=
  match p.apply n with
  | .ok n' => n'
  | .error _ => n

theorem Patch.name_applyTo (p : Patch) (n : Node) : (p.applyTo n).name = n.name := by
  unfold Patch.applyTo
  split
  · exact Patch.name_of_apply ‹_›
  · rfl

instance : Versioned Node String where
  key := Node.name
  version := Node.resourceVersion
  stamp v n := { n with resourceVersion := v }
  version_stamp _ _ := rfl
  key_stamp _ _ := rfl

@[simp] theorem key_node (n : Node) : Versioned.key n = n.name := rfl

@[simp] theorem version_node (n : Node) : Versioned.version n = n.resourceVersion := rfl

@[simp] theorem stamp_node (v : ℕ) (n : Node) :
    Versioned.stamp v n = { n with resourceVersion := v } := rfl

/-! ### Calls -/

/-- The calls of the controllers: API requests, clock readings, and the test of the
flag that the signal handler sets. -/
inductive Op
  | listNodePools
  | listNodes
  | listNamespaces
  | listPods
  | getNode (name : String)
  | patchNode (name : String) (patch : Patch)
  | wallClock
  | monotonicClock
  | shutdownRequested

/-- The answers to each call. -/
def Op.Res : Op → Type
  | listNodePools => Except Failure (List NodePool)
  | listNodes => Except Failure (List Node)
  | listNamespaces => Except Failure (List Namespace)
  | listPods => Except Failure (List Pod)
  | getNode _ => Except Failure Node
  | patchNode _ _ => Except Failure Unit
  | wallClock => ℚ
  | monotonicClock => ℚ
  | shutdownRequested => Bool

/-- Programs over the API. -/
abbrev Api (α : Type) := Program Op Op.Res α

/-- Sequencing of fallible programs: a failure is raised past the rest. -/
def Api.tryBind {α β : Type} (p : Api (Except Failure α)) (f : α → Api (Except Failure β)) :
    Api (Except Failure β) :=
  p.bind fun
    | .ok a => f a
    | .error e => .done (.error e)

/-- Everything the calls can read. `faults n` lists what happens to the coming
calls that name node `n`: `some e` fails the call without effect, `none` lets it through,
and calls past the end of the list go through. -/
structure Cluster where
  nodes : Store Node
  pods : List Pod
  namespaces : List Namespace
  nodePools : List NodePool
  /-- The `i`-th reading of the wall clock and of the monotonic clock. -/
  clock : ℕ → ℚ × ℚ
  readings : ℕ
  shutdown : Bool
  faults : String → List (Option Failure)

/-- A cluster with these nodes only, on which every call goes through. -/
def Cluster.quiet (nodes : Store Node) : Cluster where
  nodes := nodes
  pods := []
  namespaces := []
  nodePools := []
  clock := fun _ => (0, 0)
  readings := 0
  shutdown := false
  faults := fun _ => []

/-- The outcome decided for the next call, and what is left of the list. -/
def nextFault : List (Option Failure) → Option Failure × List (Option Failure)
  | [] => (none, [])
  | fault :: rest => (fault, rest)

/-- Replace the list of outcomes for one node. -/
def Cluster.withFaults (c : Cluster) (name : String) (faults : List (Option Failure)) : Cluster :=
  { c with faults := Function.update c.faults name faults }

/-- The outcome decided for the next call naming a node, and the cluster after it. -/
def Cluster.takeFault (c : Cluster) (name : String) : Option Failure × Cluster :=
  ((nextFault (c.faults name)).1, c.withFaults name (nextFault (c.faults name)).2)

/-- Read a node. -/
def Cluster.get (c : Cluster) (name : String) : Except Failure Node :=
  match c.nodes.find? name with
  | none => .error (.api 404)
  | some n => .ok n

/-- Patch a node. -/
def Cluster.patch (c : Cluster) (name : String) (p : Patch) : Except Failure Unit × Cluster :=
  match c.nodes.find? name with
  | none => (.error (.api 404), c)
  | some n =>
    match p.apply n with
    | .error e => (.error e, c)
    | .ok _ => (.ok (), { c with nodes := c.nodes.modify name p.applyTo p.name_applyTo })

/-- Answer one call. -/
def serve : (op : Op) → Cluster → op.Res × Cluster
  | .listNodePools, c => (.ok c.nodePools, c)
  | .listNodes, c => (.ok c.nodes.records, c)
  | .listNamespaces, c => (.ok c.namespaces, c)
  | .listPods, c => (.ok c.pods, c)
  | .getNode name, c =>
    match c.takeFault name with
    | (some e, c') => (.error e, c')
    | (none, c') => (c'.get name, c')
  | .patchNode name p, c =>
    match c.takeFault name with
    | (some e, c') => (.error e, c')
    | (none, c') => c'.patch name p
  | .wallClock, c => ((c.clock c.readings).1, { c with readings := c.readings + 1 })
  | .monotonicClock, c => ((c.clock c.readings).2, { c with readings := c.readings + 1 })
  | .shutdownRequested, c => (c.shutdown, c)

end CiInfra.Kube

import CiInfra.GpuDev.Table
import CiInfra.Kube.Objects
import Mathlib.Algebra.GroupWithZero.Nat

/-!
# What the Lambdas work on

Beside the reservations table there are the pods of the namespace `gpu-dev`, the nodes they run
on, and the EBS volumes. A pod that is to be deleted is marked first and goes later; patches of
labels and annotations are unconditional.
-/

namespace CiInfra.GpuDev

open Kube (Dict)

/-- Labels or annotations written out. -/
def dictOf (l : List (String × String)) : Dict := fun key => l.lookup key

/-- A pod. -/
structure Pod where
  labels : Dict
  annotations : Dict
  phase : String
  /-- The node the pod is bound to. -/
  nodeName : Option String
  /-- The resource requests of each container. -/
  containers : List (List (String × ℕ))
  /-- The deletion timestamp is set. -/
  deletionRequested : Bool
  /-- The peer pods of a multinode reservation, as written into the pod's environment. -/
  peerPods : List String
  /-- The EBS volume mounted as the home directory. -/
  volume : Option String

/-- A node. -/
structure Node where
  name : String
  labels : Dict
  /-- The condition `Ready` is `True`. -/
  ready : Bool
  unschedulable : Bool
  /-- The key and the effect of each taint. -/
  taints : List (String × String)
  allocatable : List (String × ℕ)

/-- An EBS volume with the tags that are read. -/
structure Volume where
  user : String
  diskName : Option String
  state : String

/-- The pods by name. -/
abbrev Pods := AList fun _ : String => Pod

/-- Everything that the calls can change. -/
structure World where
  table : Table
  pods : Pods
  nodes : List Node
  volumes : AList fun _ : String => Volume

/-- A listed pod with its name. -/
abbrev NamedPod := String × Pod

/-- How much of a resource a pod requests. -/
def Pod.request (p : Pod) (resource : String) : ℕ :=
  (p.containers.map fun c => (c.lookup resource).getD 0).sum

/-- How much of a resource a node can give to pods. -/
def Node.allocatableOf (n : Node) (resource : String) : ℕ := (n.allocatable.lookup resource).getD 0

/-- The pod counts against its node. -/
def Pod.isRunningOrPending (p : Pod) : Bool := p.phase == "Running" || p.phase == "Pending"

/-- The pod is an idle standby of the warm pool. -/
def Pod.isIdleWarm (p : Pod) : Bool :=
  p.labels "app" == some "gpu-dev-warm" && p.labels "warm-state" == some "ready"

/-- The pod is selected by `app=gpu-dev-warm`, and by the state and the type if they are
given. -/
def Pod.matchesWarm (p : Pod) (gpuType state : Option String) : Bool :=
  p.labels "app" == some "gpu-dev-warm" &&
    state.all (fun s => p.labels "warm-state" == some s) &&
    gpuType.all fun t => p.labels "warm-gpu-type" == some t

/-- Merge labels and annotations into a pod; `none` removes a key. -/
def Pod.patch (p : Pod) (labels annotations : List (String × Option String)) : Pod :=
  { p with labels := p.labels.patch labels, annotations := p.annotations.patch annotations }

namespace World

/-- The pods with their names. -/
def namedPods (w : World) : List NamedPod := w.pods.entries.map fun e => (e.1, e.2)

/-- The pods bound to a node. -/
def podsOn (w : World) (node : String) : List NamedPod :=
  w.namedPods.filter fun p => p.2.nodeName == some node

/-- The pods a warm-pool listing shows. -/
def warmPods (w : World) (gpuType state : Option String) : List NamedPod :=
  w.namedPods.filter fun p => p.2.matchesWarm gpuType state

/-- Replace a pod that is there. -/
def modifyPod (w : World) (name : String) (f : Pod → Pod) : Option World :=
  (w.pods.lookup name).map fun p => { w with pods := w.pods.insert name (f p) }

/-- Create a pod under a new name. -/
def createPod (w : World) (name : String) (p : Pod) : Option World :=
  match w.pods.lookup name with
  | some _ => none
  | none => some { w with pods := w.pods.insert name p }

/-- The volumes of a user's disk that are in use or available. -/
def volumesOf (w : World) (user disk : String) : List Volume :=
  (w.volumes.entries.map (·.2)).filter fun v =>
    v.user == user && v.diskName == some disk && (v.state == "in-use" || v.state == "available")

/-- Change the table. -/
def withTable (w : World) (t : Option Table) : Option World := t.map fun t => { w with table := t }

theorem modifyPod_eq_some {w w' : World} {name : String} {f : Pod → Pod}
    (h : w.modifyPod name f = some w') :
    ∃ p, w.pods.lookup name = some p ∧ w' = { w with pods := w.pods.insert name (f p) } := by
  obtain ⟨p, hp, rfl⟩ := Option.map_eq_some_iff.mp h
  exact ⟨p, hp, rfl⟩

theorem createPod_eq_some {w w' : World} {name : String} {p : Pod}
    (h : w.createPod name p = some w') :
    w.pods.lookup name = none ∧ w' = { w with pods := w.pods.insert name p } := by
  unfold createPod at h
  split at h
  · cases h
  · cases h
    exact ⟨‹_›, rfl⟩

theorem withTable_eq_some {w w' : World} {t : Option Table} (h : w.withTable t = some w') :
    ∃ t', t = some t' ∧ w' = { w with table := t' } := by
  obtain ⟨t', ht, rfl⟩ := Option.map_eq_some_iff.mp h
  exact ⟨t', ht, rfl⟩

/-- A listed pod is in the world under its name. -/
theorem mem_namedPods {w : World} {p : NamedPod} :
    p ∈ w.namedPods ↔ w.pods.lookup p.1 = some p.2 := by
  rw [namedPods, List.mem_map, ← Option.mem_def, AList.mem_lookup_iff]
  constructor
  · rintro ⟨⟨name, pod⟩, he, rfl⟩
    exact he
  · exact fun h => ⟨⟨p.1, p.2⟩, h, rfl⟩

end World

end CiInfra.GpuDev

import CiInfra.Lib.Earliest
import CiInfra.GpuDev.CapacityReadings
import CiInfra.SshProxy.DomainMappings
import Mathlib.Data.Prod.Lex

/-!
# When a size becomes available

The availability updater publishes for each size of a reservation the time at which it first fits.
It lets the pods of active reservations release their GPUs at the expiry, and no other pod ever. Is
the time that is published the earliest of this simulation?
-/

namespace CiInfra.GpuDev.SizeEtas

open SshProxy (Expiry)
open AvailabilityUpdater

/-- A pod with its name. -/
structure ClusterPod extends ListedPod where
  name : String

/-- A row of an active reservation. A GPU type that is no text is `none`. -/
structure ActiveRow where
  gpuType : Option String
  podName : Option String
  expiresAt : Option Expiry
  deriving DecidableEq

/-- `_parse_expires_at`. -/
def parseExpiresAt : Expiry → ℤ
  | .unix t => t
  | .iso t => PythonNumber.truncate t

/-- What the computation is made from. Names are unique, and no quantity is negative. -/
structure Situation where
  workspace : Workspace
  gpuType : String
  nodes : List ListedNode
  pods : List ClusterPod
  active : List ActiveRow
  now : ℤ
  nodup_nodes : (nodes.map ListedNode.name).Nodup
  nodup_pods : ((pods.filter fun p => p.podNamespace == "gpu-dev").map ClusterPod.name).Nodup
  requests_nonneg : ∀ p ∈ pods, ∀ container ∈ p.containers, ∀ resource,
    0 ≤ (quantity resource container).getD 0

namespace Situation

variable (s : Situation)

def resourceName : String :=
  getGpuResourceName s.workspace s.gpuType

def gpusPerInstance : ℕ :=
  (((supportedGpuTypes s.workspace).lookup s.gpuType).map (·.gpusPerInstance)).getD 8

/-- The nodes of the type that are ready and schedulable. -/
def schedulableNodes : List ListedNode :=
  s.nodes.filter fun n =>
    n.labels "GpuType" == some (getNodeLabelValue s.workspace s.gpuType) &&
      isNodeReadyAndSchedulable n

def capacity (n : ListedNode) : ℤ :=
  n.parsedTotal s.resourceName

/-- Those of them that have GPUs. -/
def gpuNodes : List ListedNode :=
  s.schedulableNodes.filter fun n => s.capacity n ≠ 0

/-- The GPUs that a pod requests. -/
def gpus (p : ClusterPod) : ℤ :=
  (p.containers.map fun container => (quantity s.resourceName container).getD 0).sum

/-- The pods that are entered in `pod_to_info`. -/
def infoPods : List ClusterPod :=
  s.pods.filter fun p =>
    p.podNamespace == "gpu-dev" && s.gpuNodes.any (fun n => p.nodeName == some n.name) &&
      (p.phase == "Running" || p.phase == "Pending") && 0 < s.gpus p

/-- `pod_to_info`: the node of each pod, and its GPUs. -/
def podToInfo : List (String × Option String × ℤ) :=
  s.infoPods.map fun p => (p.name, p.nodeName, s.gpus p)

/-- The pod and the time that a row says, if it is one of the type. -/
def release (row : ActiveRow) : Option (String × ℤ) :=
  if row.gpuType.all fun t => t.toLower == s.gpuType.toLower then
    match row.podName, row.expiresAt with
    | some podName, some expiresAt =>
      if podName = "" then none else some (podName, parseExpiresAt expiresAt)
    | _, _ => none
  else none

/-- What is entered for a node when a row says a pod and a time. -/
def expiration (n : ListedNode) (r : String × ℤ) : Option (ℤ × ℤ) :=
  match s.podToInfo.lookup r.1 with
  | some (nodeName, gpus) => if nodeName = some n.name then some (r.2, gpus) else none
  | none => none

/-- An entry of `node_state`. -/
structure NodeState where
  capacity : ℤ
  usedNow : ℤ
  expirations : List (ℤ × ℤ)
  deriving DecidableEq

def nodeState (n : ListedNode) : NodeState where
  capacity := s.capacity n
  usedNow := ((s.infoPods.filter fun p => p.nodeName == some n.name).map s.gpus).sum
  expirations :=
    Ranks.sortBy toLex ((s.active.filterMap s.release).filterMap (s.expiration n))

/-- `first_time_size_fits_single_node`, from the nodes that are left on. -/
def firstTimeSizeFits (now size : ℤ) : Option ℤ → List NodeState → Option ℤ
  | earliest, [] => earliest
  | earliest, ns :: rest =>
    let freeNow := ns.capacity - ns.usedNow
    if size ≤ freeNow then some now
    else
      firstTimeSizeFits now size
        (Earliest.earlier earliest (Earliest.firstEnough size freeNow ns.expirations)) rest

/-- When a node is entirely free, an entry of `free_at`. -/
def freeAt (now : ℤ) (ns : NodeState) : Option ℤ :=
  if ns.usedNow = 0 then some now else (ns.expirations.map Prod.fst).max?

/-- `first_time_k_full_nodes`. -/
def firstTimeFullNodes (now : ℤ) (states : List NodeState) (k : ℕ) : Option ℤ :=
  (Ranks.sortBy id (states.filterMap (freeAt now)))[k - 1]?

/-- The sizes on a single node. -/
def singleSizes : List ℕ :=
  [1, 2, 4, 8].takeWhile fun size => size ≤ s.gpusPerInstance

/-- The numbers of nodes, for the types that are reserved over several nodes. -/
def nodeCounts : List ℕ :=
  if s.gpusPerInstance = 8 ∧ multinodeGpuTypes.contains s.gpuType.toLower then [2, 3, 4, 5, 6]
  else []

/-- `compute_size_etas`: the sizes with their times. -/
def computeSizeEtas : List (ℕ × ℤ) :=
  let states := s.gpuNodes.map s.nodeState
  (s.singleSizes.filterMap fun size : ℕ =>
      (firstTimeSizeFits s.now (size : ℤ) none states).map fun eta => (size, eta)) ++
    s.nodeCounts.filterMap fun k =>
      (firstTimeFullNodes s.now states k).map fun eta => (k * s.gpusPerInstance, eta)

/-! ### The simulation -/

/-- The times that are said of a pod. -/
def timesOf (podName : String) (releases : List (String × ℤ)) : List ℤ :=
  releases.filterMap fun r => if r.1 = podName then some r.2 else none

/-- The expiry times of the active reservations of a pod. -/
def matchingTimes (p : ClusterPod) : List ℤ :=
  if p.podNamespace = "gpu-dev" then timesOf p.name (s.active.filterMap s.release) else []

/-- A pod has released its GPUs. -/
def isReleased (p : ClusterPod) (t : ℤ) : Bool :=
  (s.matchingTimes p).any fun time => time ≤ t

/-- The pods that use a node: those that run or are to run there, but for the idle warm ones. -/
def podsOn (n : ListedNode) : List ClusterPod :=
  s.pods.filter fun p => p.nodeName == some n.name && p.isCounted

/-- The GPUs of a node that are free at a time. -/
def freeGpus (n : ListedNode) (t : ℤ) : ℤ :=
  s.capacity n - (((s.podsOn n).filter fun p => !s.isReleased p t).map s.gpus).sum

def isEntirelyFree (n : ListedNode) (t : ℤ) : Bool :=
  (s.podsOn n).all fun p => s.gpus p = 0 || s.isReleased p t

/-- The times from now on at which a size fits on a node. -/
def timesOfSize (size : ℕ) : Set ℤ :=
  { t | s.now ≤ t ∧ ∃ n ∈ s.schedulableNodes, (size : ℤ) ≤ s.freeGpus n t }

/-- The times from now on at which so many nodes are entirely free. -/
def timesOfNodes (k : ℕ) : Set ℤ :=
  { t | s.now ≤ t ∧ k ≤ (s.gpuNodes.filter fun n => s.isEntirelyFree n t).length }

def cluster : Cluster :=
  ⟨s.nodes, s.pods.map ClusterPod.toListedPod⟩

/-- The published times are the earliest of the simulation, and now exactly for the sizes that fit
on a node by the published counts. -/
structure EtasAreEarliest : Prop where
  single : ∀ size ∈ s.singleSizes,
    Earliest.IsEarliest (s.timesOfSize size) (s.computeSizeEtas.lookup size)
  available : ∀ size ∈ s.singleSizes, s.computeSizeEtas.lookup size = some s.now ↔
    ∃ n ∈ eligibleNodes s.workspace s.cluster s.gpuType,
      size ≤ AvailabilityUpdater.getAvailableGpusOnNode s.workspace s.cluster s.gpuType n
  multinode : ∀ k ∈ s.nodeCounts,
    Earliest.IsEarliest (s.timesOfNodes k) (s.computeSizeEtas.lookup (k * s.gpusPerInstance))

/-- The pods that hold GPUs of a node: those that run or are to run there. -/
def holders (n : ListedNode) : List ClusterPod :=
  s.pods.filter fun p => p.nodeName == some n.name &&
    (p.phase == "Running" || p.phase == "Pending") && 0 < s.gpus p

/-- Every pod that holds GPUs is traced: it is in the namespace of the reservations, unless it is
idle in the warm pool, and then it is not; it has at most one active reservation, which is still to
expire; and if sizes over several nodes are published, then with one pod of a node all of them have
an active reservation. -/
structure IsTraced : Prop where
  inNamespace : ∀ n ∈ s.gpuNodes, ∀ p ∈ s.holders n,
    p.podNamespace = "gpu-dev" ↔ p.isIdleWarm = false
  unique : ∀ n ∈ s.gpuNodes, ∀ p ∈ s.holders n, (s.matchingTimes p).length ≤ 1
  later : ∀ n ∈ s.gpuNodes, ∀ p ∈ s.holders n, ∀ time ∈ s.matchingTimes p, s.now < time
  together : s.nodeCounts ≠ [] → ∀ n ∈ s.gpuNodes, ∀ p ∈ s.holders n,
    s.matchingTimes p ≠ [] → ∀ p' ∈ s.holders n, p'.isIdleWarm = false → s.matchingTimes p' ≠ []

variable {s} {n : ListedNode} {p : ClusterPod} {t : ℤ}

/-! ### What the rows release -/

theorem gpus_nonneg (hp : p ∈ s.pods) : 0 ≤ s.gpus p := by
  refine List.sum_nonneg fun amount hamount => ?_
  obtain ⟨container, hcontainer, rfl⟩ := List.mem_map.mp hamount
  exact s.requests_nonneg p hp container hcontainer s.resourceName

theorem sum_gpus_nonneg {pods : List ClusterPod} (hpods : ∀ p ∈ pods, p ∈ s.pods) :
    0 ≤ (pods.map s.gpus).sum := by
  refine List.sum_nonneg fun amount hamount => ?_
  obtain ⟨p, hp, rfl⟩ := List.mem_map.mp hamount
  exact gpus_nonneg (hpods p hp)

theorem mem_infoPods : p ∈ s.infoPods ↔ p ∈ s.pods ∧ p.podNamespace = "gpu-dev" ∧
    (∃ n ∈ s.gpuNodes, p.nodeName = some n.name) ∧ (p.phase = "Running" ∨ p.phase = "Pending") ∧
      0 < s.gpus p := by
  simp only [infoPods, List.mem_filter, Bool.and_eq_true, beq_iff_eq, List.any_eq_true,
    Bool.or_eq_true, decide_eq_true_eq, and_assoc]

theorem mem_holders : p ∈ s.holders n ↔ p ∈ s.pods ∧ p.nodeName = some n.name ∧
    (p.phase = "Running" ∨ p.phase = "Pending") ∧ 0 < s.gpus p := by
  simp only [holders, List.mem_filter, Bool.and_eq_true, beq_iff_eq, Bool.or_eq_true,
    decide_eq_true_eq, and_assoc]

/-- The pods of a node that are entered. -/
def infoPodsOn (s : Situation) (n : ListedNode) : List ClusterPod :=
  s.infoPods.filter fun p => p.nodeName == some n.name

theorem nodup_infoPods (s : Situation) : (s.infoPods.map ClusterPod.name).Nodup := by
  refine s.nodup_pods.sublist (List.Sublist.map _ (List.monotone_filter_right _ fun p hp => ?_))
  simp only [Bool.and_eq_true] at hp
  exact hp.1.1.1

/-- A sum over the elements that pass a test. -/
theorem sum_filter {α : Type} (test : α → Bool) (f : α → ℤ) (l : List α) :
    ((l.filter test).map f).sum = (l.map fun x => if test x then f x else 0).sum := by
  induction l with
  | nil => rfl
  | cons x l ih =>
    rw [List.map_cons, List.sum_cons, ← ih]
    cases htest : test x with
    | true => rw [List.filter_cons_of_pos htest, List.map_cons, List.sum_cons, if_pos rfl]
    | false =>
      rw [List.filter_cons_of_neg (by simp [htest]), if_neg Bool.false_ne_true, zero_add]

/-- A sum to which only the pod of a name contributes. -/
theorem sum_of_name {pods : List ClusterPod} (hnodup : (pods.map ClusterPod.name).Nodup)
    (podName : String) (f : ClusterPod → ℤ) :
    (pods.map fun p => if p.name = podName then f p else 0).sum =
      ((pods.find? fun p => p.name = podName).map f).getD 0 := by
  induction pods with
  | nil => rfl
  | cons p pods ih =>
    rw [List.map_cons, List.nodup_cons] at hnodup
    rw [List.map_cons, List.sum_cons, List.find?_cons]
    by_cases hname : p.name = podName
    · have hrest : (pods.map fun q => if q.name = podName then f q else 0).sum = 0 := by
        refine List.sum_eq_zero fun x hx => ?_
        obtain ⟨q, hq, rfl⟩ := List.mem_map.mp hx
        refine if_neg fun hq' => hnodup.1 (List.mem_map.mpr ⟨q, hq, hq'.trans hname.symm⟩)
      rw [hrest, if_pos hname, add_zero, decide_eq_true hname]
      rfl
    · rw [if_neg hname, zero_add, ih hnodup.2, decide_eq_false hname]

/-- What is entered for a node is what the pod of the node holds. -/
theorem lookup_node {pods : List ClusterPod} (hnodup : (pods.map ClusterPod.name).Nodup)
    (r : String × ℤ) :
    (match (pods.map fun p => (p.name, p.nodeName, s.gpus p)).lookup r.1 with
      | some (nodeName, gpus) => if nodeName = some n.name then some (r.2, gpus) else none
      | none => none) =
    ((pods.filter fun p => p.nodeName == some n.name).find? fun p => p.name = r.1).map fun p =>
      (r.2, s.gpus p) := by
  induction pods with
  | nil => rfl
  | cons p pods ih =>
    rw [List.map_cons, List.nodup_cons] at hnodup
    rw [List.map_cons, List.lookup_cons]
    by_cases hname : r.1 = p.name
    · have hrest : ((pods.filter fun p => p.nodeName == some n.name).find? fun p =>
          p.name = r.1) = none := by
        refine List.find?_eq_none.mpr fun q hq hq' => hnodup.1 ?_
        exact List.mem_map.mpr
          ⟨q, (List.mem_filter.mp hq).1, (of_decide_eq_true hq').trans hname⟩
      rw [beq_iff_eq.mpr hname, List.filter_cons]
      by_cases hnode : p.nodeName = some n.name
      · rw [if_pos (beq_iff_eq.mpr hnode), List.find?_cons, decide_eq_true hname.symm]
        exact if_pos hnode
      · rw [if_neg (by simpa using hnode), hrest]
        exact if_neg hnode
    · have hskip : ((p :: pods).filter fun p => p.nodeName == some n.name).find?
          (fun p => p.name = r.1) =
          (pods.filter fun p => p.nodeName == some n.name).find? fun p => p.name = r.1 := by
        rw [List.filter_cons]
        split_ifs
        · rw [List.find?_cons, decide_eq_false fun h => hname h.symm]
        · rfl
      rw [beq_eq_false_iff_ne.mpr hname, hskip]
      exact ih hnodup.2

theorem expiration_eq (r : String × ℤ) :
    s.expiration n r = ((s.infoPodsOn n).find? fun p => p.name = r.1).map fun p =>
      (r.2, s.gpus p) :=
  lookup_node s.nodup_infoPods r

/-- What the rows release on a node by a time. -/
theorem releasedBy_expirations (releases : List (String × ℤ)) (t : ℤ) :
    Earliest.releasedBy t (releases.filterMap (s.expiration n)) =
      ((s.infoPodsOn n).map fun p =>
        s.gpus p * (((timesOf p.name releases).countP fun u => u ≤ t : ℕ) : ℤ)).sum := by
  have hnodup : ((s.infoPodsOn n).map ClusterPod.name).Nodup :=
    s.nodup_infoPods.sublist (List.filter_sublist.map _)
  induction releases with
  | nil => simp [timesOf, Earliest.releasedBy]
  | cons r releases ih =>
    obtain ⟨podName, time⟩ := r
    have hcount : ∀ p : ClusterPod,
        s.gpus p *
            (((timesOf p.name ((podName, time) :: releases)).countP fun u => u ≤ t : ℕ) : ℤ) =
          s.gpus p * (((timesOf p.name releases).countP fun u => u ≤ t : ℕ) : ℤ) +
            if p.name = podName then if time ≤ t then s.gpus p else 0 else 0 := by
      intro p
      by_cases hname : p.name = podName
      · have htimes : timesOf p.name ((podName, time) :: releases) =
            time :: timesOf p.name releases := List.filterMap_cons_some (if_pos hname.symm)
        rw [htimes, List.countP_cons, if_pos hname]
        by_cases htime : time ≤ t
        · rw [if_pos (decide_eq_true htime), if_pos htime, Nat.cast_add, mul_add, Nat.cast_one,
            mul_one]
        · rw [if_neg (by simpa using htime), if_neg htime, Nat.add_zero, add_zero]
      · have htimes : timesOf p.name ((podName, time) :: releases) = timesOf p.name releases :=
          List.filterMap_cons_none (if_neg fun h => hname h.symm)
        rw [htimes, if_neg hname, add_zero]
    simp only [hcount]
    rw [List.sum_map_add, ← ih, sum_of_name hnodup, List.filterMap_cons, expiration_eq]
    cases (s.infoPodsOn n).find? fun p => p.name = podName with
    | none => simp
    | some p =>
      simp only [Option.map_some, Option.getD_some]
      rw [Earliest.releasedBy_cons, add_comm]

theorem mem_infoPodsOn (hn : n ∈ s.gpuNodes) :
    p ∈ s.infoPodsOn n ↔ p ∈ s.holders n ∧ p.podNamespace = "gpu-dev" := by
  rw [infoPodsOn, List.mem_filter, mem_infoPods, mem_holders, beq_iff_eq]
  constructor
  · rintro ⟨⟨hp, hnamespace, -, hphase, hgpus⟩, hnode⟩
    exact ⟨⟨hp, hnode, hphase, hgpus⟩, hnamespace⟩
  · rintro ⟨⟨hp, hnode, hphase, hgpus⟩, hnamespace⟩
    exact ⟨⟨hp, hnamespace, ⟨n, hn, hnode⟩, hphase, hgpus⟩, hnode⟩

/-- By a time a traced pod has been released once or not at all. -/
theorem countP_timesOf (h : s.IsTraced) (hn : n ∈ s.gpuNodes) (hp : p ∈ s.infoPodsOn n) (t : ℤ) :
    s.gpus p * (((timesOf p.name (s.active.filterMap s.release)).countP fun u => u ≤ t : ℕ) : ℤ) =
      if s.isReleased p t then s.gpus p else 0 := by
  obtain ⟨hholder, hnamespace⟩ := (mem_infoPodsOn hn).mp hp
  have htimes : s.matchingTimes p = timesOf p.name (s.active.filterMap s.release) :=
    if_pos hnamespace
  have hunique := h.unique n hn p hholder
  rw [htimes] at hunique
  rw [isReleased, htimes]
  generalize timesOf p.name (s.active.filterMap s.release) = times at hunique
  rcases times with _ | ⟨time, _ | ⟨time', times⟩⟩
  · simp
  · by_cases hle : time ≤ t <;> simp [hle]
  · simp at hunique

/-- What a node's expirations release by a time. -/
theorem releasedBy_nodeState (h : s.IsTraced) (hn : n ∈ s.gpuNodes) (t : ℤ) :
    Earliest.releasedBy t (s.nodeState n).expirations =
      ((s.infoPodsOn n).map fun p => if s.isReleased p t then s.gpus p else 0).sum := by
  have hperm : (s.nodeState n).expirations.Perm
      ((s.active.filterMap s.release).filterMap (s.expiration n)) := Ranks.sortBy_perm _ _
  have hsame : Earliest.releasedBy t (s.nodeState n).expirations = Earliest.releasedBy t
      ((s.active.filterMap s.release).filterMap (s.expiration n)) :=
    ((hperm.filter _).map _).sum_eq
  rw [hsame, releasedBy_expirations]
  exact congrArg List.sum (List.map_congr_left fun p hp => countP_timesOf h hn hp t)

/-- The pods that use GPUs of a node are the ones that are entered for it. -/
theorem counts_iff (h : s.IsTraced) (hn : n ∈ s.gpuNodes) (hp : p ∈ s.pods)
    (hgpus : s.gpus p ≠ 0) : p ∈ s.podsOn n ↔ p ∈ s.infoPodsOn n := by
  have hpos : 0 < s.gpus p := lt_of_le_of_ne (gpus_nonneg hp) hgpus.symm
  rw [mem_infoPodsOn hn]
  simp only [podsOn, List.mem_filter, ListedPod.isCounted, Bool.and_eq_true, beq_iff_eq,
    Bool.or_eq_true, Bool.not_eq_true']
  constructor
  · rintro ⟨-, hnode, hphase, hidle⟩
    have hholder : p ∈ s.holders n := mem_holders.mpr ⟨hp, hnode, hphase, hpos⟩
    exact ⟨hholder, (h.inNamespace n hn p hholder).mpr hidle⟩
  · rintro ⟨hholder, hnamespace⟩
    obtain ⟨-, hnode, hphase, -⟩ := mem_holders.mp hholder
    exact ⟨hp, hnode, hphase, (h.inNamespace n hn p hholder).mp hnamespace⟩

/-- Two tests give the same sum if they agree where there is something to add. -/
theorem sum_filter_congr {α : Type} {test test' : α → Bool} {f : α → ℤ} {l : List α}
    (h : ∀ x ∈ l, f x ≠ 0 → (test x ↔ test' x)) :
    ((l.filter test).map f).sum = ((l.filter test').map f).sum := by
  rw [sum_filter, sum_filter]
  refine congrArg List.sum (List.map_congr_left fun x hx => ?_)
  by_cases hzero : f x = 0
  · rw [hzero, ite_self, ite_self]
  · exact if_congr (h x hx hzero) rfl rfl

/-- The pods of a node whose GPUs are counted at a time by some measure may be taken to be the ones
that are entered. -/
theorem sum_podsOn (h : s.IsTraced) (hn : n ∈ s.gpuNodes) {f : ClusterPod → ℤ}
    (hf : ∀ p, s.gpus p = 0 → f p = 0) :
    ((s.podsOn n).map f).sum = ((s.infoPodsOn n).map f).sum := by
  rw [infoPodsOn, infoPods, List.filter_filter, podsOn]
  refine sum_filter_congr fun p hp hne => ?_
  have hiff := counts_iff h hn hp fun hzero => hne (hf p hzero)
  rw [infoPodsOn, infoPods, List.filter_filter, podsOn, List.mem_filter, List.mem_filter] at hiff
  simpa only [hp, true_and] using hiff

/-- The free GPUs of the simulation are those that the computation has for the node. -/
theorem freeGpus_eq (h : s.IsTraced) (hn : n ∈ s.gpuNodes) (t : ℤ) :
    s.freeGpus n t = (s.nodeState n).capacity - (s.nodeState n).usedNow +
      Earliest.releasedBy t (s.nodeState n).expirations := by
  have hheld : (((s.podsOn n).filter fun p => !s.isReleased p t).map s.gpus).sum =
      ((s.infoPodsOn n).map fun p => if !s.isReleased p t then s.gpus p else 0).sum := by
    rw [sum_filter]
    exact sum_podsOn h hn fun p hzero => by rw [hzero, ite_self]
  have hsplit : ((s.infoPodsOn n).map s.gpus).sum =
      ((s.infoPodsOn n).map fun p => if !s.isReleased p t then s.gpus p else 0).sum +
        ((s.infoPodsOn n).map fun p => if s.isReleased p t then s.gpus p else 0).sum := by
    rw [← List.sum_map_add]
    refine congrArg List.sum (List.map_congr_left fun p _ => ?_)
    cases s.isReleased p t <;> simp
  have hused : (s.nodeState n).usedNow = ((s.infoPodsOn n).map s.gpus).sum := rfl
  have hcapacity : (s.nodeState n).capacity = s.capacity n := by rw [nodeState]
  rw [releasedBy_nodeState h hn, freeGpus, hheld, hcapacity, hused, hsplit]
  ring

/-! ### One size on one node -/

theorem mem_timesOf {podName : String} {releases : List (String × ℤ)} {time : ℤ} :
    time ∈ timesOf podName releases ↔ (podName, time) ∈ releases := by
  simp only [timesOf, List.mem_filterMap]
  constructor
  · rintro ⟨⟨name, u⟩, hr, htime⟩
    obtain ⟨hname, hu⟩ := Option.ite_none_right_eq_some.mp htime
    rwa [← hname, ← Option.some_inj.mp hu]
  · exact fun hr => ⟨_, hr, if_pos rfl⟩

/-- The expirations of a node are those of its pods. -/
theorem mem_expirations (hn : n ∈ s.gpuNodes) {r : ℤ × ℤ} :
    r ∈ (s.nodeState n).expirations ↔
      ∃ p ∈ s.infoPodsOn n, r.1 ∈ s.matchingTimes p ∧ r.2 = s.gpus p := by
  have hnodup : ((s.infoPodsOn n).map ClusterPod.name).Nodup :=
    s.nodup_infoPods.sublist (List.filter_sublist.map _)
  have hperm : (s.nodeState n).expirations.Perm
      ((s.active.filterMap s.release).filterMap (s.expiration n)) := Ranks.sortBy_perm _ _
  have htimes : ∀ p ∈ s.infoPodsOn n,
      s.matchingTimes p = timesOf p.name (s.active.filterMap s.release) :=
    fun p hp => if_pos ((mem_infoPodsOn hn).mp hp).2
  rw [hperm.mem_iff, List.mem_filterMap]
  constructor
  · rintro ⟨⟨podName, time⟩, hr, hexpiration⟩
    rw [expiration_eq, Option.map_eq_some_iff] at hexpiration
    obtain ⟨p, hfind, rfl⟩ := hexpiration
    have hp := List.mem_of_find?_eq_some hfind
    have hname : p.name = podName := by simpa using List.find?_some hfind
    refine ⟨p, hp, ?_, rfl⟩
    rw [htimes p hp, mem_timesOf, hname]
    exact hr
  · rintro ⟨p, hp, htime, hgpus⟩
    rw [htimes p hp, mem_timesOf] at htime
    refine ⟨_, htime, ?_⟩
    have hfind : (s.infoPodsOn n).find? (fun q => q.name = p.name) = some p := by
      rw [List.find?_eq_some_iff_append]
      obtain ⟨before, after, hsplit⟩ := List.append_of_mem hp
      refine ⟨by simp, before, after, hsplit, fun q hq => ?_⟩
      rw [hsplit, List.map_append, List.map_cons, List.nodup_append] at hnodup
      have hne := hnodup.2.2 q.name (List.mem_map_of_mem hq) p.name List.mem_cons_self
      simpa using hne
    rw [expiration_eq, hfind, Option.map_some, ← hgpus]

/-- All expirations of a node are still to come. -/
theorem lt_expirations (h : s.IsTraced) (hn : n ∈ s.gpuNodes) {r : ℤ × ℤ}
    (hr : r ∈ (s.nodeState n).expirations) : s.now < r.1 := by
  obtain ⟨p, hp, htime, -⟩ := (mem_expirations hn).mp hr
  exact h.later n hn p ((mem_infoPodsOn hn).mp hp).1 _ htime

theorem expirations_nonneg (hn : n ∈ s.gpuNodes) {r : ℤ × ℤ}
    (hr : r ∈ (s.nodeState n).expirations) : 0 ≤ r.2 := by
  obtain ⟨p, hp, -, hgpus⟩ := (mem_expirations hn).mp hr
  obtain ⟨hp, -⟩ := mem_holders.mp ((mem_infoPodsOn hn).mp hp).1
  exact hgpus ▸ gpus_nonneg hp

theorem expirations_sorted (s : Situation) (n : ListedNode) :
    (s.nodeState n).expirations.Pairwise fun r r' => r.1 ≤ r'.1 := by
  refine (Ranks.sortBy_pairwise toLex _).imp fun {r r'} hle => ?_
  rcases Prod.Lex.toLex_le_toLex.mp hle with hlt | ⟨heq, -⟩
  · exact hlt.le
  · exact heq.le

/-- If a size does not fit on a node now, then it fits with the first expiration that releases
enough. -/
theorem isEarliest_node (h : s.IsTraced) (hn : n ∈ s.gpuNodes) {size : ℤ}
    (hfree : (s.nodeState n).capacity - (s.nodeState n).usedNow < size) :
    Earliest.IsEarliest { t | s.now ≤ t ∧ size ≤ s.freeGpus n t }
      (Earliest.firstEnough size ((s.nodeState n).capacity - (s.nodeState n).usedNow)
        (s.nodeState n).expirations) := by
  have hset : { t | s.now ≤ t ∧ size ≤ s.freeGpus n t } =
      { t | size ≤ (s.nodeState n).capacity - (s.nodeState n).usedNow +
        Earliest.releasedBy t (s.nodeState n).expirations } := by
    ext t
    simp only [Set.mem_ofPred_eq]
    rw [freeGpus_eq h hn]
    refine and_iff_right_of_imp fun hle => ?_
    -- Before now nothing is released.
    by_contra hlt
    rw [Earliest.releasedBy_of_lt fun r hr =>
      (not_le.mp hlt).trans (lt_expirations h hn hr)] at hle
    omega
  rw [hset]
  exact Earliest.isEarliest_firstEnough (s.expirations_sorted n)
    (fun r hr => expirations_nonneg hn hr) hfree

/-! ### One size on all nodes -/

/-- The loop over the nodes takes the earliest time of all of them. -/
theorem isEarliest_firstTimeSizeFits (h : s.IsTraced) {size : ℤ} {nodes : List ListedNode}
    (hnodes : ∀ n ∈ nodes, n ∈ s.gpuNodes) {times : Set ℤ} {earliest : Option ℤ}
    (hearliest : Earliest.IsEarliest times earliest) (htimes : ∀ t ∈ times, s.now ≤ t) :
    Earliest.IsEarliest (times ∪ { t | s.now ≤ t ∧ ∃ n ∈ nodes, size ≤ s.freeGpus n t })
      (firstTimeSizeFits s.now size earliest (nodes.map s.nodeState)) := by
  induction nodes generalizing times earliest with
  | nil =>
    have hnone : { t | s.now ≤ t ∧ ∃ n ∈ ([] : List ListedNode), size ≤ s.freeGpus n t } = ∅ := by
      simp
    rwa [hnone, Set.union_empty]
  | cons n nodes ih =>
    rw [List.forall_mem_cons] at hnodes
    rw [List.map_cons, firstTimeSizeFits]
    rcases le_or_gt size ((s.nodeState n).capacity - (s.nodeState n).usedNow) with hfits | hfits
    · rw [if_pos hfits]
      constructor
      · refine .inr ⟨le_rfl, n, List.mem_cons_self, ?_⟩
        have hreleased := Earliest.releasedBy_nonneg
          (fun r hr => expirations_nonneg hnodes.1 hr) s.now
        rw [freeGpus_eq h hnodes.1]
        omega
      · rintro t (ht | ht)
        · exact htimes t ht
        · exact ht.1
    · have hsplit : times ∪ { t | s.now ≤ t ∧ ∃ n' ∈ n :: nodes, size ≤ s.freeGpus n' t } =
          times ∪ { t | s.now ≤ t ∧ size ≤ s.freeGpus n t } ∪
            { t | s.now ≤ t ∧ ∃ n' ∈ nodes, size ≤ s.freeGpus n' t } := by
        rw [Set.union_assoc]
        refine congrArg (times ∪ ·) (Set.ext fun t => ?_)
        simp only [Set.mem_union, Set.mem_ofPred_eq, List.exists_mem_cons_iff, and_or_left]
      have hnode := Earliest.isEarliest_union hearliest (isEarliest_node h hnodes.1 hfits)
      have hlater : ∀ t ∈ times ∪ { t | s.now ≤ t ∧ size ≤ s.freeGpus n t }, s.now ≤ t := by
        rintro t (ht | ht)
        · exact htimes t ht
        · exact ht.1
      rw [if_neg (not_le.mpr hfits), hsplit]
      exact ih hnodes.2 hnode hlater

theorem one_le_of_mem_singleSizes {size : ℕ} (hsize : size ∈ s.singleSizes) :
    1 ≤ size ∧ size ≤ 8 := by
  have hmem := (List.takeWhile_sublist _).subset hsize
  simp only [List.mem_cons, List.not_mem_nil, or_false] at hmem
  omega

/-- A size only ever fits on a node that has GPUs. -/
theorem mem_gpuNodes_of_freeGpus {size : ℕ} (hsize : 1 ≤ size) (hn : n ∈ s.schedulableNodes)
    (hfree : (size : ℤ) ≤ s.freeGpus n t) : n ∈ s.gpuNodes := by
  refine List.mem_filter.mpr ⟨hn, decide_eq_true fun hzero => ?_⟩
  have hheld : 0 ≤ (((s.podsOn n).filter fun p => !s.isReleased p t).map s.gpus).sum :=
    sum_gpus_nonneg fun p hp => (List.mem_filter.mp (List.mem_filter.mp hp).1).1
  rw [freeGpus, hzero] at hfree
  omega

theorem isEarliest_timesOfSize (h : s.IsTraced) {size : ℕ} (hsize : 1 ≤ size) :
    Earliest.IsEarliest (s.timesOfSize size)
      (firstTimeSizeFits s.now size none (s.gpuNodes.map s.nodeState)) := by
  have hset : s.timesOfSize size =
      ∅ ∪ { t | s.now ≤ t ∧ ∃ n ∈ s.gpuNodes, (size : ℤ) ≤ s.freeGpus n t } := by
    rw [Set.empty_union]
    ext t
    refine and_congr_right fun _ => ⟨?_, ?_⟩
    · rintro ⟨n, hn, hfree⟩
      exact ⟨n, mem_gpuNodes_of_freeGpus hsize hn hfree, hfree⟩
    · rintro ⟨n, hn, hfree⟩
      exact ⟨n, (List.mem_filter.mp hn).1, hfree⟩
  have hnone : Earliest.IsEarliest (∅ : Set ℤ) none := rfl
  rw [hset]
  exact isEarliest_firstTimeSizeFits h (fun n hn => hn) hnone fun t ht => ht.elim

/-! ### Nodes that are entirely free -/

theorem isEntirelyFree_iff (h : s.IsTraced) (hn : n ∈ s.gpuNodes) :
    s.isEntirelyFree n t ↔ ∀ p ∈ s.infoPodsOn n, s.isReleased p t := by
  simp only [isEntirelyFree, List.all_eq_true, Bool.or_eq_true, decide_eq_true_eq]
  constructor
  · intro hall p hp
    have hholder := mem_holders.mp ((mem_infoPodsOn hn).mp hp).1
    have hne : s.gpus p ≠ 0 := hholder.2.2.2.ne'
    exact (hall p ((counts_iff h hn hholder.1 hne).mpr hp)).resolve_left hne
  · intro hall p hp
    refine or_iff_not_imp_left.mpr fun hne => hall p ?_
    exact (counts_iff h hn (List.mem_filter.mp hp).1 hne).mp hp

theorem isReleased_iff : s.isReleased p t ↔ ∃ time ∈ s.matchingTimes p, time ≤ t := by
  simp [isReleased]

/-- No GPU of a node is in use exactly if no pod is entered for it. -/
theorem usedNow_eq_zero_iff (hn : n ∈ s.gpuNodes) :
    (s.nodeState n).usedNow = 0 ↔ s.infoPodsOn n = [] := by
  have hused : (s.nodeState n).usedNow = ((s.infoPodsOn n).map s.gpus).sum := rfl
  have hholder : ∀ p ∈ s.infoPodsOn n, p ∈ s.pods ∧ 0 < s.gpus p := by
    intro p hp
    obtain ⟨hmem, -, -, hpos⟩ := mem_holders.mp ((mem_infoPodsOn hn).mp hp).1
    exact ⟨hmem, hpos⟩
  rw [hused]
  generalize s.infoPodsOn n = pods at hholder
  cases pods with
  | nil => exact iff_of_true rfl rfl
  | cons p pods =>
    rw [List.forall_mem_cons] at hholder
    have hfirst := hholder.1.2
    have hrest : 0 ≤ (pods.map s.gpus).sum := sum_gpus_nonneg fun q hq => (hholder.2 q hq).1
    rw [List.map_cons, List.sum_cons]
    exact iff_of_false (by omega) (List.cons_ne_nil _ _)

/-- A node is entirely free with its last expiration. -/
theorem isEarliest_freeAt (h : s.IsTraced) (hcounts : s.nodeCounts ≠ []) (hn : n ∈ s.gpuNodes) :
    Earliest.IsEarliest { t | s.now ≤ t ∧ s.isEntirelyFree n t }
      (freeAt s.now (s.nodeState n)) := by
  have hfree : ∀ t, s.isEntirelyFree n t ↔ ∀ p ∈ s.infoPodsOn n, ∃ time ∈ s.matchingTimes p,
      time ≤ t := by
    intro t
    simp only [isEntirelyFree_iff h hn, isReleased_iff]
  rw [freeAt]
  split_ifs with hused
  · refine ⟨⟨le_rfl, (hfree _).mpr ?_⟩, fun t ht => ht.1⟩
    rw [(usedNow_eq_zero_iff hn).mp hused]
    exact fun p hp => absurd hp List.not_mem_nil
  · obtain ⟨p, hp⟩ := List.exists_mem_of_ne_nil _ (mt (usedNow_eq_zero_iff hn).mpr hused)
    cases hmax : ((s.nodeState n).expirations.map Prod.fst).max? with
    | none =>
      -- No pod of the node has an active reservation, and one is there.
      refine Set.eq_empty_of_forall_notMem fun t ht => ?_
      obtain ⟨time, htime, -⟩ := (hfree t).mp ht.2 p hp
      have hexpiration : (time, s.gpus p) ∈ (s.nodeState n).expirations :=
        (mem_expirations hn).mpr ⟨p, hp, htime, rfl⟩
      rw [List.max?_eq_none_iff, List.map_eq_nil_iff] at hmax
      rw [hmax] at hexpiration
      exact absurd hexpiration List.not_mem_nil
    | some last =>
      obtain ⟨hmem, hlast⟩ := List.max?_eq_some_iff.mp hmax
      obtain ⟨r, hr, rfl⟩ := List.mem_map.mp hmem
      obtain ⟨q, hq, htime, -⟩ := (mem_expirations hn).mp hr
      have hholder : ∀ p' ∈ s.infoPodsOn n, p' ∈ s.holders n ∧ p'.isIdleWarm = false := by
        intro p' hp'
        obtain ⟨hholder, hnamespace⟩ := (mem_infoPodsOn hn).mp hp'
        exact ⟨hholder, (h.inNamespace n hn p' hholder).mp hnamespace⟩
      refine ⟨⟨(lt_expirations h hn hr).le, (hfree _).mpr fun p' hp' => ?_⟩, fun t ht => ?_⟩
      · have htogether := h.together hcounts n hn q (hholder q hq).1 (List.ne_nil_of_mem htime)
        obtain ⟨time, htime'⟩ := List.exists_mem_of_ne_nil _
          (htogether p' (hholder p' hp').1 (hholder p' hp').2)
        have hexpiration : (time, s.gpus p') ∈ (s.nodeState n).expirations :=
          (mem_expirations hn).mpr ⟨p', hp', htime', rfl⟩
        exact ⟨time, htime', hlast time (List.mem_map_of_mem hexpiration)⟩
      · -- The pod of the last expiration has no other time.
        obtain ⟨time, htime', hle⟩ := (hfree t).mp ht.2 q hq
        rwa [Ranks.eq_of_length_le_one (h.unique n hn q (hholder q hq).1) htime htime']

/-- From now on the nodes that are entirely free are those whose time has come. -/
theorem length_freeAt (h : s.IsTraced) (hcounts : s.nodeCounts ≠ []) {nodes : List ListedNode}
    (hnodes : ∀ n ∈ nodes, n ∈ s.gpuNodes) (ht : s.now ≤ t) :
    (((nodes.map s.nodeState).filterMap (freeAt s.now)).filter fun u => u ≤ t).length =
      (nodes.filter fun n => s.isEntirelyFree n t).length := by
  induction nodes with
  | nil => rfl
  | cons n nodes ih =>
    rw [List.forall_mem_cons] at hnodes
    have hn := isEarliest_freeAt h hcounts hnodes.1
    rw [List.map_cons, List.filterMap_cons, List.filter_cons]
    cases hfreeAt : freeAt s.now (s.nodeState n) with
    | none =>
      rw [hfreeAt] at hn
      have hempty : { t | s.now ≤ t ∧ s.isEntirelyFree n t } = ∅ := hn
      have hnot : ¬ s.isEntirelyFree n t :=
        fun hfree => Set.eq_empty_iff_forall_notMem.mp hempty t ⟨ht, hfree⟩
      rw [if_neg hnot]
      exact ih hnodes.2
    | some u =>
      rw [hfreeAt] at hn
      have hiff : s.isEntirelyFree n t ↔ u ≤ t := by
        refine ⟨fun hfree => hn.2 ⟨ht, hfree⟩, fun hle => ?_⟩
        have hfree := (isEntirelyFree_iff h hnodes.1).mp hn.1.2
        refine (isEntirelyFree_iff h hnodes.1).mpr fun p hp => ?_
        obtain ⟨time, htime, htime'⟩ := isReleased_iff.mp (hfree p hp)
        exact isReleased_iff.mpr ⟨time, htime, htime'.trans hle⟩
      simp only
      rw [List.filter_cons]
      by_cases hle : u ≤ t
      · rw [if_pos (decide_eq_true hle), if_pos (hiff.mpr hle), List.length_cons, List.length_cons,
          ih hnodes.2]
      · rw [if_neg (by simpa using hle), if_neg (mt hiff.mp hle)]
        exact ih hnodes.2

theorem le_freeAt (h : s.IsTraced) (hcounts : s.nodeCounts ≠ []) {u : ℤ}
    (hu : u ∈ (s.gpuNodes.map s.nodeState).filterMap (freeAt s.now)) : s.now ≤ u := by
  obtain ⟨ns, hns, hfreeAt⟩ := List.mem_filterMap.mp hu
  obtain ⟨n, hn, rfl⟩ := List.mem_map.mp hns
  have hearliest := isEarliest_freeAt h hcounts hn
  rw [hfreeAt] at hearliest
  exact hearliest.1.1

theorem isEarliest_timesOfNodes (h : s.IsTraced) (hcounts : s.nodeCounts ≠ []) {k : ℕ}
    (hk : 1 ≤ k) :
    Earliest.IsEarliest (s.timesOfNodes k)
      (firstTimeFullNodes s.now (s.gpuNodes.map s.nodeState) k) := by
  have hperm := Ranks.sortBy_perm id ((s.gpuNodes.map s.nodeState).filterMap (freeAt s.now))
  have hset : s.timesOfNodes k = { t | k - 1 <
      ((Ranks.sortBy id ((s.gpuNodes.map s.nodeState).filterMap (freeAt s.now))).filter fun u =>
        u ≤ t).length } := by
    ext t
    simp only [timesOfNodes, Set.mem_ofPred_eq]
    rw [(hperm.filter _).length_eq]
    by_cases ht : s.now ≤ t
    · rw [length_freeAt h hcounts (fun n hn => hn) ht, and_iff_right ht]
      omega
    · have hnone : ((s.gpuNodes.map s.nodeState).filterMap (freeAt s.now)).filter
          (fun u => u ≤ t) = [] := by
        refine List.filter_eq_nil_iff.mpr fun u hu hle => ht ?_
        exact (le_freeAt h hcounts hu).trans (of_decide_eq_true hle)
      rw [hnone]
      exact iff_of_false (fun hmem => ht hmem.1) (Nat.not_lt_zero _)
  rw [hset]
  exact Earliest.isEarliest_getElem? (Ranks.sortBy_pairwise id _) (k - 1)

/-! ### What is published -/

/-- What is published for a size that has been asked for is its own time. -/
theorem lookup_filterMap (key : ℕ → ℕ) (hkey : ∀ a b, key a = key b → a = b)
    (f : ℕ → Option ℤ) {sizes : List ℕ} {size : ℕ} (hsize : size ∈ sizes) :
    (sizes.filterMap fun a => (f a).map fun eta => (key a, eta)).lookup (key size) = f size := by
  induction sizes with
  | nil => exact absurd hsize List.not_mem_nil
  | cons a sizes ih =>
    rw [List.filterMap_cons]
    by_cases ha : a = size
    · subst ha
      cases hf : f a with
      | none =>
        refine List.lookup_eq_none_iff.mpr fun entry hentry => ?_
        obtain ⟨b, -, hb⟩ := List.mem_filterMap.mp hentry
        obtain ⟨eta, hfb, rfl⟩ := Option.map_eq_some_iff.mp hb
        refine bne_iff_ne.mpr fun h => ?_
        rw [hkey a b h, hfb] at hf
        cases hf
      | some eta => simp
    · have hrest := ih ((List.mem_cons.mp hsize).resolve_left fun h => ha h.symm)
      cases hf : f a with
      | none => exact hrest
      | some eta =>
        have hne : key size ≠ key a := fun h => ha (hkey _ _ h).symm
        rw [Option.map_some, List.lookup_cons, beq_eq_false_iff_ne.mpr hne]
        exact hrest

theorem nodeCounts_eq_nil (h : s.gpusPerInstance ≠ 8) : s.nodeCounts = [] :=
  if_neg fun hcounts => h hcounts.1

theorem mem_nodeCounts {k : ℕ} (hk : k ∈ s.nodeCounts) : 2 ≤ k ∧ s.gpusPerInstance = 8 := by
  by_cases h : s.gpusPerInstance = 8
  · refine ⟨?_, h⟩
    unfold nodeCounts at hk
    split_ifs at hk
    · simp only [List.mem_cons, List.not_mem_nil, or_false] at hk
      omega
    · exact absurd hk List.not_mem_nil
  · rw [nodeCounts_eq_nil h] at hk
    exact absurd hk List.not_mem_nil

/-- No number of nodes has a size that fits on one. -/
theorem ne_of_mem_nodeCounts {size k : ℕ} (hsize : size ∈ s.singleSizes) (hk : k ∈ s.nodeCounts) :
    k * s.gpusPerInstance ≠ size := by
  obtain ⟨-, hle⟩ := one_le_of_mem_singleSizes hsize
  obtain ⟨hk, height⟩ := mem_nodeCounts hk
  rw [height]
  omega

theorem lookup_single {size : ℕ} (hsize : size ∈ s.singleSizes) :
    s.computeSizeEtas.lookup size =
      firstTimeSizeFits s.now size none (s.gpuNodes.map s.nodeState) := by
  have hsingle := lookup_filterMap id (fun a b h => h)
    (fun size : ℕ => firstTimeSizeFits s.now (size : ℤ) none (s.gpuNodes.map s.nodeState)) hsize
  have hmulti : (s.nodeCounts.filterMap fun k =>
      (firstTimeFullNodes s.now (s.gpuNodes.map s.nodeState) k).map fun eta =>
        (k * s.gpusPerInstance, eta)).lookup size = none := by
    refine List.lookup_eq_none_iff.mpr fun entry hentry => ?_
    obtain ⟨k, hk, heta⟩ := List.mem_filterMap.mp hentry
    obtain ⟨eta, -, rfl⟩ := Option.map_eq_some_iff.mp heta
    exact bne_iff_ne.mpr (ne_of_mem_nodeCounts hsize hk).symm
  rw [computeSizeEtas, List.lookup_append, hmulti, Option.or_none]
  exact hsingle

theorem lookup_multinode {k : ℕ} (hk : k ∈ s.nodeCounts) :
    s.computeSizeEtas.lookup (k * s.gpusPerInstance) =
      firstTimeFullNodes s.now (s.gpuNodes.map s.nodeState) k := by
  have hpos : 0 < s.gpusPerInstance := by
    rw [(mem_nodeCounts hk).2]
    omega
  have hmulti := lookup_filterMap (· * s.gpusPerInstance)
    (fun a b h => Nat.eq_of_mul_eq_mul_right hpos h)
    (firstTimeFullNodes s.now (s.gpuNodes.map s.nodeState)) hk
  have hsingle : (s.singleSizes.filterMap fun size : ℕ =>
      (firstTimeSizeFits s.now (size : ℤ) none (s.gpuNodes.map s.nodeState)).map fun eta =>
        (size, eta)).lookup (k * s.gpusPerInstance) = none := by
    refine List.lookup_eq_none_iff.mpr fun entry hentry => ?_
    obtain ⟨size, hsize, heta⟩ := List.mem_filterMap.mp hentry
    obtain ⟨eta, -, rfl⟩ := Option.map_eq_some_iff.mp heta
    exact bne_iff_ne.mpr (ne_of_mem_nodeCounts hsize hk)
  rw [computeSizeEtas, List.lookup_append, hsingle, Option.none_or]
  exact hmulti

/-- What the updater counts as used on a node is what its pods request. -/
theorem parsedUsed_cluster (s : Situation) (n : ListedNode) :
    s.cluster.parsedUsed s.resourceName n.name = ((s.podsOn n).map s.gpus).sum := by
  rw [Cluster.parsedUsed, Cluster.countedRequests, cluster, podsOn, List.filter_filter]
  induction s.pods with
  | nil => rfl
  | cons p pods ih =>
    rw [List.map_cons, List.filter_cons, List.filter_cons]
    rw [Bool.and_comm]
    split_ifs with hcounts
    · rw [List.flatMap_cons, List.map_append, List.sum_append, List.map_cons, List.sum_cons, ih]
      rfl
    · exact ih

/-- So far no pod of a node has released its GPUs. -/
theorem freeGpus_now (h : s.IsTraced) (hn : n ∈ s.gpuNodes) :
    s.freeGpus n s.now = s.capacity n - ((s.podsOn n).map s.gpus).sum := by
  rw [freeGpus, sum_filter]
  refine congrArg (s.capacity n - List.sum ·) (List.map_congr_left fun p hp => ?_)
  obtain ⟨hmem, hcounted⟩ := List.mem_filter.mp hp
  by_cases hzero : s.gpus p = 0
  · rw [hzero, ite_self]
  · have hholder := ((mem_infoPodsOn hn).mp ((counts_iff h hn hmem hzero).mp hp)).1
    refine if_pos ((Bool.not_eq_true' _).mpr (Bool.eq_false_iff.mpr fun hreleased => ?_))
    obtain ⟨time, htime, hle⟩ := isReleased_iff.mp hreleased
    exact absurd hle (not_le.mpr (h.later n hn p hholder time htime))

/-- A size fits on a node now exactly if it is published as available there. -/
theorem now_mem_timesOfSize (h : s.IsTraced) {size : ℕ} (hsize : 1 ≤ size) :
    s.now ∈ s.timesOfSize size ↔ ∃ n ∈ eligibleNodes s.workspace s.cluster s.gpuType,
      size ≤ AvailabilityUpdater.getAvailableGpusOnNode s.workspace s.cluster s.gpuType n := by
  have havailable : ∀ n,
      AvailabilityUpdater.getAvailableGpusOnNode s.workspace s.cluster s.gpuType n =
        (s.capacity n - ((s.podsOn n).map s.gpus).sum).toNat := by
    intro n
    rw [← parsedUsed_cluster]
    rfl
  simp only [havailable]
  constructor
  · rintro ⟨-, n, hn, hfree⟩
    rw [freeGpus_now h (mem_gpuNodes_of_freeGpus hsize hn hfree)] at hfree
    exact ⟨n, hn, by omega⟩
  · rintro ⟨n, hn, hfree⟩
    have hused : 0 ≤ ((s.podsOn n).map s.gpus).sum :=
      sum_gpus_nonneg fun p hp => (List.mem_filter.mp hp).1
    have hgpu : n ∈ s.gpuNodes := by
      refine List.mem_filter.mpr ⟨hn, decide_eq_true fun hzero => ?_⟩
      rw [hzero] at hfree
      omega
    refine ⟨le_rfl, n, hn, ?_⟩
    rw [freeGpus_now h hgpu]
    omega

end Situation

/-! ### Two situations -/

theorem quantity_nonneg {amount : String} (h : 0 ≤ (PythonNumber.int? amount.toList).getD 0)
    (resource : String) : 0 ≤ (quantity resource [("nvidia.com/gpu", amount)]).getD 0 := by
  have hzero : 0 ≤ (PythonNumber.int? "0".toList).getD 0 := by decide +kernel
  unfold quantity
  rw [List.lookup_cons]
  cases resource == "nvidia.com/gpu"
  · exact hzero
  · exact h

/-- A schedulable node of a type. -/
def typedNode (gpuType gpus : String) : ListedNode where
  name := "node-1"
  labels := dictOf [("GpuType", gpuType)]
  conditions := [("Ready", "True")]
  unschedulable := false
  taints := []
  allocatable := [("nvidia.com/gpu", gpus)]

/-- A pod that runs on that node. -/
def runningPod (name gpus : String) (labels : Kube.Dict) : ClusterPod where
  podNamespace := "gpu-dev"
  labels := labels
  phase := "Running"
  nodeName := some "node-1"
  containers := [[("nvidia.com/gpu", gpus)]]
  name := name

theorem runningPod_nonneg {name gpus : String} {labels : Kube.Dict}
    (h : 0 ≤ (PythonNumber.int? gpus.toList).getD 0) :
    ∀ container ∈ (runningPod name gpus labels).containers, ∀ resource,
      0 ≤ (quantity resource container).getD 0 := by
  intro container hcontainer resource
  obtain rfl := List.mem_singleton.mp hcontainer
  exact quantity_nonneg h resource

/-- A pod of a reservation and a pod that stays, on one node. -/
def reserved : Situation where
  workspace := .default
  gpuType := "t4"
  nodes := [typedNode "t4" "4"]
  pods := [runningPod "gpu-dev-1" "3" fun _ => none, runningPod "gpu-dev-2" "1" fun _ => none]
  active := [⟨some "t4", some "gpu-dev-1", some (.unix 2000)⟩]
  now := 1000
  nodup_nodes := by decide
  nodup_pods := by decide +kernel
  requests_nonneg := by
    rw [List.forall_mem_cons, List.forall_mem_singleton]
    exact ⟨runningPod_nonneg (by decide +kernel), runningPod_nonneg (by decide +kernel)⟩

theorem reserved_releases : reserved.active.filterMap reserved.release = [("gpu-dev-1", 2000)] := by
  have htype : ((some "t4" : Option String).all fun t => t.toLower == reserved.gpuType.toLower) :=
    beq_self_eq_true _
  have hrelease : reserved.release ⟨some "t4", some "gpu-dev-1", some (.unix 2000)⟩ =
      some ("gpu-dev-1", 2000) := if_pos htype
  exact List.filterMap_cons_some hrelease

/-- All GPUs are held by an idle pod of the warm pool. -/
def warm : Situation where
  workspace := .default
  gpuType := "h100"
  nodes := [typedNode "h100" "8"]
  pods := [runningPod "gpu-dev-h100-1" "8"
    (dictOf [("app", "gpu-dev-warm"), ("warm-state", "ready")])]
  active := []
  now := 1000
  nodup_nodes := by decide
  nodup_pods := by decide +kernel
  requests_nonneg := by
    rw [List.forall_mem_singleton]
    exact runningPod_nonneg (by decide +kernel)

end CiInfra.GpuDev.SizeEtas

import CiInfra.Compactor.Models

/-!
# Node discovery and state building

A cycle first lists the managed nodes and then builds the state of each with the pods
that run on it. Pods that wait for a node are returned beside the states.
-/

namespace CiInfra.Compactor

open Kube Interaction Interaction.Program

/-- The pool that Karpenter's label names; empty without the label. -/
def karpenterPool (n : Node) : String := (n.labels "karpenter.sh/nodepool").getD ""

/-- The nodes of the pools labeled for compaction, with their pools. No node is managed
where the NodePool resource does not exist. -/
def discoverManagedNodes (cfg : Config) : Api (Except Failure (List (String × String))) :=
  Program.call .listNodePools fun
    | .error (.api 404) => .done (.ok [])
    | .error e => .done (.error e)
    | .ok nodePools =>
      let managedPools :=
        (nodePools.filter fun np => np.labels cfg.nodepoolLabel = some "true").map NodePool.name
      if managedPools = [] then .done (.ok [])
      else
        Program.call .listNodes fun
          | .error e => .done (.error e)
          | .ok nodes =>
            .done (.ok ((nodes.filter fun n => karpenterPool n ∈ managedPools).map fun n =>
              (n.name, karpenterPool n)))

/-- The state of a node before any pod is added. -/
def nodeStateOf (cfg : Config) (n : Node) (creationTime : ℚ) : NodeState where
  name := n.name
  nodepool := (n.labels "karpenter.sh/nodepool").getD "unknown"
  allocatableCpu := parseCpu (n.allocatable.cpu.getD "0")
  allocatableMemory := parseMemory (n.allocatable.memory.getD "0")
  allocatableGpu := n.allocatable.gpu.getD 0
  creationTime := creationTime
  isTainted := n.taints.any (·.key = cfg.taintKey)
  isReserved := n.annotations annotationCapacityReserved = some "true"
  nodeTaints := n.taints
  labels := n.labels
  annotations := n.annotations

/-- The states of the managed nodes of a listing. A node without a creation time is taken
to be created now. -/
def readNodes (cfg : Config) (managed : List String) (m : NodeMap) : List Node → Api NodeMap
  | [] => .done m
  | n :: rest =>
    if n.name ∉ managed then readNodes cfg managed m rest
    else
      match n.creationTimestamp with
      | some created => readNodes cfg managed (m.set (nodeStateOf cfg n created)) rest
      | none =>
        Program.call .wallClock fun now =>
          readNodes cfg managed (m.set (nodeStateOf cfg n now)) rest

def terminatingNamespaces (namespaces : List Namespace) : List String :=
  (namespaces.filter fun ns => ns.deletionTimestamp.isSome).map Namespace.name

/-- Whether `word` occurs in the lower-cased text. -/
def mentions (text word : String) : Bool :=
  text.toLower.toList.tails.any fun tail => word.toList.isPrefixOf tail

/-- The scheduler's message says that the pod waits for a volume. -/
def isVolumeWait (pod : Pod) : Bool :=
  pod.conditions.any fun c =>
    c.type = "PodScheduled" && c.status = "False" &&
      c.message.any fun text => mentions text "persistentvolumeclaim" || mentions text "bound"

/-- Whether a pod of phase Pending counts as genuinely waiting for capacity: it has no
node, is not terminating, and none of the exclusion filters applies. -/
def awaitsCapacity (cfg : Config) (now : ℚ) (terminating : List String) (pod : Pod) : Bool :=
  if pod.nodeName.isSome then false
  else if pod.metadata.deletionTimestamp.isSome then false
  else if pod.spec.any fun spec => spec.schedulingGates ≠ [] then false
  else if isDaemonsetPod pod then false
  else if pod.metadata.creationTimestamp.any fun created =>
      now - created < (cfg.pendingPodMinAgeSeconds : ℚ) then false
  else if pod.metadata.namespace ≠ "" ∧ pod.metadata.namespace ∈ terminating then false
  else !isVolumeWait pod

/-- A pod as load of a node. -/
def podInfoOn (name : String) (pod : Pod) : PodInfo where
  name := pod.metadata.name
  «namespace» := pod.metadata.namespace
  cpuRequest := podCpuRequest pod
  memoryRequest := podMemoryRequest pod
  gpuRequest := podGpuRequest pod
  nodeName := name
  isDaemonset := isDaemonsetPod pod
  startTime := pod.status.bind PodStatus.startTime

/-- One pod of the listing: pending demand, load of a node, or neither. -/
def sortPod (cfg : Config) (now : ℚ) (terminating : List String) (acc : NodeMap × List Pod)
    (pod : Pod) : NodeMap × List Pod :=
  if pod.phase = some .pending then
    if awaitsCapacity cfg now terminating pod then (acc.1, acc.2 ++ [pod]) else acc
  else
    match pod.nodeName with
    | none => acc
    | some name =>
      if (acc.1.get? name).isNone then acc
      else if pod.phase = some .succeeded ∨ pod.phase = some .failed then acc
      else if pod.metadata.deletionTimestamp.isSome then acc
      else (acc.1.addPod name (podInfoOn name pod), acc.2)

/-- All pods of the listing. -/
def sortPods (cfg : Config) (now : ℚ) (terminating : List String) (m : NodeMap)
    (pods : List Pod) : NodeMap × List Pod :=
  pods.foldl (sortPod cfg now terminating) (m, [])

/-- Build the state of each managed node with its pods; return the pending pods too. -/
def buildNodeStates (cfg : Config) (managed : List (String × String)) :
    Api (Except Failure (NodeMap × List Pod)) :=
  if managed = [] then .done (.ok (.empty, []))
  else
    Program.call .listNodes fun
      | .error e => .done (.error e)
      | .ok nodes =>
        (readNodes cfg (managed.map Prod.fst) .empty nodes).bind fun states =>
          Program.call .listNamespaces fun
            | .error e => .done (.error e)
            | .ok namespaces =>
              Program.call .wallClock fun now =>
                Program.call .listPods fun
                  | .error e => .done (.error e)
                  | .ok pods =>
                    .done (.ok (sortPods cfg now (terminatingNamespaces namespaces) states pods))

/-! ### The states of the nodes -/

section ReadNodes

variable {cfg : Config} {managed : List String} {m m' : NodeMap} {nodes : List Node}
  {t : List (Event Op Op.Res)}

/-- Reading the nodes makes no calls but for the time. -/
theorem onlyCalls_readNodes :
    (readNodes cfg managed m nodes).OnlyCalls fun op => op = .wallClock := by
  induction nodes generalizing m with
  | nil => trivial
  | cons n rest ih =>
    rw [readNodes]
    split
    · exact ih
    split
    · exact ih
    · exact ⟨rfl, fun _ => ih⟩

/-- Every state read is that of a listed managed node, or was there before. -/
theorem of_mem_readNodes (ht : Trace (readNodes cfg managed m nodes) t (.done m'))
    {s : NodeState} (hs : s ∈ m'.values) :
    s ∈ m.values ∨ ∃ n ∈ nodes, n.name ∈ managed ∧ ∃ created, s = nodeStateOf cfg n created := by
  induction nodes generalizing m t with
  | nil =>
    cases ht
    exact Or.inl hs
  | cons n rest ih =>
    have hset : ∀ created,
        (s ∈ (m.set (nodeStateOf cfg n created)).values ∨ ∃ n' ∈ rest, n'.name ∈ managed ∧
          ∃ created, s = nodeStateOf cfg n' created) → n.name ∈ managed →
        s ∈ m.values ∨ ∃ n' ∈ n :: rest, n'.name ∈ managed ∧
          ∃ created, s = nodeStateOf cfg n' created := by
      rintro created (hs | ⟨n', hn', h⟩) hmanaged
      · rcases NodeMap.mem_set.mp hs with rfl | ⟨hs, _⟩
        · exact Or.inr ⟨n, by simp, hmanaged, created, rfl⟩
        · exact Or.inl hs
      · exact Or.inr ⟨n', by simp [hn'], h⟩
    rw [readNodes] at ht
    split at ht
    · rcases ih ht with h | ⟨n', hn', h⟩
      · exact Or.inl h
      · exact Or.inr ⟨n', by simp [hn'], h⟩
    rename_i hmanaged
    have hmanaged := not_not.mp hmanaged
    split at ht
    · exact hset _ (ih ht) hmanaged
    · cases ht with
      | cons r ht => exact hset _ (ih ht) hmanaged

/-- Every listed managed node has a state, and states that were there stay. -/
theorem exists_mem_readNodes (ht : Trace (readNodes cfg managed m nodes) t (.done m'))
    {name : String} (hname : name ∈ m.values.map NodeState.name ∨
      name ∈ managed ∧ name ∈ nodes.map Node.name) :
    name ∈ m'.values.map NodeState.name := by
  induction nodes generalizing m t with
  | nil =>
    cases ht
    exact hname.resolve_right (by simp)
  | cons n rest ih =>
    rw [readNodes] at ht
    simp only [List.map_cons, List.mem_cons] at hname
    split at ht
    · rename_i hnot
      refine ih ht (hname.imp_right fun h => ⟨h.1, h.2.resolve_left ?_⟩)
      rintro rfl
      exact hnot h.1
    have hname' : ∀ created, name ∈ (m.set (nodeStateOf cfg n created)).values.map NodeState.name ∨
        name ∈ managed ∧ name ∈ rest.map Node.name := by
      intro created
      rw [NodeMap.mem_names_set]
      rcases hname with h | ⟨hmanaged, h | h⟩
      · exact Or.inl (Or.inr h)
      · exact Or.inl (Or.inl h)
      · exact Or.inr ⟨hmanaged, h⟩
    split at ht
    · exact ih ht (hname' _)
    · cases ht with
      | cons r ht => exact ih ht (hname' _)

end ReadNodes

/-! ### Where each pod goes -/

/-- The pod is bound to the node and uses its resources: it is neither finished nor
terminating. -/
def isLoadOf (name : String) (pod : Pod) : Bool :=
  pod.nodeName = some name && !(pod.phase = some .succeeded) && !(pod.phase = some .failed) &&
    pod.metadata.deletionTimestamp.isNone

theorem isLoadOf_iff {name : String} {pod : Pod} :
    isLoadOf name pod = true ↔ pod.nodeName = some name ∧ pod.phase ≠ some .succeeded ∧
      pod.phase ≠ some .failed ∧ pod.metadata.deletionTimestamp = none := by
  simp [isLoadOf, and_assoc]

section SortPods

variable {cfg : Config} {now : ℚ} {terminating : List String}

/-- A pod is appended to the state of its node alone, and only once it has left Pending. -/
theorem get?_sortPod (acc : NodeMap × List Pod) (pod : Pod) (name : String) :
    (sortPod cfg now terminating acc pod).1.get? name =
      (acc.1.get? name).map fun n =>
        if pod.phase ≠ some .pending ∧ isLoadOf name pod then
          { n with pods := n.pods ++ [podInfoOn name pod] }
        else n := by
  have hsame : ∀ P : Prop, [Decidable P] → ¬ P → acc.1.get? name =
      (acc.1.get? name).map fun n =>
        if P then { n with pods := n.pods ++ [podInfoOn name pod] } else n := by
    intro P _ hP
    simp [hP]
  unfold sortPod
  split
  · rename_i hpending
    split <;> exact hsame _ (by simp [hpending])
  rename_i hpending
  split
  · rename_i hnode
    exact hsame _ (by simp [isLoadOf_iff, hnode])
  rename_i bound hnode
  split
  · rename_i hnone
    by_cases heq : bound = name
    · subst heq
      simp [Option.isNone_iff_eq_none.mp hnone]
    · exact hsame _ (by simp [isLoadOf_iff, hnode, heq])
  split
  · rename_i hphase
    exact hsame _ (by
      rw [isLoadOf_iff]
      rintro ⟨_, _, hs, hf, _⟩
      exact hphase.elim hs hf)
  rename_i hphase
  split
  · rename_i hdeleted
    exact hsame _ (by
      rw [isLoadOf_iff]
      rintro ⟨_, _, _, _, h⟩
      simp [h] at hdeleted)
  rename_i hdeleted
  rw [NodeMap.addPod, NodeMap.get?_map]
  cases hget : acc.1.get? name with
  | none => rfl
  | some n =>
    have hname : n.name = name := (NodeMap.get?_eq_some_iff.mp hget).2
    simp only [Option.map_some, hname]
    by_cases heq : bound = name
    · subst heq
      have hload : isLoadOf bound pod = true := by
        rw [isLoadOf_iff]
        exact ⟨hnode, fun h => hphase (Or.inl h), fun h => hphase (Or.inr h),
          by simpa using hdeleted⟩
      simp [hpending, hload]
    · have hload : ¬ isLoadOf name pod = true := by
        rw [isLoadOf_iff, hnode]
        rintro ⟨h, _⟩
        exact heq (Option.some.inj h)
      simp [Ne.symm heq, hload]

/-- The load of a node after all pods: those bound to it that have left Pending. -/
theorem get?_sortPods (m : NodeMap) (pods : List Pod) (name : String) :
    (sortPods cfg now terminating m pods).1.get? name =
      (m.get? name).map fun n =>
        { n with
          pods := n.pods ++ (pods.filter fun pod =>
            pod.phase ≠ some .pending ∧ isLoadOf name pod).map (podInfoOn name) } := by
  suffices h : ∀ acc : NodeMap × List Pod,
      (pods.foldl (sortPod cfg now terminating) acc).1.get? name =
        (acc.1.get? name).map fun n =>
          { n with
            pods := n.pods ++ (pods.filter fun pod =>
              pod.phase ≠ some .pending ∧ isLoadOf name pod).map (podInfoOn name) } from h (m, [])
  induction pods with
  | nil =>
    intro acc
    simp
  | cons pod pods ih =>
    intro acc
    rw [List.foldl_cons, ih, get?_sortPod, Option.map_map]
    congr 1
    funext n
    simp only [Function.comp_apply, List.filter_cons, decide_eq_true_eq]
    split <;> simp

/-- No pending pod that is returned is bound to a node. -/
theorem nodeName_of_mem_sortPods {m : NodeMap} {pods : List Pod} {pod : Pod}
    (h : pod ∈ (sortPods cfg now terminating m pods).2) : pod.nodeName = none := by
  suffices hacc : ∀ acc : NodeMap × List Pod, (∀ p ∈ acc.2, p.nodeName = none) →
      ∀ p ∈ (pods.foldl (sortPod cfg now terminating) acc).2, p.nodeName = none from
    hacc (m, []) (by simp) pod h
  clear h
  induction pods with
  | nil => exact fun acc hacc => hacc
  | cons pod pods ih =>
    intro acc hacc
    refine ih _ fun p hp => ?_
    unfold sortPod at hp
    split at hp
    · split at hp
      · rename_i hawaits
        rcases List.mem_append.mp hp with hp | hp
        · exact hacc p hp
        · rw [List.mem_singleton.mp hp]
          unfold awaitsCapacity at hawaits
          split at hawaits
          · cases hawaits
          · simpa using ‹¬ pod.nodeName.isSome = true›
      · exact hacc p hp
    · split at hp
      · exact hacc p hp
      · split at hp
        · exact hacc p hp
        split at hp
        · exact hacc p hp
        split at hp <;> exact hacc p hp

end SortPods

/-! ### Accounting -/

/-- What a build makes of a listing of nodes and a listing of pods. -/
structure BuiltFrom (cfg : Config) (managed : List String) (nodes : List Node) (pods : List Pod)
    (states : NodeMap) : Prop where
  names : ∀ name, name ∈ states.values.map NodeState.name ↔
    name ∈ managed ∧ name ∈ nodes.map Node.name
  state : ∀ s ∈ states.values, ∃ n ∈ nodes, ∃ created, s =
    { nodeStateOf cfg n created with
      pods := (pods.filter fun pod => pod.phase ≠ some .pending ∧ isLoadOf n.name pod).map
        (podInfoOn n.name) }

theorem builtFrom_sortPods {cfg : Config} {managed : List String} {nodes : List Node} {m : NodeMap}
    {t : List (Event Op Op.Res)} (hread : Trace (readNodes cfg managed .empty nodes) t (.done m))
    (now : ℚ) (terminating : List String) (pods : List Pod) :
    BuiltFrom cfg managed nodes pods (sortPods cfg now terminating m pods).1 := by
  have hread' : ∀ n ∈ m.values, ∃ n' ∈ nodes, n'.name ∈ managed ∧
      ∃ created, n = nodeStateOf cfg n' created := by
    intro n hn
    exact (of_mem_readNodes hread hn).resolve_left (by simp [NodeMap.empty])
  refine ⟨fun name => ?_, fun s hs => ?_⟩
  · rw [← NodeMap.isSome_get?_iff, get?_sortPods, Option.isSome_map, NodeMap.isSome_get?_iff]
    refine ⟨fun h => ?_, fun h => exists_mem_readNodes hread (Or.inr h)⟩
    obtain ⟨n, hn, rfl⟩ := List.mem_map.mp h
    obtain ⟨n', hn', hmanaged, _, rfl⟩ := hread' n hn
    exact ⟨hmanaged, List.mem_map_of_mem hn'⟩
  · have hget := NodeMap.get?_eq_some_iff.mpr ⟨hs, rfl⟩
    rw [get?_sortPods, Option.map_eq_some_iff] at hget
    obtain ⟨n, hn, hs⟩ := hget
    obtain ⟨hmem, hname⟩ := NodeMap.get?_eq_some_iff.mp hn
    obtain ⟨n', hn', _, created, rfl⟩ := hread' n hmem
    refine ⟨n', hn', created, ?_⟩
    rw [← hs, ← hname]
    rfl

/-- A completed build has listed nodes and pods once each, and built the states from them. -/
theorem trace_buildNodeStates {cfg : Config} {managed : List (String × String)}
    {t : List (Event Op Op.Res)} {states : NodeMap} {pending : List Pod} (hne : managed ≠ [])
    (ht : Trace (buildNodeStates cfg managed) t (.done (.ok (states, pending)))) :
    ∃ nodes namespaces now pods t', (∀ e ∈ t', e.1 = Op.wallClock) ∧
      t = ⟨.listNodes, .ok nodes⟩ :: t' ++
        [⟨.listNamespaces, .ok namespaces⟩, ⟨.wallClock, now⟩, ⟨.listPods, .ok pods⟩] ∧
      BuiltFrom cfg (managed.map Prod.fst) nodes pods states ∧
      ∀ pod ∈ pending, pod.nodeName = none := by
  rw [buildNodeStates, if_neg hne, trace_call_done_iff] at ht
  obtain ⟨nodes | nodes, t₁, rfl, h₁⟩ := ht
  · simp at h₁
  obtain ⟨m, t', t₂, rfl, hread, h₂⟩ := trace_bind_done_iff.mp h₁
  obtain ⟨namespaces | namespaces, t₃, rfl, h₃⟩ := trace_call_done_iff.mp h₂
  · simp at h₃
  obtain ⟨now, t₄, rfl, h₄⟩ := trace_call_done_iff.mp h₃
  obtain ⟨pods | pods, t₅, rfl, h₅⟩ := trace_call_done_iff.mp h₄
  · simp at h₅
  simp only [trace_done_iff, done.injEq, Except.ok.injEq] at h₅
  obtain ⟨rfl, hsorted⟩ := h₅
  refine ⟨nodes, namespaces, now, pods, t', onlyCalls_readNodes.of_trace hread, rfl, ?_, ?_⟩
  · rw [show states = _ from congrArg Prod.fst hsorted]
    exact builtFrom_sortPods hread now _ pods
  · rw [show pending = _ from congrArg Prod.snd hsorted]
    exact fun pod => nodeName_of_mem_sortPods

/-- Every pod that uses a managed node is counted once, in the state of that node and in
no other, and no pod is both load and pending demand. -/
structure Accounted (managed : List String) (pods : List Pod) (states : NodeMap)
    (pending : List Pod) : Prop where
  exists_state : ∀ name ∈ managed, ∀ pod ∈ pods, isLoadOf name pod = true →
    name ∈ states.values.map NodeState.name
  pods_eq : ∀ s ∈ states.values, s.pods = (pods.filter (isLoadOf s.name)).map (podInfoOn s.name)
  pending_unbound : ∀ pod ∈ pending, pod.nodeName = none

/-- The pods that use a managed node have left Pending, and the node is in the listing. -/
def BoundPodsStarted (managed : List String) (nodes : List Node) (pods : List Pod) : Prop :=
  ∀ name ∈ managed, ∀ pod ∈ pods, isLoadOf name pod = true →
    pod.phase ≠ some .pending ∧ name ∈ nodes.map Node.name

theorem BuiltFrom.accounted_iff {cfg : Config} {managed : List String} {nodes : List Node}
    {pods pending : List Pod} {states : NodeMap} (h : BuiltFrom cfg managed nodes pods states)
    (hpending : ∀ pod ∈ pending, pod.nodeName = none) :
    Accounted managed pods states pending ↔ BoundPodsStarted managed nodes pods := by
  constructor
  · rintro ⟨hexists, hpods, _⟩ name hname pod hpod hload
    have hstate := hexists name hname pod hpod hload
    refine ⟨fun hphase => ?_, ((h.names name).mp hstate).2⟩
    obtain ⟨s, hs, rfl⟩ := List.mem_map.mp hstate
    obtain ⟨n, _, created, hbuilt⟩ := h.state s hs
    have hsname : s.name = n.name := by rw [hbuilt]; rfl
    have heq := congrArg List.length ((congrArg NodeState.pods hbuilt).symm.trans (hpods s hs))
    rw [hsname] at heq hload
    simp only [List.length_map] at heq
    have hfilter : (pods.filter fun pod => pod.phase ≠ some .pending ∧ isLoadOf n.name pod) =
        (pods.filter (isLoadOf n.name)).filter fun pod => pod.phase ≠ some .pending := by
      rw [List.filter_filter]
      simp
    rw [hfilter, List.length_filter_eq_length_iff] at heq
    have := heq pod (List.mem_filter.mpr ⟨hpod, hload⟩)
    simp [hphase] at this
  · intro hstarted
    refine ⟨fun name hname pod hpod hload => ?_, fun s hs => ?_, hpending⟩
    · exact (h.names name).mpr ⟨hname, (hstarted name hname pod hpod hload).2⟩
    · have hname := ((h.names s.name).mp (List.mem_map_of_mem hs)).1
      obtain ⟨n, _, created, hbuilt⟩ := h.state s hs
      have hsname : s.name = n.name := by rw [hbuilt]; rfl
      refine (congrArg NodeState.pods hbuilt).trans ?_
      rw [hsname] at hname ⊢
      refine congrArg (List.map (podInfoOn n.name)) (List.filter_congr fun pod hpod => ?_)
      by_cases hload : isLoadOf n.name pod = true
      · simp [hload, (hstarted n.name hname pod hpod hload).1]
      · simp [hload]

/-- **Accounting of live pods.** Whatever the API lists, the states account for the pods
exactly if the pods that use a managed node have left Pending and the node is listed. -/
theorem buildNodeStates_accounted_iff {cfg : Config} {managed : List (String × String)}
    {t : List (Event Op Op.Res)} {states : NodeMap} {nodes : List Node} {pods pending : List Pod}
    (ht : Trace (buildNodeStates cfg managed) t (.done (.ok (states, pending))))
    (hnodes : managed ≠ [] → ⟨.listNodes, .ok nodes⟩ ∈ t)
    (hpods : managed ≠ [] → ⟨.listPods, .ok pods⟩ ∈ t) :
    Accounted (managed.map Prod.fst) pods states pending ↔
      BoundPodsStarted (managed.map Prod.fst) nodes pods := by
  by_cases hne : managed = []
  · subst hne
    simp only [buildNodeStates, if_true, trace_done_iff, done.injEq, Except.ok.injEq,
      Prod.mk.injEq] at ht
    obtain ⟨_, rfl, rfl⟩ := ht
    have hbuilt : BuiltFrom cfg [] nodes pods .empty :=
      ⟨by simp [NodeMap.empty], by simp [NodeMap.empty]⟩
    exact hbuilt.accounted_iff (by simp)
  obtain ⟨nodes', namespaces, now, pods', t', honly, rfl, hbuilt, hpending⟩ :=
    trace_buildNodeStates hne ht
  have hnodes' : nodes' = nodes := by
    have hmem := hnodes hne
    simp only [List.cons_append, List.mem_cons, List.mem_append, List.not_mem_nil, or_false] at hmem
    rcases hmem with hmem | hmem | hmem | hmem | hmem
    · cases hmem
      rfl
    · cases honly _ hmem
    all_goals cases hmem
  have hpods' : pods' = pods := by
    have hmem := hpods hne
    simp only [List.cons_append, List.mem_cons, List.mem_append, List.not_mem_nil, or_false] at hmem
    rcases hmem with hmem | hmem | hmem | hmem | hmem
    · cases hmem
    · cases honly _ hmem
    · cases hmem
    · cases hmem
    · cases hmem
      rfl
  subst hnodes' hpods'
  exact hbuilt.accounted_iff hpending

/-- A node of the pool, just created. -/
def freshNode (name : String) : Node where
  name := name
  resourceVersion := 1
  labels := fun _ => none
  annotations := fun _ => none
  creationTimestamp := some 0
  taints := []
  allocatable := ⟨some "10", some "10", none⟩

/-- A pod that the scheduler has bound to a node. -/
def boundPod (node : String) (phase : PodPhase) : Pod where
  metadata := ⟨"pod", "default", some 0, none, []⟩
  spec := some ⟨some node, [], [], [], [], []⟩
  status := some ⟨some phase, [], none⟩

/-- The calls and answers of a build over one fresh node and one pod. -/
def freshEvents (pod : Pod) : List (Event Op Op.Res) :=
  [⟨.listNodes, .ok [freshNode "n1"]⟩, ⟨.listNamespaces, .ok []⟩, ⟨.wallClock, (0 : ℚ)⟩,
    ⟨.listPods, .ok [pod]⟩]

/-- The result of that build. -/
def freshResult (pod : Pod) : NodeMap × List Pod :=
  sortPods bareConfig 0 [] (NodeMap.empty.set (nodeStateOf bareConfig (freshNode "n1") 0)) [pod]

theorem trace_freshEvents (pod : Pod) : Trace (buildNodeStates bareConfig [("n1", "pool")])
    (freshEvents pod) (.done (.ok (freshResult pod))) := by
  rw [buildNodeStates, if_neg (by simp)]
  refine Trace.cons _ (trace_bind_done_iff.mpr
    ⟨NodeMap.empty.set (nodeStateOf bareConfig (freshNode "n1") 0), [], _, rfl, ?_, ?_⟩)
  · simp [readNodes, freshNode]
  · exact Trace.cons _ (Trace.cons _ (Trace.cons _ (Trace.nil _)))

/-- A pod that runs on its node is accounted for. -/
theorem buildNodeStates_accounted_running :
    Accounted ["n1"] [boundPod "n1" .running] (freshResult (boundPod "n1" .running)).1
      (freshResult (boundPod "n1" .running)).2 := by
  have hnodes : ⟨.listNodes, .ok [freshNode "n1"]⟩ ∈ freshEvents (boundPod "n1" .running) := by
    simp [freshEvents]
  refine (buildNodeStates_accounted_iff (trace_freshEvents (boundPod "n1" .running))
    (fun _ => hnodes) (by simp [freshEvents])).mpr ?_
  simp [BoundPodsStarted, freshNode, boundPod, Pod.phase]

/-- A bound pod that still pulls its images is Pending: the load of its node does not show
it, although it uses the node. -/
theorem imagePullingPod_not_accounted :
    let pod := boundPod "n1" .pending
    Trace (buildNodeStates bareConfig [("n1", "pool")]) (freshEvents pod)
        (.done (.ok (freshResult pod))) ∧
      isLoadOf "n1" pod = true ∧ (freshResult pod).1.values.map NodeState.pods = [[]] ∧
      ¬ Accounted ["n1"] [pod] (freshResult pod).1 (freshResult pod).2 := by
  intro pod
  have hload : isLoadOf "n1" pod = true := by decide
  have hpods : (freshResult pod).1.values.map NodeState.pods = [[]] := by decide +kernel
  refine ⟨trace_freshEvents pod, hload, hpods, fun h => ?_⟩
  obtain ⟨s, hs, hname⟩ := List.mem_map.mp (h.exists_state "n1" (by simp) pod (by simp) hload)
  have hnil : s.pods = [] := by
    have := List.mem_map_of_mem (f := NodeState.pods) hs
    rwa [hpods, List.mem_singleton] at this
  have := h.pods_eq s hs
  rw [hnil, hname] at this
  simp [hload] at this

end CiInfra.Compactor

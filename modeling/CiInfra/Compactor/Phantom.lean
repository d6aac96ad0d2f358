import CiInfra.Compactor.Matching

/-!
# Phantom load

Pending pods of the right age are predicted onto the least utilized compatible untainted
node, as phantom pods, within a cap on the phantom share of each resource.
-/

namespace CiInfra.Compactor

open Kube

def phantomMaxPendingSeconds : ℚ := 120

def phantomMinPendingSeconds : ℚ := 30

/-- Maximum fraction of a node's allocatable resources that phantom pods may consume. -/
def phantomLoadCap : ℚ := 3 / 10

/-- The phantom requests placed so far, by node name. -/
structure PhantomLoad where
  cpu : String → ℚ
  memory : String → ℤ
  gpu : String → ℤ

/-- The phantom load cap for a further pod; a resource the node does not have is not capped. -/
def withinPhantomCap (load : PhantomLoad) (pod : Pod) (n : NodeState) : Bool :=
  (n.allocatableCpu ≤ 0 ||
    (load.cpu n.name + podCpuRequest pod) / n.allocatableCpu ≤ phantomLoadCap) &&
  (n.allocatableMemory ≤ 0 ||
    ((load.memory n.name + podMemoryRequest pod : ℤ) : ℚ) / n.allocatableMemory ≤ phantomLoadCap) &&
  (n.allocatableGpu ≤ 0 ||
    ((load.gpu n.name + podGpuRequest pod : ℤ) : ℚ) / n.allocatableGpu ≤ phantomLoadCap)

/-- The phantom of a pending pod on a node. -/
def phantomPod (pod : Pod) (nodeName : String) : PodInfo where
  name := "phantom-" ++ pod.metadata.name
  «namespace» := pod.metadata.namespace
  cpuRequest := podCpuRequest pod
  memoryRequest := podMemoryRequest pod
  gpuRequest := podGpuRequest pod
  nodeName := nodeName
  isDaemonset := false
  isPhantom := true

/-- Count one more phantom. -/
def PhantomLoad.add (load : PhantomLoad) (name : String) (pod : Pod) : PhantomLoad where
  cpu k := if k = name then load.cpu k + podCpuRequest pod else load.cpu k
  memory k := if k = name then load.memory k + podMemoryRequest pod else load.memory k
  gpu k := if k = name then load.gpu k + podGpuRequest pod else load.gpu k

/-- The age filter: a pod without a creation time passes. -/
def eligibleForPhantom (now : ℚ) (pod : Pod) : Bool :=
  match pod.metadata.creationTimestamp with
  | none => true
  | some creation =>
    phantomMinPendingSeconds ≤ now - creation && now - creation ≤ phantomMaxPendingSeconds

/-- Place one pending pod on the least utilized compatible untainted node below the cap. -/
def placePhantom (now : ℚ) (state : NodeMap × PhantomLoad) (pod : Pod) : NodeMap × PhantomLoad :=
  if eligibleForPhantom now pod then
    let compatible := state.1.values.filter fun n => !n.isTainted && podMatchesNode pod n
    let byUtilization := compatible.insertionSort fun n n' => n.utilization ≤ n'.utilization
    match byUtilization.find? (withinPhantomCap state.2 pod) with
    | none => state
    | some n => (state.1.addPod n.name (phantomPod pod n.name), state.2.add n.name pod)
  else state

/-- Simulate pending pod placement as phantom load on nodes. -/
def applyPendingPhantomLoad (nodeStates : NodeMap) (pendingPods : List Pod) (now : ℚ) : NodeMap :=
  (pendingPods.foldl (placePhantom now) (nodeStates, ⟨fun _ => 0, fun _ => 0, fun _ => 0⟩)).1

/-! ### What phantom load leaves alone -/

/-- A node state without its pods. -/
def NodeState.withoutPods (n : NodeState) : NodeState := { n with pods := [] }

theorem NodeMap.withoutPods_addPod (m : NodeMap) (name : String) (p : PodInfo) :
    (m.addPod name p).values.map NodeState.withoutPods = m.values.map NodeState.withoutPods := by
  simp only [NodeMap.addPod, NodeMap.map, List.map_map]
  apply List.map_congr_left
  intro n _
  simp only [Function.comp]
  split <;> rfl

/-- Phantom load changes nothing but the pods of nodes: names, taints and labels stay. -/
theorem withoutPods_applyPendingPhantomLoad (nodeStates : NodeMap) (pendingPods : List Pod)
    (now : ℚ) :
    (applyPendingPhantomLoad nodeStates pendingPods now).values.map NodeState.withoutPods =
      nodeStates.values.map NodeState.withoutPods := by
  suffices h : ∀ state : NodeMap × PhantomLoad,
      (pendingPods.foldl (placePhantom now) state).1.values.map NodeState.withoutPods =
        state.1.values.map NodeState.withoutPods from h _
  induction pendingPods with
  | nil => exact fun _ => rfl
  | cons pod pods ih =>
    intro state
    rw [List.foldl_cons, ih]
    unfold placePhantom
    split
    · dsimp only
      split
      · rfl
      · exact NodeMap.withoutPods_addPod _ _ _
    · rfl

/-! ### Bounds on the phantom load -/

/-- The phantoms of pods placed on nodes that are on the named one. -/
def phantomsOn (placed : List (Pod × String)) (name : String) : List PodInfo :=
  (placed.filter fun p => p.2 = name).map fun p => phantomPod p.1 p.2

/-- The node with the phantoms placed on it. -/
def NodeState.withPhantoms (n : NodeState) (placed : List (Pod × String)) : NodeState :=
  { n with pods := n.pods ++ phantomsOn placed n.name }

@[simp] theorem NodeState.withPhantoms_name (n : NodeState) (placed : List (Pod × String)) :
    (n.withPhantoms placed).name = n.name := rfl

theorem NodeMap.values_addPod (m : NodeMap) (name : String) (p : PodInfo) :
    (m.addPod name p).values =
      m.values.map fun n => if n.name = name then { n with pods := n.pods ++ [p] } else n := rfl

/-- The phantoms placed on the node keep within what it has and within the cap. GPUs that are
requested beyond what the node has are none of theirs. -/
structure NodeState.PhantomsFit (n : NodeState) (placed : List (Pod × String)) : Prop where
  cpu_le : phantomsOn placed n.name ≠ [] → (n.withPhantoms placed).totalCpuUsed ≤ n.allocatableCpu
  memory_le : phantomsOn placed n.name ≠ [] →
    (n.withPhantoms placed).totalMemoryUsed ≤ n.allocatableMemory
  gpu_le : (n.withPhantoms placed).totalGpuUsed ≤ max n.allocatableGpu n.totalGpuUsed
  cpu_cap : 0 < n.allocatableCpu →
    ((phantomsOn placed n.name).map PodInfo.cpuRequest).sum ≤ phantomLoadCap * n.allocatableCpu
  memory_cap : 0 < n.allocatableMemory →
    (((phantomsOn placed n.name).map PodInfo.memoryRequest).sum : ℚ) ≤
      phantomLoadCap * n.allocatableMemory
  gpu_cap : 0 < n.allocatableGpu →
    (((phantomsOn placed n.name).map PodInfo.gpuRequest).sum : ℚ) ≤
      phantomLoadCap * n.allocatableGpu

/-- The map has become this one by placing phantoms, at most one for each of the pods, on
untainted nodes. -/
structure PhantomsPlaced (nodeStates : NodeMap) (pods : List Pod) (placed : List (Pod × String))
    (after : NodeMap) : Prop where
  once : (placed.map Prod.fst).Sublist pods
  values_eq : after.values = nodeStates.values.map fun n => n.withPhantoms placed
  untainted : ∀ n ∈ nodeStates.values, n.isTainted = true → phantomsOn placed n.name = []
  fit : ∀ n ∈ nodeStates.values, n.PhantomsFit placed

/-- The counters have counted the phantoms placed. -/
structure PhantomLoad.Counts (load : PhantomLoad) (placed : List (Pod × String)) : Prop where
  cpu_eq : ∀ name, load.cpu name = ((phantomsOn placed name).map PodInfo.cpuRequest).sum
  memory_eq : ∀ name, load.memory name = ((phantomsOn placed name).map PodInfo.memoryRequest).sum
  gpu_eq : ∀ name, load.gpu name = ((phantomsOn placed name).map PodInfo.gpuRequest).sum

section Bounds

variable {nodeStates : NodeMap} {pods : List Pod} {placed : List (Pod × String)}
  {state : NodeMap × PhantomLoad} {pod : Pod} {n : NodeState} {name : String} {now : ℚ}

@[simp] theorem phantomsOn_append_singleton :
    phantomsOn (placed ++ [(pod, name)]) name =
      phantomsOn placed name ++ [phantomPod pod name] := by
  simp [phantomsOn]

theorem phantomsOn_append_singleton_of_ne {name' : String} (h : name' ≠ name) :
    phantomsOn (placed ++ [(pod, name)]) name' = phantomsOn placed name' := by
  simp [phantomsOn, h.symm]

/-- Counting one more phantom keeps the count. -/
theorem PhantomLoad.Counts.add {load : PhantomLoad} (h : load.Counts placed) :
    (load.add name pod).Counts (placed ++ [(pod, name)]) := by
  constructor
  all_goals
    intro name'
    by_cases hname : name' = name
    · subst hname
      simp [PhantomLoad.add, phantomPod, h.cpu_eq, h.memory_eq, h.gpu_eq]
    · simp [PhantomLoad.add, hname, phantomsOn_append_singleton_of_ne, h.cpu_eq, h.memory_eq,
        h.gpu_eq]

/-- A pod that fits finds the CPU and the memory it requests, and the GPUs if it requests any. -/
theorem le_remaining_of_podFitsResources (h : podFitsResources pod n = true) :
    podCpuRequest pod ≤ n.remaining.cpuRemaining ∧
      podMemoryRequest pod ≤ n.remaining.memRemaining ∧
      (0 < podGpuRequest pod → podGpuRequest pod ≤ n.remaining.gpuRemaining) := by
  unfold podFitsResources at h
  split at h
  · cases h
  rename_i hcpu
  split at h
  · cases h
  rename_i hmem
  refine ⟨not_lt.mp hcpu, not_lt.mp hmem, fun hgpu => ?_⟩
  rw [if_pos hgpu] at h
  split at h
  · cases h
  · exact of_decide_eq_true h

/-- A ratio that is not capped or below the cap bounds its numerator. -/
theorem le_cap_of_or {x a : ℚ} (ha : 0 < a) (h : a ≤ 0 ∨ x / a ≤ phantomLoadCap) :
    x ≤ phantomLoadCap * a :=
  (div_le_iff₀ ha).mp (h.resolve_left (not_le.mpr ha))

/-- A node that a pod matches within the cap keeps within both with its phantom. -/
theorem NodeState.PhantomsFit.append {load : PhantomLoad} (h : n.PhantomsFit placed)
    (hcounts : load.Counts placed) (hmatch : podMatchesNode pod (n.withPhantoms placed) = true)
    (hcap : withinPhantomCap load pod (n.withPhantoms placed) = true) :
    n.PhantomsFit (placed ++ [(pod, n.name)]) := by
  obtain ⟨-, hfits⟩ := Bool.and_eq_true_iff.mp hmatch
  obtain ⟨hcpu, hmem, hgpu⟩ := le_remaining_of_podFitsResources hfits
  simp only [withinPhantomCap, Bool.and_eq_true, Bool.or_eq_true, decide_eq_true_eq,
    NodeState.withPhantoms_name, hcounts.cpu_eq, hcounts.memory_eq, hcounts.gpu_eq] at hcap
  obtain ⟨⟨hcpuCap, hmemCap⟩, hgpuCap⟩ := hcap
  have htotalCpu : (n.withPhantoms (placed ++ [(pod, n.name)])).totalCpuUsed =
      (n.withPhantoms placed).totalCpuUsed + podCpuRequest pod := by
    simp [withPhantoms, totalCpuUsed, phantomPod, add_assoc]
  have htotalMemory : (n.withPhantoms (placed ++ [(pod, n.name)])).totalMemoryUsed =
      (n.withPhantoms placed).totalMemoryUsed + podMemoryRequest pod := by
    simp [withPhantoms, totalMemoryUsed, phantomPod, add_assoc]
  have htotalGpu : (n.withPhantoms (placed ++ [(pod, n.name)])).totalGpuUsed =
      (n.withPhantoms placed).totalGpuUsed + podGpuRequest pod := by
    simp [withPhantoms, totalGpuUsed, phantomPod, add_assoc]
  constructor
  · intro _
    rw [htotalCpu, add_comm]
    exact le_sub_iff_add_le.mp hcpu
  · intro _
    rw [htotalMemory, add_comm]
    exact le_sub_iff_add_le.mp hmem
  · rw [htotalGpu]
    have hle := h.gpu_le
    by_cases hpos : 0 < podGpuRequest pod
    · -- a pod with GPUs fits what is left of them
      have hfit : podGpuRequest pod ≤ n.allocatableGpu - (n.withPhantoms placed).totalGpuUsed :=
        hgpu hpos
      omega
    · omega
  · intro hpos
    have hle := le_cap_of_or hpos hcpuCap
    simpa [phantomPod] using hle
  · intro hpos
    have hle := le_cap_of_or (Int.cast_pos.mpr hpos) (hmemCap.imp_left Int.cast_nonpos.mpr)
    simpa [phantomPod] using hle
  · intro hpos
    have hle := le_cap_of_or (Int.cast_pos.mpr hpos) (hgpuCap.imp_left Int.cast_nonpos.mpr)
    simpa [phantomPod] using hle

/-- Placing one more pod keeps the phantoms in order. -/
theorem phantomsPlaced_placePhantom (h : PhantomsPlaced nodeStates pods placed state.1)
    (hcounts : state.2.Counts placed) (now : ℚ) (pod : Pod) :
    ∃ placed', PhantomsPlaced nodeStates (pods ++ [pod]) placed' (placePhantom now state pod).1 ∧
      (placePhantom now state pod).2.Counts placed' := by
  have hskip : PhantomsPlaced nodeStates (pods ++ [pod]) placed state.1 :=
    ⟨h.once.trans (List.sublist_append_left _ _), h.values_eq, h.untainted, h.fit⟩
  unfold placePhantom
  split
  swap
  · exact ⟨placed, hskip, hcounts⟩
  dsimp only
  split
  · exact ⟨placed, hskip, hcounts⟩
  rename_i m hfind
  have hmem := (List.perm_insertionSort _ _).mem_iff.mp (List.mem_of_find?_eq_some hfind)
  obtain ⟨hm, hmatch⟩ := List.mem_filter.mp hmem
  rw [Bool.and_eq_true, Bool.not_eq_true'] at hmatch
  rw [h.values_eq] at hm
  obtain ⟨n, hn, rfl⟩ := List.mem_map.mp hm
  refine ⟨placed ++ [(pod, n.name)], ⟨?_, ?_, ?_, ?_⟩, hcounts.add⟩
  · rw [List.map_append]
    exact h.once.append (List.Sublist.refl _)
  · rw [NodeMap.values_addPod, h.values_eq, List.map_map]
    refine List.map_congr_left fun m _ => ?_
    by_cases hname : m.name = n.name
    · simp [NodeState.withPhantoms, hname]
    · simp [NodeState.withPhantoms, hname, phantomsOn_append_singleton_of_ne]
  · intro m hm htainted
    have hne : m.name ≠ n.name := by
      rintro hname
      rw [NodeMap.eq_of_name_eq hm hn hname] at htainted
      have huntainted : n.isTainted = false := hmatch.1
      rw [huntainted] at htainted
      cases htainted
    rw [phantomsOn_append_singleton_of_ne hne]
    exact h.untainted m hm htainted
  · intro m hm
    by_cases hname : m.name = n.name
    · rw [NodeMap.eq_of_name_eq hm hn hname]
      exact (h.fit n hn).append hcounts hmatch.2 (List.find?_some hfind)
    · have hsame : phantomsOn (placed ++ [(pod, n.name)]) m.name = phantomsOn placed m.name :=
        phantomsOn_append_singleton_of_ne hname
      have hfit := h.fit m hm
      constructor <;> simp only [NodeState.withPhantoms, hsame]
      · exact hfit.cpu_le
      · exact hfit.memory_le
      · exact hfit.gpu_le
      · exact hfit.cpu_cap
      · exact hfit.memory_cap
      · exact hfit.gpu_cap

/-- Phantom load leaves the tainted nodes and the pods there are alone; every pending pod adds at
most one phantom; a node with phantoms has the CPU and the memory for all its pods, and the GPUs
unless its pods requested more of them before, which no phantom adds to; and the phantoms request
no more than the cap of what the node has. -/
theorem applyPendingPhantomLoad_within (nodeStates : NodeMap) (pendingPods : List Pod) (now : ℚ) :
    ∃ placed, PhantomsPlaced nodeStates pendingPods placed
      (applyPendingPhantomLoad nodeStates pendingPods now) := by
  suffices h : ∃ placed, PhantomsPlaced nodeStates pendingPods placed
      (pendingPods.foldl (placePhantom now) (nodeStates, ⟨fun _ => 0, fun _ => 0, fun _ => 0⟩)).1 ∧
      (pendingPods.foldl (placePhantom now)
        (nodeStates, ⟨fun _ => 0, fun _ => 0, fun _ => 0⟩)).2.Counts placed from
    h.imp fun _ h => h.1
  induction pendingPods using List.reverseRecOn with
  | nil =>
    have hcap : (0 : ℚ) ≤ phantomLoadCap := by norm_num [phantomLoadCap]
    refine ⟨[], ⟨List.Sublist.refl _, ?_, fun _ _ _ => rfl, fun n _ => ?_⟩, ?_⟩
    · simp [NodeState.withPhantoms, phantomsOn]
    · constructor
      · exact fun h => absurd rfl h
      · exact fun h => absurd rfl h
      · simp [NodeState.withPhantoms, phantomsOn]
      · exact fun hpos => mul_nonneg hcap hpos.le
      · exact fun hpos => mul_nonneg hcap (Int.cast_nonneg hpos.le)
      · exact fun hpos => mul_nonneg hcap (Int.cast_nonneg hpos.le)
    · exact ⟨fun _ => rfl, fun _ => rfl, fun _ => rfl⟩
  | append_singleton pods pod ih =>
    obtain ⟨placed, hplaced, hcounts⟩ := ih
    rw [List.foldl_append]
    exact phantomsPlaced_placePhantom hplaced hcounts now pod

end Bounds

/-- A node of one GPU whose pod requests two, as when one of them has failed. -/
def overcommittedNodes : NodeMap where
  values := [{ makeNode "n1" 0 false [] with
    allocatableGpu := 1
    pods := [⟨"gpu-pod", "default", 1, 0, "n1", false, some 0, 2, false⟩] }]
  nodup := by decide

/-- A pending pod of one core and no GPU. -/
def oneCorePod : Pod where
  metadata := ⟨"pod", "default", some 0, none, []⟩
  spec := some ⟨none, [], [⟨⟨some "1", none, none⟩⟩], [], [], []⟩
  status := none

/-- The phantom of the pod is put on the node, whose pods then request more GPUs than it has. -/
theorem overcommittedNodes_receive :
    ∃ n ∈ (applyPendingPhantomLoad overcommittedNodes [oneCorePod] 60).values,
      (∃ p ∈ n.pods, p.isPhantom = true) ∧ n.allocatableGpu < n.totalGpuUsed := by
  decide +kernel

end CiInfra.Compactor

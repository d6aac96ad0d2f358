import CiInfra.Compactor.Phantom

/-!
# Pods that a fleet could host

A pending pod counts for a group if some node matches its constraints and some node is large enough
for it. These may be two nodes, and then the pod can land on neither.
-/

namespace CiInfra.Compactor

open Kube

/-- What a node has beside its DaemonSets is enough for the pod. -/
structure NodeState.Covers (n : NodeState) (pod : Pod) : Prop where
  cpu : podCpuRequest pod ≤ n.allocatableCpu - n.daemonsetCpu
  memory : podMemoryRequest pod ≤ n.allocatableMemory - n.daemonsetMemory
  gpu : 0 < podGpuRequest pod → podGpuRequest pod ≤ n.allocatableGpu - n.daemonsetGpu

/-- The constraints of the pod match the node without our taint. -/
def NodeState.Admits (n : NodeState) (taintKey : String) (pod : Pod) : Prop :=
  podConstraintsMatch pod (nodeViewWithoutTaint n taintKey) = true

/-- Some node of the group both matches the pod and is large enough for it. -/
def CouldHost (groupNodes : List NodeState) (taintKey : String) (pod : Pod) : Prop :=
  ∃ n ∈ groupNodes, n.Admits taintKey pod ∧ n.Covers pod

/-- The age of a pod is within the bounds. -/
def WithinAge (pendingMinAge pendingMaxAge : ℤ) (now : ℚ) (pod : Pod) : Prop :=
  ∃ creation, pod.metadata.creationTimestamp = some creation ∧
    (pendingMinAge : ℚ) ≤ now - creation ∧ now - creation ≤ pendingMaxAge

section Pending

variable {pendingPods : List Pod} {groupNodes : List NodeState} {taintKey : String}
  {pendingMinAge pendingMaxAge : ℤ} {now : ℚ} {pod : Pod}

theorem NodeState.covers_iff {n : NodeState} : n.Covers pod ↔
    (podCpuRequest pod ≤ n.allocatableCpu - n.daemonsetCpu &&
      podMemoryRequest pod ≤ n.allocatableMemory - n.daemonsetMemory &&
      (podGpuRequest pod ≤ 0 || podGpuRequest pod ≤ n.allocatableGpu - n.daemonsetGpu)) = true := by
  simp only [Bool.and_eq_true, Bool.or_eq_true, decide_eq_true_eq]
  constructor
  · rintro ⟨hcpu, hmemory, hgpu⟩
    exact ⟨⟨hcpu, hmemory⟩, (le_or_gt (podGpuRequest pod) 0).imp_right hgpu⟩
  · rintro ⟨⟨hcpu, hmemory⟩, hgpu⟩
    exact ⟨hcpu, hmemory, fun hpos => hgpu.resolve_left (not_le.mpr hpos)⟩

instance {n : NodeState} : Decidable (n.Covers pod) := decidable_of_iff _ NodeState.covers_iff.symm

instance : Decidable (CouldHost groupNodes taintKey pod) :=
  inferInstanceAs (Decidable (∃ n ∈ groupNodes,
    podConstraintsMatch pod (nodeViewWithoutTaint n taintKey) = true ∧ n.Covers pod))

/-- Which pods count: those that some node matches and some node is large enough for. -/
theorem couldLandOn_iff :
    couldLandOn groupNodes taintKey pendingMinAge pendingMaxAge now pod = true ↔
      WithinAge pendingMinAge pendingMaxAge now pod ∧
        (∃ n ∈ groupNodes, n.Admits taintKey pod) ∧ ∃ n ∈ groupNodes, n.Covers pod := by
  unfold couldLandOn WithinAge
  cases pod.metadata.creationTimestamp with
  | none => simp
  | some creation =>
    simp only [Option.some.injEq, exists_eq_left', Bool.if_false_left, Bool.and_eq_true,
      List.any_eq_true, NodeState.covers_iff, NodeState.Admits]
    simp

end Pending

/-- Every pod that is counted for the group could land on one node of it. -/
def CountsOnlyHostable (pendingPods : List Pod) (groupNodes : List NodeState) (taintKey : String)
    (pendingMinAge pendingMaxAge : ℤ) (now : ℚ) : Prop :=
  List.Forall₂ (fun pod info => info = podToPodinfo pod ∧ CouldHost groupNodes taintKey pod)
    (pendingPods.filter (couldLandOn groupNodes taintKey pendingMinAge pendingMaxAge now))
    (pendingPodsForGroup pendingPods groupNodes taintKey pendingMinAge pendingMaxAge now)

theorem countsOnlyHostable_iff_forall {pendingPods : List Pod} {groupNodes : List NodeState}
    {taintKey : String} {pendingMinAge pendingMaxAge : ℤ} {now : ℚ} :
    CountsOnlyHostable pendingPods groupNodes taintKey pendingMinAge pendingMaxAge now ↔
      ∀ pod ∈ pendingPods,
        couldLandOn groupNodes taintKey pendingMinAge pendingMaxAge now pod = true →
          CouldHost groupNodes taintKey pod := by
  rw [CountsOnlyHostable, pendingPodsForGroup, List.forall₂_map_right_iff, List.forall₂_same]
  simp

/-- Only pods count that could land on one node, exactly if of no pod of the right age the
constraints match some nodes, all of them too small, while another node is large enough. -/
theorem pendingPodsForGroup_countsOnlyHostable_iff (pendingPods : List Pod)
    (groupNodes : List NodeState) (taintKey : String) (pendingMinAge pendingMaxAge : ℤ) (now : ℚ) :
    CountsOnlyHostable pendingPods groupNodes taintKey pendingMinAge pendingMaxAge now ↔
      ¬ ∃ pod ∈ pendingPods, WithinAge pendingMinAge pendingMaxAge now pod ∧
        (∃ n ∈ groupNodes, n.Admits taintKey pod) ∧
        (∀ n ∈ groupNodes, n.Admits taintKey pod → ¬ n.Covers pod) ∧
        ∃ n ∈ groupNodes, n.Covers pod := by
  rw [countsOnlyHostable_iff_forall]
  constructor
  · rintro hhosts ⟨pod, hpod, hage, hadmits, hsmall, hcovers⟩
    obtain ⟨n, hn, hmatch, hlarge⟩ :=
      hhosts pod hpod (couldLandOn_iff.mpr ⟨hage, hadmits, hcovers⟩)
    exact hsmall n hn hmatch hlarge
  · intro hnone pod hpod hcould
    obtain ⟨hage, hadmits, hcovers⟩ := couldLandOn_iff.mp hcould
    by_contra hhosts
    exact hnone ⟨pod, hpod, hage, hadmits,
      fun n hn hmatch hlarge => hhosts ⟨n, hn, hmatch, hlarge⟩, hcovers⟩

/-- A small node of one architecture and a large one of another. -/
def smallAndLarge : List NodeState :=
  [{ makeNode "small" 0 false [] with
      labels := fun key => if key = "kubernetes.io/arch" then some "arm64" else none },
    { makeNode "large" 0 false [] with
      labels := fun key => if key = "kubernetes.io/arch" then some "amd64" else none
      allocatableCpu := 64 }]

/-- A pod of sixteen cores for the architecture of the small node. -/
def selectivePod : Pod where
  metadata := ⟨"pod", "default", some 0, none, []⟩
  spec := some ⟨none, [], [⟨⟨some "16", none, none⟩⟩], [], [("kubernetes.io/arch", "arm64")], []⟩
  status := none

/-- The pod counts, although it is too large for the one node and of the wrong architecture for the
other. -/
theorem smallAndLarge_not_countsOnlyHostable :
    pendingPodsForGroup [selectivePod] smallAndLarge "node-compactor.osdc.io/consolidating" 30 3600
          60 =
        [podToPodinfo selectivePod] ∧
      ¬ CountsOnlyHostable [selectivePod] smallAndLarge
        "node-compactor.osdc.io/consolidating" 30 3600
        60 := by
  refine ⟨by decide +kernel, fun hcounts => ?_⟩
  have hhosts := countsOnlyHostable_iff_forall.mp hcounts selectivePod List.mem_cons_self
    (by decide +kernel)
  revert hhosts
  decide +kernel

end CiInfra.Compactor

import CiInfra.Compactor.Models
import CiInfra.Lib.FirstFit
import Mathlib.Algebra.BigOperators.Group.List.Basic
import Mathlib.Algebra.Order.BigOperators.Group.List
import Mathlib.Data.List.Sort
import Mathlib.Data.Prod.Lex
import Mathlib.Tactic.Linarith
import Mathlib.Algebra.Order.Ring.Rat

/-!
# The bin-pack fit check

`podsFitOnNodes` packs pods, largest first, into what their current load leaves of the
nodes. A positive answer is sound in the sense of `CanHost`: the pods can be shared out
among the nodes so that every node that gets pods still has room for all it then runs.
-/

namespace CiInfra.Compactor

/-- What is left of a node. -/
structure Bin where
  cpuRemaining : ℚ
  memRemaining : ℤ
  gpuRemaining : ℤ

namespace Bin

/-- The test for placing a pod; pods without GPUs are not held to the GPU balance. -/
def Accepts (b : Bin) (p : PodInfo) : Prop :=
  p.cpuRequest ≤ b.cpuRemaining ∧ p.memoryRequest ≤ b.memRemaining ∧
    (p.gpuRequest = 0 ∨ p.gpuRequest ≤ b.gpuRemaining)

instance : DecidableRel Accepts := fun _ _ => inferInstanceAs (Decidable (_ ∧ _ ∧ _))

/-- Subtract a pod's requests. -/
def place (b : Bin) (p : PodInfo) : Bin :=
  ⟨b.cpuRemaining - p.cpuRequest, b.memRemaining - p.memoryRequest,
    b.gpuRemaining - p.gpuRequest⟩

end Bin

/-- Capacity left by all pods (workload + DaemonSet) currently running. -/
def NodeState.remaining (n : NodeState) : Bin :=
  ⟨n.allocatableCpu - n.totalCpuUsed, n.allocatableMemory - n.totalMemoryUsed,
    n.allocatableGpu - n.totalGpuUsed⟩

/-- The packing order `(gpu_request, cpu_request)`, largest first. -/
def podSize (p : PodInfo) : ℤ ×ₗ ℚ := toLex (p.gpuRequest, p.cpuRequest)

/-- `sorted(pods, key=podSize, reverse=True)`, which keeps the order of equals. -/
def largestFirst (pods : List PodInfo) : List PodInfo :=
  pods.insertionSort fun p p' => podSize p' ≤ podSize p

theorem largestFirst_perm (pods : List PodInfo) : (largestFirst pods).Perm pods :=
  List.perm_insertionSort _ _

/-- Check if all pods can fit on the given nodes (considering current load). -/
def podsFitOnNodes (pods : List PodInfo) (nodes : List NodeState) : Bool :=
  if pods = [] then true
  else if nodes.isEmpty then false
  else (FirstFit.packAll Bin.Accepts Bin.place (nodes.map NodeState.remaining)
    (largestFirst pods)).isSome

/-! ### What a positive answer means -/

/-- The node can run the pods on top of everything it already runs. -/
structure NodeState.HasRoomFor (n : NodeState) (pods : List PodInfo) : Prop where
  cpu : n.totalCpuUsed + (pods.map PodInfo.cpuRequest).sum ≤ n.allocatableCpu
  memory : n.totalMemoryUsed + (pods.map PodInfo.memoryRequest).sum ≤ n.allocatableMemory
  gpu : n.totalGpuUsed + (pods.map PodInfo.gpuRequest).sum ≤ n.allocatableGpu

/-- The running pods do not request more GPUs than the node has. -/
def NodeState.GpuWithinAllocatable (n : NodeState) : Prop := n.totalGpuUsed ≤ n.allocatableGpu

instance : DecidablePred NodeState.GpuWithinAllocatable :=
  fun _ => inferInstanceAs (Decidable (_ ≤ _))

/-- The pods can be shared out among the nodes (one share for each node, every pod in
exactly one share) so that every node that gets a pod has room for its share. -/
def CanHost (pods : List PodInfo) (nodes : List NodeState) : Prop :=
  ∃ shares : List (List PodInfo),
    List.Forall₂ (fun n share => share = [] ∨ NodeState.HasRoomFor n share) nodes shares ∧
      shares.flatten.Perm pods

/-- The pods fit in what is left. Pods without GPUs add nothing to the sum of the GPUs, and fit
whatever is left of these. -/
structure Bin.HoldsAll (b : Bin) (pods : List PodInfo) : Prop where
  cpu : (pods.map PodInfo.cpuRequest).sum ≤ b.cpuRemaining
  memory : (pods.map PodInfo.memoryRequest).sum ≤ b.memRemaining
  gpu : (∃ p ∈ pods, p.gpuRequest ≠ 0) → (pods.map PodInfo.gpuRequest).sum ≤ b.gpuRemaining

theorem sum_gpuRequest_eq_zero {pods : List PodInfo} (h : ¬ ∃ p ∈ pods, p.gpuRequest ≠ 0) :
    (pods.map PodInfo.gpuRequest).sum = 0 := by
  push Not at h
  refine List.sum_eq_zero fun x hx => ?_
  obtain ⟨p, hp, rfl⟩ := List.mem_map.mp hx
  exact h p hp

/-- A bin holds the pods that it takes in turn. -/
theorem Bin.holdsAll_of_fills {b : Bin} {pods : List PodInfo} (hne : pods ≠ [])
    (h : FirstFit.Fills Bin.Accepts Bin.place b pods) : b.HoldsAll pods := by
  induction h with
  | nil => exact absurd rfl hne
  | @cons b p ps hp hps ih =>
    obtain ⟨hcpu, hmem, hgpu⟩ := hp
    by_cases hnil : ps = []
    · subst hnil
      refine ⟨by simpa using hcpu, by simpa using hmem, fun hsome => ?_⟩
      have hpos : p.gpuRequest ≠ 0 := by simpa using hsome
      simpa using hgpu.resolve_left hpos
    · obtain ⟨icpu, imem, igpu⟩ := ih hnil
      simp only [Bin.place] at icpu imem igpu
      refine ⟨?_, ?_, fun hsome => ?_⟩
      · rw [List.map_cons, List.sum_cons]
        linarith
      · rw [List.map_cons, List.sum_cons]
        omega
      · rw [List.map_cons, List.sum_cons]
        by_cases hrest : ∃ q ∈ ps, q.gpuRequest ≠ 0
        · have := igpu hrest
          omega
        · -- The last pod with GPUs is this one.
          have hzero := sum_gpuRequest_eq_zero hrest
          obtain ⟨q, hq, hpos⟩ := hsome
          rcases List.mem_cons.mp hq with rfl | hq
          · have := hgpu.resolve_left hpos
            omega
          · exact absurd ⟨q, hq, hpos⟩ hrest

theorem Bin.HoldsAll.sum_gpuRequest_le {b : Bin} {pods : List PodInfo} (h : b.HoldsAll pods)
    (hgpu : 0 ≤ b.gpuRemaining) : (pods.map PodInfo.gpuRequest).sum ≤ b.gpuRemaining := by
  by_cases hsome : ∃ p ∈ pods, p.gpuRequest ≠ 0
  · exact h.gpu hsome
  · rwa [sum_gpuRequest_eq_zero hsome]

/-- Room for a share on what the node's own load leaves, given GPUs within bounds. -/
theorem NodeState.hasRoomFor_of_holdsAll {n : NodeState} {pods : List PodInfo}
    (hgpu : n.GpuWithinAllocatable) (h : n.remaining.HoldsAll pods) : n.HasRoomFor pods := by
  have hg := h.sum_gpuRequest_le (sub_nonneg.mpr hgpu)
  obtain ⟨hcpu, hmem, -⟩ := h
  simp only [NodeState.remaining] at hcpu hmem hg
  exact ⟨by linarith, by omega, by omega⟩

/-- The pods can be shared out among what is left of the nodes: every pod is in one share, and a
share that has pods fits on its node. -/
def Assignable (pods : List PodInfo) (nodes : List NodeState) : Prop :=
  ∃ shares : List (List PodInfo),
    List.Forall₂ (fun n share => share = [] ∨ n.remaining.HoldsAll share) nodes shares ∧
      shares.flatten.Perm pods

theorem assignable_nil (nodes : List NodeState) : Assignable [] nodes := by
  refine ⟨nodes.map fun _ => [], ?_, by simp⟩
  rw [List.forall₂_map_right_iff]
  exact List.forall₂_same.mpr fun n _ => Or.inl rfl

theorem podsFitOnNodes_eq_true {pods : List PodInfo} {nodes : List NodeState} :
    podsFitOnNodes pods nodes = true ↔ pods = [] ∨ nodes ≠ [] ∧
      (FirstFit.packAll Bin.Accepts Bin.place (nodes.map NodeState.remaining)
        (largestFirst pods)).isSome := by
  unfold podsFitOnNodes
  by_cases hpods : pods = []
  · simp [hpods]
  · cases nodes with
    | nil => simp [hpods]
    | cons n nodes => simp [hpods]

/-- A positive answer comes with an assignment. -/
theorem assignable_of_podsFitOnNodes {pods : List PodInfo} {nodes : List NodeState}
    (h : podsFitOnNodes pods nodes = true) : Assignable pods nodes := by
  rcases podsFitOnNodes_eq_true.mp h with rfl | ⟨-, hsome⟩
  · exact assignable_nil nodes
  · obtain ⟨bins, hbins⟩ := Option.isSome_iff_exists.mp hsome
    obtain ⟨shares, hshares, hperm⟩ := FirstFit.shares_of_packAll hbins
    refine ⟨shares, ?_, hperm.trans (largestFirst_perm pods)⟩
    rw [List.forall₂_map_left_iff] at hshares
    refine hshares.imp fun n share hfills => ?_
    by_cases hne : share = []
    · exact Or.inl hne
    · exact Or.inr (Bin.holdsAll_of_fills hne hfills)

/-- A node whose DaemonSet requests more GPUs than there are. -/
def crowdedNode : NodeState where
  name := "node-1"
  nodepool := "pool"
  allocatableCpu := 4
  allocatableMemory := 16
  creationTime := 0
  pods := [
    { name := "daemon", «namespace» := "kube-system", cpuRequest := 1, memoryRequest := 2,
      nodeName := "node-1", isDaemonset := true, gpuRequest := 1 }]

/-- A pod without GPUs. -/
def gpulessPod : PodInfo where
  name := "pod"
  «namespace» := "default"
  cpuRequest := 3
  memoryRequest := 8
  nodeName := ""
  isDaemonset := false

theorem canHost_nil (nodes : List NodeState) : CanHost [] nodes := by
  refine ⟨nodes.map fun _ => [], ?_, by simp⟩
  rw [List.forall₂_map_right_iff]
  exact List.forall₂_same.mpr fun n _ => Or.inl rfl

/-- Hosting pods without negative CPU requests takes, for each, a node with that much CPU. -/
theorem CanHost.exists_cpu {pods : List PodInfo} {nodes : List NodeState} (h : CanHost pods nodes)
    (hpos : ∀ p ∈ pods, 0 ≤ p.cpuRequest) {p : PodInfo} (hp : p ∈ pods) :
    ∃ n ∈ nodes, n.totalCpuUsed + p.cpuRequest ≤ n.allocatableCpu := by
  obtain ⟨shares, hshares, hperm⟩ := h
  obtain ⟨share, hshare, hmem⟩ := List.mem_flatten.mp (hperm.mem_iff.mpr hp)
  obtain ⟨i, hi, rfl⟩ := List.mem_iff_getElem.mp hshare
  obtain ⟨hlen, hforall⟩ := List.forall₂_iff_get.mp hshares
  have hi' : i < nodes.length := by omega
  refine ⟨nodes[i], List.getElem_mem hi', ?_⟩
  rcases hforall i hi' hi with hnil | hroom
  · simp only [List.get_eq_getElem] at hnil
    simp [hnil] at hmem
  · have hle : p.cpuRequest ≤ (shares[i].map PodInfo.cpuRequest).sum := by
      refine List.single_le_sum ?_ _ (List.mem_map_of_mem hmem)
      intro x hx
      obtain ⟨q, hq, rfl⟩ := List.mem_map.mp hx
      exact hpos q (hperm.mem_iff.mp (List.mem_flatten.mpr ⟨_, hshare, hq⟩))
    have hcpu := hroom.cpu
    simp only [List.get_eq_getElem] at hcpu
    linarith

/-- **Soundness of the fit check.** -/
theorem canHost_of_podsFitOnNodes {pods : List PodInfo} {nodes : List NodeState}
    (hgpu : ∀ n ∈ nodes, n.GpuWithinAllocatable) (h : podsFitOnNodes pods nodes = true) :
    CanHost pods nodes := by
  obtain ⟨shares, hshares, hperm⟩ := assignable_of_podsFitOnNodes h
  refine ⟨shares, ?_, hperm⟩
  rw [List.forall₂_iff_get] at hshares ⊢
  refine ⟨hshares.1, fun i hi hi' => ?_⟩
  exact (hshares.2 i hi hi').imp_right
    (NodeState.hasRoomFor_of_holdsAll (hgpu _ (List.get_mem _ _)))

theorem CanHost.perm {pods : List PodInfo} {nodes nodes' : List NodeState}
    (h : CanHost pods nodes) (hperm : nodes'.Perm nodes) : CanHost pods nodes' := by
  obtain ⟨shares, hshares, hpods⟩ := h
  obtain ⟨shares', hshares', hperm'⟩ := List.perm_comp_forall₂ hperm hshares
  exact ⟨shares', hshares', hperm'.flatten.trans hpods⟩

theorem CanHost.sublist {pods : List PodInfo} {nodes nodes' : List NodeState}
    (h : CanHost pods nodes) (hsub : nodes.Sublist nodes') : CanHost pods nodes' := by
  obtain ⟨shares, hshares, hpods⟩ := h
  induction hsub generalizing shares pods with
  | slnil => exact ⟨shares, hshares, hpods⟩
  | cons n _ ih =>
    obtain ⟨shares', hshares', hpods'⟩ := ih shares hshares hpods
    exact ⟨[] :: shares', List.Forall₂.cons (Or.inl rfl) hshares', hpods'⟩
  | cons_cons n _ ih =>
    obtain ⟨share, rest, hn, hrest, rfl⟩ := List.forall₂_cons_left_iff.mp hshares
    obtain ⟨rest', hrest', hperm⟩ := ih rest hrest (List.Perm.refl _)
    refine ⟨share :: rest', List.Forall₂.cons hn hrest', ?_⟩
    rw [List.flatten_cons] at hpods ⊢
    exact (hperm.append_left share).trans hpods

/-- More nodes, in any order, host what fewer nodes host. -/
theorem CanHost.subperm {pods : List PodInfo} {nodes nodes' : List NodeState}
    (h : CanHost pods nodes) (hsub : nodes.Subperm nodes') : CanHost pods nodes' := by
  obtain ⟨l, hperm, hl⟩ := hsub
  exact (h.perm hperm).sublist hl

end CiInfra.Compactor

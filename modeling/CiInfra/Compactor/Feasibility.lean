import CiInfra.Compactor.Packing

/-!
# When packings are feasible

Two packings of the compactor take a pod into account without asking whether it can run where they
put it. The count of the nodes needed opens a fresh bin for a pod without a test, and the burst
check stops on nodes that have the resources for the pods, but may not be allowed to run them.
Where these packings put pods only where they can run, their answers are feasible.
-/

namespace CiInfra.Compactor

open Kube

/-! ### The minimum number of nodes -/

/-- The bin has what the pod requests, of every resource. -/
def Bin.Holds (b : Bin) (p : PodInfo) : Prop :=
  p.cpuRequest ≤ b.cpuRemaining ∧ p.memoryRequest ≤ b.memRemaining ∧
    p.gpuRequest ≤ b.gpuRemaining

instance : DecidableRel Bin.Holds := fun _ _ => inferInstanceAs (Decidable (_ ∧ _ ∧ _))

/-- The bin has what the pods request together, of every resource. -/
structure Bin.Carries (b : Bin) (pods : List PodInfo) : Prop where
  cpu : (pods.map PodInfo.cpuRequest).sum ≤ b.cpuRemaining
  memory : (pods.map PodInfo.memoryRequest).sum ≤ b.memRemaining
  gpu : (pods.map PodInfo.gpuRequest).sum ≤ b.gpuRemaining

/-- Every pod that opens a fresh bin finds in it what it requests. -/
def opensFitting (opened : List Bin) : List Bin → List PodInfo → Bool
  | _, [] => true
  | unopened, p :: ps =>
    match FirstFit.firstFit Bin.Accepts Bin.place opened p with
    | some opened' => opensFitting opened' unopened ps
    | none =>
      match unopened with
      | [] => true
      | b :: rest => b.Holds p && opensFitting (opened ++ [b.place p]) rest ps

/-- The nodes in the order in which they are opened. -/
def largestNodes (nodes : List NodeState) : List NodeState :=
  nodes.insertionSort fun n n' => n'.allocatableCpu ≤ n.allocatableCpu

/-- If this many nodes are not all nodes, the first so many in that order carry the pods, on top of
their DaemonSets. -/
def CountFeasible (pods : List PodInfo) (nodes : List NodeState) (count : ℕ) : Prop :=
  count < nodes.length → ∃ shares : List (List PodInfo),
    List.Forall₂ (fun n share => n.netCapacity.Carries share) ((largestNodes nodes).take count)
      shares ∧ shares.flatten.Perm pods

/-- A bin that has what its first pod requests carries all pods that it then takes. -/
theorem Bin.carries_cons {b : Bin} {p : PodInfo} {pods : List PodInfo} (hp : b.Holds p)
    (hpods : FirstFit.Fills Bin.Accepts Bin.place (b.place p) pods) : b.Carries (p :: pods) := by
  obtain ⟨hcpu, hmem, hgpu⟩ := hp
  by_cases hne : pods = []
  · subst hne
    constructor <;> simpa
  · have hall := Bin.holdsAll_of_fills hne hpods
    have igpu := hall.sum_gpuRequest_le (sub_nonneg.mpr hgpu)
    obtain ⟨icpu, imem, -⟩ := hall
    simp only [Bin.place] at icpu imem igpu
    constructor <;> simp only [List.map_cons, List.sum_cons]
    · linarith
    · omega
    · omega

theorem forall₂_append_singleton {α β : Type} {R : α → β → Prop} {as : List α} {a : α}
    {bs : List β} (h : List.Forall₂ R (as ++ [a]) bs) :
    ∃ bs' b, List.Forall₂ R as bs' ∧ R a b ∧ bs = bs' ++ [b] := by
  induction as generalizing bs with
  | nil =>
    obtain ⟨b, bs', hb, hnil, rfl⟩ := List.forall₂_cons_left_iff.mp h
    obtain rfl := List.forall₂_nil_left_iff.mp hnil
    exact ⟨[], b, .nil, hb, rfl⟩
  | cons a' as ih =>
    obtain ⟨b', bs', hb', hrest, rfl⟩ := List.forall₂_cons_left_iff.mp h
    obtain ⟨bs'', b, hbs, hb, rfl⟩ := ih hrest
    exact ⟨b' :: bs'', b, .cons hb' hbs, hb, rfl⟩

/-- Of the pods in turn, the open bins take some and the bins opened carry the others. -/
theorem shares_of_openBins {opened unopened : List Bin} {ps : List PodInfo}
    (hfit : opensFitting opened unopened ps = true) (hne : opened = [] → ps ≠ [])
    (hlt : openBins opened unopened ps < opened.length + unopened.length) :
    opened.length ≤ openBins opened unopened ps ∧ ∃ shares fresh,
      List.Forall₂ (FirstFit.Fills Bin.Accepts Bin.place) opened shares ∧
      List.Forall₂ Bin.Carries
        (unopened.take (openBins opened unopened ps - opened.length)) fresh ∧
      (shares.flatten ++ fresh.flatten).Perm ps := by
  induction ps generalizing opened unopened with
  | nil =>
    have hpos : 0 < opened.length := List.length_pos_iff.mpr fun h => hne h rfl
    have hcount : openBins opened unopened [] = opened.length := max_eq_left hpos
    rw [hcount]
    refine ⟨le_rfl, opened.map fun _ => [], [], ?_, by simp, by simp⟩
    rw [List.forall₂_map_right_iff]
    exact List.forall₂_same.mpr fun b _ => .nil b
  | cons p ps ih =>
    cases hput : FirstFit.firstFit Bin.Accepts Bin.place opened p with
    | some opened' =>
      simp only [opensFitting, openBins, hput] at hfit hlt ⊢
      rw [← FirstFit.length_firstFit hput] at hlt ⊢
      have hne' : opened' = [] → ps ≠ [] := by
        rintro rfl
        cases opened with
        | nil => cases hput
        | cons b bs => cases FirstFit.length_firstFit hput
      obtain ⟨hle, shares, fresh, hshares, hfresh, hperm⟩ := ih hfit hne' hlt
      obtain ⟨shares', hshares', hperm'⟩ := FirstFit.shares_of_firstFit hput hshares
      exact ⟨hle, shares', fresh, hshares', hfresh,
        (hperm'.append_right _).trans (hperm.cons p)⟩
    | none =>
      cases unopened with
      | nil =>
        have hcount : openBins opened [] (p :: ps) = opened.length := by
          simp [openBins, hput]
        simp [hcount] at hlt
      | cons b rest =>
        simp only [opensFitting, openBins, hput, Bool.and_eq_true, decide_eq_true_eq] at hfit hlt ⊢
        have hlength : (opened ++ [b.place p]).length = opened.length + 1 := by simp
        have hlt' : openBins (opened ++ [b.place p]) rest ps <
            (opened ++ [b.place p]).length + rest.length := by
          rw [List.length_cons] at hlt
          omega
        obtain ⟨hle, shares', fresh, hshares', hfresh, hperm⟩ :=
          ih hfit.2 (fun h => by simp at h) hlt'
        rw [hlength] at hle hfresh
        obtain ⟨shares, share, hshares, hshare, rfl⟩ := forall₂_append_singleton hshares'
        have htake : (b :: rest).take (openBins (opened ++ [b.place p]) rest ps - opened.length) =
            b :: rest.take (openBins (opened ++ [b.place p]) rest ps - (opened.length + 1)) := by
          rw [← List.take_succ_cons]
          congr 1
          omega
        refine ⟨by omega, shares, (p :: share) :: fresh, hshares, ?_, ?_⟩
        · rw [htake]
          exact .cons (Bin.carries_cons hfit.1 hshare) hfresh
        · simp only [List.flatten_append, List.flatten_cons, List.flatten_nil, List.append_nil,
            List.append_assoc] at hperm ⊢
          exact List.perm_middle.trans (hperm.cons p)

/-- **The count is feasible** if every pod that opens a fresh node fits it. -/
theorem countFeasible_of_opensFitting {pods : List PodInfo} {nodes : List NodeState}
    (h : opensFitting [] ((largestNodes nodes).map NodeState.netCapacity) (largestFirst pods) =
      true) :
    CountFeasible pods nodes (binPackMinNodes pods nodes) := by
  intro hlt
  by_cases hpods : pods = []
  · subst hpods
    exact ⟨[], by simp [binPackMinNodes], List.Perm.refl _⟩
  have hnodes : nodes ≠ [] := by
    rintro rfl
    cases hlt
  have hcount : binPackMinNodes pods nodes =
      openBins [] ((largestNodes nodes).map NodeState.netCapacity) (largestFirst pods) := by
    simp [binPackMinNodes, largestNodes, hpods, hnodes]
  have hne : largestFirst pods ≠ [] := fun hnil =>
    hpods (List.Perm.nil_eq (hnil ▸ largestFirst_perm pods)).symm
  have hlength : ((largestNodes nodes).map NodeState.netCapacity).length = nodes.length := by
    rw [List.length_map]
    exact List.length_insertionSort _ _
  obtain ⟨-, shares, fresh, hshares, hfresh, hperm⟩ := shares_of_openBins h (fun _ => hne)
    (by rw [hlength, ← hcount]; simpa using hlt)
  obtain rfl := List.forall₂_nil_left_iff.mp hshares
  refine ⟨fresh, ?_, (List.nil_append _ ▸ hperm).trans (largestFirst_perm pods)⟩
  rw [hcount]
  rwa [List.length_nil, Nat.sub_zero, ← List.map_take, List.forall₂_map_left_iff] at hfresh

/-- A pod with these requests. -/
def requestingPod (cpu : ℚ) (gpu : ℤ) : PodInfo where
  name := "pod"
  «namespace» := "default"
  cpuRequest := cpu
  memoryRequest := 0
  nodeName := ""
  isDaemonset := false
  gpuRequest := gpu

/-- Two pods of nine and eight cores need two of three nodes of ten cores, and these carry them. -/
theorem countFeasible_uniform :
    let pods := [requestingPod 9 0, requestingPod 8 0]
    let nodes := [makeNode "n1" 0 false [], makeNode "n2" 0 false [], makeNode "n3" 0 false []]
    binPackMinNodes pods nodes = 2 ∧ CountFeasible pods nodes (binPackMinNodes pods nodes) :=
  ⟨by decide +kernel, countFeasible_of_opensFitting (by decide +kernel)⟩

/-- A large node without GPUs and a small one with GPUs. -/
def mixedNodes : List NodeState :=
  [{ makeNode "n1" 0 false [] with allocatableCpu := 192 },
    { makeNode "n2" 0 false [] with allocatableCpu := 16, allocatableGpu := 8 }]

/-- A pod with a GPU fits the small node, but it is counted on the large one, and one node is
reported as enough. -/
theorem not_countFeasible_mixedNodes :
    (∃ n ∈ mixedNodes, n.netCapacity.Holds (requestingPod 4 1)) ∧
      binPackMinNodes [requestingPod 4 1] mixedNodes < mixedNodes.length ∧
      ¬ CountFeasible [requestingPod 4 1] mixedNodes
        (binPackMinNodes [requestingPod 4 1] mixedNodes) := by
  have hcount : binPackMinNodes [requestingPod 4 1] mixedNodes = 1 := by decide +kernel
  refine ⟨by decide +kernel, by decide +kernel, fun h => ?_⟩
  obtain ⟨shares, hshares, hperm⟩ := h (by decide +kernel)
  rw [hcount] at hshares
  have htake : (largestNodes mixedNodes).take 1 = mixedNodes.take 1 := rfl
  rw [htake] at hshares
  obtain ⟨share, rest, hcarries, hrest, rfl⟩ := List.forall₂_cons_left_iff.mp hshares
  obtain rfl := List.forall₂_nil_left_iff.mp hrest
  rw [List.flatten_cons, List.flatten_nil, List.append_nil, List.perm_singleton] at hperm
  have hgpu := hcarries.gpu
  rw [hperm] at hgpu
  exact absurd hgpu (by decide)

/-! ### Burst absorption -/

/-- The pending pods that match a tainted node. -/
def compatiblePending (cfg : Config) (nodeStates : NodeMap) (pendingPods : List Pod) : List Pod :=
  pendingPods.filter fun pod => (nodeStates.values.filter NodeState.isTainted).any fun n =>
    podMatchesNode pod (nodeViewWithoutTaint n cfg.taintKey)

/-- The tainted nodes that such a pod matches, the most utilized first. -/
def compatibleTainted (cfg : Config) (nodeStates : NodeMap) (pendingPods : List Pod) :
    List NodeState :=
  ((nodeStates.values.filter NodeState.isTainted).filter fun n =>
    (compatiblePending cfg nodeStates pendingPods).any fun pod =>
      podMatchesNode pod (nodeViewWithoutTaint n cfg.taintKey)).insertionSort
        fun n n' => n'.utilization ≤ n.utilization

/-- The pods can be shared out among the nodes so that every node may run its pods, but for this
taint, and has what they request on top of everything it already runs. -/
def CanRun (taintKey : String) (pods : List Pod) (nodes : List NodeState) : Prop :=
  ∃ shares : List (List Pod), List.Forall₂ (fun n share =>
      (∀ pod ∈ share, podConstraintsMatch pod (nodeViewWithoutTaint n taintKey) = true) ∧
      (share = [] ∨ n.remaining.Carries (share.map podToPodinfo))) nodes shares ∧
    shares.flatten.Perm pods

theorem exists_of_forall₂_of_mem {α β : Type} {R : α → β → Prop} {as : List α} {bs : List β}
    (h : List.Forall₂ R as bs) {b : β} (hb : b ∈ bs) : ∃ a ∈ as, R a b := by
  induction h with
  | nil => cases hb
  | cons hr _ ih =>
    rcases List.mem_cons.mp hb with rfl | hb
    · exact ⟨_, List.mem_cons_self, hr⟩
    · obtain ⟨a, ha, hr⟩ := ih hb
      exact ⟨a, List.mem_cons_of_mem _ ha, hr⟩

/-- The nodes untainted are all that pending pods match, or nodes of these that can run all pods
that match any. -/
def Absorbs (cfg : Config) (nodeStates : NodeMap) (pendingPods : List Pod)
    (untainted : Finset String) : Prop :=
  untainted = ((compatibleTainted cfg nodeStates pendingPods).map NodeState.name).toFinset ∨
    ∃ nodes : List NodeState, nodes.Sublist (compatibleTainted cfg nodeStates pendingPods) ∧
      untainted = (nodes.map NodeState.name).toFinset ∧
      CanRun cfg.taintKey (compatiblePending cfg nodeStates pendingPods) nodes

/-- A node with what is left of it takes a pod that it may run and has the resources for. -/
def Takes (taintKey : String) (b : NodeState × Bin) (pod : Pod) : Prop :=
  podConstraintsMatch pod (nodeViewWithoutTaint b.1 taintKey) = true ∧ b.2.Holds (podToPodinfo pod)

instance (taintKey : String) : DecidableRel (Takes taintKey) :=
  fun _ _ => inferInstanceAs (Decidable (_ ∧ _))

/-- The packing of the burst check also places all pods on these nodes when it goes by what a node
may run. -/
def packsWithConstraints (taintKey : String) (pods : List Pod) (nodes : List NodeState) : Bool :=
  (FirstFit.packAll (Takes taintKey) (fun b pod => (b.1, b.2.place (podToPodinfo pod)))
    (nodes.map fun n => (n, n.remaining))
    (pods.insertionSort fun p p' => podSize (podToPodinfo p') ≤ podSize (podToPodinfo p))).isSome

/-- Where the burst check stops before the last node, the pods can also be packed with their
constraints. -/
def StopsWhereRunnable (cfg : Config) (nodeStates : NodeMap) (pendingPods : List Pod) : Prop :=
  let pods := compatiblePending cfg nodeStates pendingPods
  let nodes := compatibleTainted cfg nodeStates pendingPods
  ∀ k < nodes.length, 0 < k → podsFitOnNodes (pods.map podToPodinfo) (nodes.take k) = true →
    (∀ j < k, 0 < j → podsFitOnNodes (pods.map podToPodinfo) (nodes.take j) = false) →
      packsWithConstraints cfg.taintKey pods (nodes.take k) = true

instance (cfg : Config) (nodeStates : NodeMap) (pendingPods : List Pod) :
    Decidable (StopsWhereRunnable cfg nodeStates pendingPods) :=
  inferInstanceAs (Decidable (∀ k < _, _))

/-- The burst check takes all nodes, or stops at the first so many on which the pods fit. -/
theorem untaintUntilFit_eq (pods : List PodInfo) (taken nodes : List NodeState) :
    untaintUntilFit pods taken nodes = taken ++ nodes ∨
      ∃ k < nodes.length, 0 < k ∧ untaintUntilFit pods taken nodes = taken ++ nodes.take k ∧
        podsFitOnNodes pods (taken ++ nodes.take k) = true ∧
        ∀ j < k, 0 < j → podsFitOnNodes pods (taken ++ nodes.take j) = false := by
  induction nodes generalizing taken with
  | nil => simp [untaintUntilFit]
  | cons n rest ih =>
    rw [untaintUntilFit]
    split
    · rename_i hfit
      cases rest with
      | nil => exact Or.inl rfl
      | cons n' rest =>
        refine Or.inr ⟨1, by simp, one_pos, rfl, hfit, fun j hj hpos => ?_⟩
        omega
    · rename_i hfit
      rcases ih (taken ++ [n]) with hall | ⟨k, hk, hpos, heq, hstop, hbefore⟩
      · rw [hall, List.append_assoc]
        exact Or.inl rfl
      · refine Or.inr ⟨k + 1, by simpa using hk, k.succ_pos, ?_, ?_, fun j hj _ => ?_⟩
        · simpa using heq
        · simpa using hstop
        · cases j with
          | zero => omega
          | succ j =>
            by_cases hj0 : j = 0
            · subst hj0
              simpa using hfit
            · simpa using hbefore j (by omega) (by omega)

/-- What takes pods in turn may run them, and has what they request together. -/
theorem carries_of_fills {taintKey : String} {b : NodeState × Bin} {pods : List Pod}
    (h : FirstFit.Fills (Takes taintKey) (fun b pod => (b.1, b.2.place (podToPodinfo pod))) b
      pods) :
    (∀ pod ∈ pods, podConstraintsMatch pod (nodeViewWithoutTaint b.1 taintKey) = true) ∧
      (pods = [] ∨ b.2.Carries (pods.map podToPodinfo)) := by
  induction h with
  | nil => simp
  | @cons b pod pods hpod hpods ih =>
    obtain ⟨hconstraints, hholds⟩ := hpod
    refine ⟨List.forall_mem_cons.mpr ⟨hconstraints, ih.1⟩, Or.inr ?_⟩
    rcases ih.2 with rfl | hcarries
    · obtain ⟨hcpu, hmem, hgpu⟩ := hholds
      constructor <;> simpa
    · obtain ⟨hcpu, hmem, hgpu⟩ := hcarries
      simp only [Bin.place] at hcpu hmem hgpu
      constructor <;> simp only [List.map_cons, List.sum_cons]
      · linarith
      · omega
      · omega

/-- A packing with constraints is a way to run the pods. -/
theorem canRun_of_packsWithConstraints {taintKey : String} {pods : List Pod}
    {nodes : List NodeState} (h : packsWithConstraints taintKey pods nodes = true) :
    CanRun taintKey pods nodes := by
  obtain ⟨bins, hbins⟩ := Option.isSome_iff_exists.mp h
  obtain ⟨shares, hshares, hperm⟩ := FirstFit.shares_of_packAll hbins
  rw [List.forall₂_map_left_iff] at hshares
  exact ⟨shares, hshares.imp fun _ _ h => carries_of_fills h,
    hperm.trans (List.perm_insertionSort _ _)⟩

/-- **Burst absorption** untaints all nodes that pending pods match, or enough of them to run all
these pods, if the pods can be packed with their constraints where it stops. -/
theorem absorbs_of_stopsWhereRunnable {cfg : Config} {nodeStates : NodeMap}
    {pendingPods : List Pod} (h : StopsWhereRunnable cfg nodeStates pendingPods) :
    Absorbs cfg nodeStates pendingPods (checkPendingPods cfg nodeStates pendingPods).1 := by
  have heq : (checkPendingPods cfg nodeStates pendingPods).1 =
      ((untaintUntilFit ((compatiblePending cfg nodeStates pendingPods).map podToPodinfo) []
        (compatibleTainted cfg nodeStates pendingPods)).map NodeState.name).toFinset := by
    unfold checkPendingPods
    dsimp only
    split
    · rename_i hnone
      have hpending : compatiblePending cfg nodeStates pendingPods = [] := hnone
      have htainted : compatibleTainted cfg nodeStates pendingPods = [] := by
        simp [compatibleTainted, hpending]
      rw [htainted]
      rfl
    · rfl
  rcases untaintUntilFit_eq ((compatiblePending cfg nodeStates pendingPods).map podToPodinfo) []
    (compatibleTainted cfg nodeStates pendingPods) with hall | ⟨k, hk, hpos, htake, hstop, hbefore⟩
  · exact Or.inl (by rw [heq, hall, List.nil_append])
  · refine Or.inr ⟨_, List.take_sublist k _, by rw [heq, htake, List.nil_append], ?_⟩
    exact canRun_of_packsWithConstraints (h k hk hpos hstop hbefore)

/-- A pending pod of one core that is to run in a zone. -/
def zonePod (zone : String) : Pod where
  metadata := ⟨"pod", "default", some 0, none, []⟩
  spec := some ⟨none, [], [⟨⟨some "1", none, none⟩⟩], [], [("zone", zone)], []⟩
  status := none

/-- A tainted idle node in a zone. -/
def zoneNode (zone : String) : NodeState :=
  { makeNode zone 0 true [] with labels := fun k => if k = "zone" then some zone else none }

/-- A tainted node in each of two zones. -/
def zoneNodes : NodeMap where
  values := [zoneNode "a", zoneNode "b"]
  nodup := by decide

/-- For two pods of one zone its node is untainted, and it can run both. -/
theorem absorbs_zoneNodes :
    (checkPendingPods bareConfig zoneNodes [zonePod "a", zonePod "a"]).1 = {"a"} ∧
      Absorbs bareConfig zoneNodes [zonePod "a", zonePod "a"]
        (checkPendingPods bareConfig zoneNodes [zonePod "a", zonePod "a"]).1 :=
  ⟨by decide +kernel, absorbs_of_stopsWhereRunnable (by decide +kernel)⟩

/-- For a pod of each zone only one node is untainted, which has room for both, and the other pod
may not run there. -/
theorem not_absorbs_zoneNodes :
    (checkPendingPods bareConfig zoneNodes [zonePod "a", zonePod "b"]).1 = {"a"} ∧
      ¬ Absorbs bareConfig zoneNodes [zonePod "a", zonePod "b"]
        (checkPendingPods bareConfig zoneNodes [zonePod "a", zonePod "b"]).1 := by
  have hone : (checkPendingPods bareConfig zoneNodes [zonePod "a", zonePod "b"]).1 = {"a"} := by
    decide +kernel
  refine ⟨hone, fun h => ?_⟩
  rw [hone] at h
  rcases h with hall | ⟨nodes, hsub, hnames, shares, hshares, hperm⟩
  · exact absurd hall (by decide +kernel)
  · have hpending : zonePod "b" ∈ compatiblePending bareConfig zoneNodes
        [zonePod "a", zonePod "b"] := List.mem_filter.mpr ⟨by simp, by decide +kernel⟩
    obtain ⟨share, hshare, hpod⟩ := List.mem_flatten.mp (hperm.mem_iff.mpr hpending)
    obtain ⟨n, hn, hconstraints, -⟩ := exists_of_forall₂_of_mem hshares hshare
    -- all nodes untainted are in the first zone
    have hname : n.name ∈ (nodes.map NodeState.name).toFinset :=
      List.mem_toFinset.mpr (List.mem_map_of_mem hn)
    rw [← hnames, Finset.mem_singleton] at hname
    have hmem := (List.perm_insertionSort _ _).mem_iff.mp (hsub.mem hn)
    have hzone : n ∈ [zoneNode "a", zoneNode "b"] :=
      (List.mem_filter.mp (List.mem_filter.mp hmem).1).1
    rw [List.mem_pair] at hzone
    rcases hzone with rfl | rfl
    · exact absurd (hconstraints _ hpod) (by decide +kernel)
    · exact absurd hname (by decide)

end CiInfra.Compactor

import CiInfra.GpuDev.CapacityReadings
import Mathlib.Algebra.Order.BigOperators.Group.List

/-!
# Advertised, admitted and placed

The processor promises that its gate is consistent with what is advertised. The three readings of
the nodes agree if every node of the type that is up is counted by all three of them or by none,
and says in numbers what it has and what is used of it.
-/

namespace CiInfra.GpuDev

open Interaction Fallible

/-- What the updater publishes, what the gate admits and what placement selects are derived from
the same nodes and the same room on each. A size that one node gives is admitted, as is every size
up to what is published as reservable, where for several nodes only the total is asked for. -/
structure CapacityAgrees (workspace : Workspace) (c : Cluster) (gpuType : String) : Prop where
  advertised_nodes : AvailabilityUpdater.eligibleNodes workspace c gpuType =
    ReservationProcessor.eligibleNodes c gpuType
  placement_nodes : ReservationProcessor.placementNodes c gpuType =
    ReservationProcessor.eligibleNodes c gpuType
  counts : ∀ n ∈ ReservationProcessor.eligibleNodes c gpuType,
    AvailabilityUpdater.getAvailableGpusOnNode workspace c gpuType n =
      ReservationProcessor.getAvailableGpusOnNode c gpuType n
  admitted : ∀ size ≤ AvailabilityUpdater.singleNodeMax workspace c gpuType,
    ReservationProcessor.Admits c gpuType size
  reservable : ∀ size ≤ AvailabilityUpdater.maxReservable workspace c gpuType,
    if AvailabilityUpdater.multinodeGpuTypes.contains gpuType then
      size ≤ ReservationProcessor.checkSchedulableGpusForType c gpuType
    else ReservationProcessor.Admits c gpuType size
  placed : ∀ (cfg : Settings) (size : ℕ) (az node : String),
    ReservationProcessor.Admits c gpuType size →
    ReservationProcessor.getTargetAzForReservation c gpuType cfg size = (some az, some node) →
    ∃ n ∈ ReservationProcessor.eligibleNodes c gpuType, n.name = node

/-- The node is of the type, and it is up: a condition `Ready` is `True`, and it is not
cordoned. -/
def ListedNode.IsUp (n : ListedNode) (gpuType : String) : Prop :=
  n.labels "GpuType" = some (nodeGpuType gpuType) ∧ ("Ready", "True") ∈ n.conditions ∧
    n.unschedulable = false

/-- The first condition `Ready` is `True`. -/
def ListedNode.FirstReady (n : ListedNode) : Prop :=
  (n.conditions.find? fun condition => condition.1 == "Ready").any (·.2 == "True") = true

/-- A taint keeps pods off the node. -/
def ListedNode.IsTainted (n : ListedNode) : Prop :=
  ∃ taint ∈ n.taints, taint.2 = "NoSchedule" ∧ taint.1 ≠ "nvidia.com/gpu"

/-- The node has what it should in order to be counted. -/
def ListedNode.IsSound (n : ListedNode) : Prop :=
  n.FirstReady ∧ ¬ n.IsTainted ∧ (ReservationProcessor.zone n).isSome = true

/-- The node has nothing that could make it be counted. -/
def ListedNode.IsUnfit (n : ListedNode) : Prop :=
  ¬ n.FirstReady ∧ n.IsTainted ∧ ReservationProcessor.zone n = none

/-- What the node has and what is used of it is said in numbers, or there is no room by those
that are. -/
def Cluster.CountsInNumbers (c : Cluster) (resource : String) (n : ListedNode) : Prop :=
  ((∃ total, quantity resource n.allocatable = some total ∧ total ≠ 0) ∧
    ∀ r ∈ c.countedRequests n.name, (quantity resource r).isSome = true) ∨
  n.parsedTotal resource ≤ c.parsedUsed resource n.name

/-- All three count the node, with the same room, or none of them does. -/
def Cluster.ReadsAlike (c : Cluster) (gpuType : String) (n : ListedNode) : Prop :=
  (n.IsSound ∧ c.CountsInNumbers (gpuResourceName gpuType) n) ∨ n.IsUnfit

/-- By the numbers the node has room. -/
def Cluster.HasRoom (c : Cluster) (resource : String) (n : ListedNode) : Prop :=
  c.parsedUsed resource n.name < n.parsedTotal resource

/-- The node is up and has what it should. -/
def ListedNode.IsCounted (n : ListedNode) (gpuType : String) : Prop := n.IsUp gpuType ∧ n.IsSound

/-- Of the nodes that are counted no two have room. -/
def Cluster.RoomOnOneNode (c : Cluster) (gpuType : String) : Prop :=
  c.nodes.Pairwise fun m n => m.IsCounted gpuType → n.IsCounted gpuType →
    ¬ c.HasRoom (gpuResourceName gpuType) m ∨ ¬ c.HasRoom (gpuResourceName gpuType) n

/-- Every node that is up is read alike; and if one that is counted does not say in a number what
it has of a MIG slice, then all room there is is on one node. -/
def Cluster.IsReadAlike (workspace : Workspace) (c : Cluster) (gpuType : String) : Prop :=
  (∀ n ∈ c.nodes, n.IsUp gpuType → c.ReadsAlike gpuType n) ∧
  (AvailabilityUpdater.isMigSku workspace gpuType = true →
    (∃ n ∈ c.nodes, n.IsCounted gpuType ∧
      quantity (gpuResourceName gpuType) n.allocatable = none) →
    c.RoomOnOneNode gpuType)

/-! ### The tables of types -/

/-- The updater and the processor ask for the same resource of a published type. -/
theorem getGpuResourceName_eq {workspace : Workspace} {gpuType : String}
    (h : gpuType ∈ publishedGpuTypes workspace) :
    AvailabilityUpdater.getGpuResourceName workspace gpuType = gpuResourceName gpuType := by
  revert gpuType
  cases workspace <;> decide +kernel

/-- They look for the same label. -/
theorem getNodeLabelValue_eq {workspace : Workspace} {gpuType : String}
    (h : gpuType ∈ publishedGpuTypes workspace) :
    AvailabilityUpdater.getNodeLabelValue workspace gpuType = nodeGpuType gpuType := by
  revert gpuType
  cases workspace <;> decide +kernel

/-- The MIG types are not reserved over several nodes. -/
theorem not_isMigSku_of_multinode (workspace : Workspace) :
    ∀ gpuType ∈ AvailabilityUpdater.multinodeGpuTypes,
      AvailabilityUpdater.isMigSku workspace gpuType = false := by
  cases workspace <;> decide +kernel

/-! ### One node -/

theorem all_taints_iff (n : ListedNode) :
    (n.taints.all fun taint => !(taint.2 == "NoSchedule" && taint.1 != "nvidia.com/gpu")) = true ↔
      ¬ n.IsTainted := by
  rw [List.all_eq_true]
  constructor
  · rintro h ⟨taint, htaint, heffect, hkey⟩
    simpa [heffect, hkey] using h taint htaint
  · intro h taint htaint
    by_contra hkeeps
    exact h ⟨taint, htaint, by simpa using hkeeps⟩

/-- Requests that are all numbers are added up. -/
theorem mapM_quantity (resource : String) (requests : List (List (String × String))) :
    ((∀ r ∈ requests, (quantity resource r).isSome = true) ∧
      ∃ values, requests.mapM (quantity resource) = some values ∧
        (requests.map fun r => (quantity resource r).getD 0).sum = values.sum) ∨
    ((¬ ∀ r ∈ requests, (quantity resource r).isSome = true) ∧
      requests.mapM (quantity resource) = none) := by
  induction requests with
  | nil => exact Or.inl ⟨by simp, [], rfl, rfl⟩
  | cons r requests ih =>
    cases hr : quantity resource r with
    | none =>
      refine Or.inr ⟨fun h => ?_, by rw [List.mapM_cons, hr]; rfl⟩
      simpa [hr] using h r List.mem_cons_self
    | some value =>
      rcases ih with ⟨hall, values, hvalues, hsum⟩ | ⟨hnot, hnone⟩
      · refine Or.inl ⟨List.forall_mem_cons.mpr ⟨by rw [hr]; rfl, hall⟩, value :: values, ?_, ?_⟩
        · rw [List.mapM_cons, hr, hvalues]
          rfl
        · rw [List.map_cons, List.sum_cons, hsum, hr, List.sum_cons]
          rfl
      · refine Or.inr ⟨fun h => hnot fun r hr => h r (List.mem_cons_of_mem _ hr), ?_⟩
        rw [List.mapM_cons, hr, hnone]
        rfl

/-- The updater and the processor find the same room on a node exactly if it is said in numbers
or there is none. -/
theorem counts_eq_iff (c : Cluster) (gpuType : String) (n : ListedNode) :
    (n.parsedTotal (gpuResourceName gpuType) -
          c.parsedUsed (gpuResourceName gpuType) n.name).toNat =
        ReservationProcessor.getAvailableGpusOnNode c gpuType n ↔
      c.CountsInNumbers (gpuResourceName gpuType) n := by
  unfold ReservationProcessor.getAvailableGpusOnNode Cluster.CountsInNumbers
  cases htotal : quantity (gpuResourceName gpuType) n.allocatable with
  | none => simp [Int.toNat_eq_zero]
  | some total =>
    have hparsed : n.parsedTotal (gpuResourceName gpuType) = total := by
      rw [ListedNode.parsedTotal, htotal]
      rfl
    by_cases hzero : total = 0
    · simp [hzero, Int.toNat_eq_zero]
    · rcases mapM_quantity (gpuResourceName gpuType) (c.countedRequests n.name) with
        ⟨hall, values, hvalues, hsum⟩ | ⟨hnot, hnone⟩
      · have hused : c.parsedUsed (gpuResourceName gpuType) n.name = values.sum := hsum
        rw [hparsed, hused]
        simp only [hzero, if_false, hvalues, true_iff]
        exact Or.inl ⟨⟨total, rfl, hzero⟩, hall⟩
      · simp only [hzero, if_false, hnone, Int.toNat_eq_zero, sub_nonpos]
        exact ⟨Or.inr, fun h => h.resolve_left fun h => hnot h.2⟩

/-- The updater counts a node of the type that is up exactly if its first condition `Ready` is
`True`. -/
theorem advertised_iff (n : ListedNode) (gpuType : String) :
    (n.labels "GpuType" == some (nodeGpuType gpuType) &&
        AvailabilityUpdater.isNodeReadyAndSchedulable n) = true ↔
      n.IsUp gpuType ∧ n.FirstReady := by
  unfold AvailabilityUpdater.isNodeReadyAndSchedulable ListedNode.IsUp ListedNode.FirstReady
  simp only [Bool.and_eq_true, beq_iff_eq, Bool.not_eq_true']
  refine ⟨fun ⟨hlabel, hready, hcordon⟩ => ⟨⟨hlabel, ?_, hcordon⟩, hready⟩,
    fun ⟨⟨hlabel, _, hcordon⟩, hready⟩ => ⟨hlabel, hready, hcordon⟩⟩
  cases hfind : n.conditions.find? fun condition => condition.1 == "Ready" with
  | none =>
    rw [hfind] at hready
    cases hready
  | some condition =>
    rw [hfind] at hready
    have htype : condition.1 = "Ready" := by simpa using List.find?_some hfind
    have hstatus : condition.2 = "True" := by simpa using hready
    rw [← htype, ← hstatus]
    exact List.mem_of_find?_eq_some hfind

theorem gate_iff (n : ListedNode) (gpuType : String) :
    (n.labels "GpuType" == some (nodeGpuType gpuType) &&
        ReservationProcessor.isNodeReadyAndSchedulable n) = true ↔
      n.IsUp gpuType ∧ ¬ n.IsTainted := by
  unfold ReservationProcessor.isNodeReadyAndSchedulable ListedNode.IsUp
  rw [Bool.and_eq_true, Bool.and_eq_true, all_taints_iff]
  simp only [Bool.and_eq_true, beq_iff_eq, Bool.not_eq_true', List.contains_iff_mem]
  tauto

theorem placement_iff (n : ListedNode) (gpuType : String) :
    (n.labels "GpuType" == some (nodeGpuType gpuType) &&
        ReservationProcessor.isPlaceable n) = true ↔
      n.IsUp gpuType ∧ (ReservationProcessor.zone n).isSome = true := by
  unfold ReservationProcessor.isPlaceable ListedNode.IsUp
  simp only [Bool.and_eq_true, beq_iff_eq, Bool.not_eq_true', List.contains_iff_mem]
  tauto

/-! ### The nodes of a type -/

/-- Two filters select the same entries exactly if they agree on every one. -/
theorem filter_eq_filter_iff {α : Type} {p q : α → Bool} {l : List α} :
    l.filter p = l.filter q ↔ ∀ x ∈ l, (p x = true ↔ q x = true) := by
  refine ⟨fun h x hx => ?_, fun h => List.filter_congr fun x hx => Bool.eq_iff_iff.mpr (h x hx)⟩
  have hmem : x ∈ l.filter p ↔ x ∈ l.filter q := by rw [h]
  simpa [List.mem_filter, hx] using hmem

variable {workspace : Workspace} {c : Cluster} {gpuType : String}

theorem mem_gate {n : ListedNode} :
    n ∈ ReservationProcessor.eligibleNodes c gpuType ↔
      n ∈ c.nodes ∧ n.IsUp gpuType ∧ ¬ n.IsTainted := by
  rw [ReservationProcessor.eligibleNodes, List.mem_filter, gate_iff]

/-- The nodes and the room on them are the same exactly if every node that is up is read alike. -/
theorem sameNodes_iff (ht : gpuType ∈ publishedGpuTypes workspace) :
    (AvailabilityUpdater.eligibleNodes workspace c gpuType =
        ReservationProcessor.eligibleNodes c gpuType ∧
      ReservationProcessor.placementNodes c gpuType =
        ReservationProcessor.eligibleNodes c gpuType ∧
      ∀ n ∈ ReservationProcessor.eligibleNodes c gpuType,
        AvailabilityUpdater.getAvailableGpusOnNode workspace c gpuType n =
          ReservationProcessor.getAvailableGpusOnNode c gpuType n) ↔
      ∀ n ∈ c.nodes, n.IsUp gpuType → c.ReadsAlike gpuType n := by
  have hcount (n : ListedNode) : AvailabilityUpdater.getAvailableGpusOnNode workspace c gpuType n =
      ReservationProcessor.getAvailableGpusOnNode c gpuType n ↔
        c.CountsInNumbers (gpuResourceName gpuType) n := by
    rw [← counts_eq_iff, AvailabilityUpdater.getAvailableGpusOnNode, getGpuResourceName_eq ht]
  simp only [hcount, mem_gate]
  unfold AvailabilityUpdater.eligibleNodes ReservationProcessor.placementNodes
    ReservationProcessor.eligibleNodes
  rw [getNodeLabelValue_eq ht, filter_eq_filter_iff, filter_eq_filter_iff]
  simp only [advertised_iff, gate_iff, placement_iff]
  constructor
  · rintro ⟨hadvertised, hplacement, hcounts⟩ n hn hup
    have hfirst : n.FirstReady ↔ ¬ n.IsTainted := by simpa [hup] using hadvertised n hn
    have hzone : (ReservationProcessor.zone n).isSome = true ↔ ¬ n.IsTainted := by
      simpa only [hup, true_and] using hplacement n hn
    by_cases htainted : n.IsTainted
    · refine Or.inr ⟨fun h => hfirst.mp h htainted, htainted, ?_⟩
      rw [← Option.not_isSome_iff_eq_none]
      exact fun h => hzone.mp h htainted
    · exact Or.inl ⟨⟨hfirst.mpr htainted, htainted, hzone.mpr htainted⟩,
        hcounts n ⟨hn, hup, htainted⟩⟩
  · intro h
    refine ⟨fun n hn => and_congr_right fun hup => ?_, fun n hn => and_congr_right fun hup => ?_,
      fun n ⟨hn, hup, htainted⟩ => ?_⟩
    · rcases h n hn hup with ⟨⟨hfirst, htainted, _⟩, _⟩ | ⟨hfirst, htainted, _⟩ <;>
        simp [hfirst, htainted]
    · rcases h n hn hup with ⟨⟨_, htainted, hzone⟩, _⟩ | ⟨_, htainted, hzone⟩ <;>
        simp [hzone, htainted]
    · rcases h n hn hup with ⟨_, hnumbers⟩ | ⟨_, hunfit, _⟩
      · exact hnumbers
      · exact absurd hunfit htainted

/-! ### Totals -/

theorem foldl_max_cons (x : ℕ) (l : List ℕ) : (x :: l).foldl max 0 = max x (l.foldl max 0) := by
  rw [List.foldl_cons, Nat.max_comm 0 x, List.foldl_assoc]

/-- One node gives at most the total. -/
theorem foldl_max_le_sum (l : List ℕ) : l.foldl max 0 ≤ l.sum := by
  induction l with
  | nil => exact le_rfl
  | cons x l ih =>
    rw [foldl_max_cons, List.sum_cons]
    omega

/-- One node gives the total exactly if no two have room. -/
theorem sum_le_foldl_max_iff (l : List ℕ) :
    l.sum ≤ l.foldl max 0 ↔ l.Pairwise fun a b => a = 0 ∨ b = 0 := by
  induction l with
  | nil => simp
  | cons x l ih =>
    have hle := foldl_max_le_sum l
    rw [foldl_max_cons, List.sum_cons, List.pairwise_cons, ← ih]
    by_cases hx : x = 0
    · simp [hx]
    · have hzero : (∀ b ∈ l, x = 0 ∨ b = 0) ↔ l.sum = 0 := by
        simp [hx, List.sum_eq_zero_iff]
      rw [hzero]
      omega

/-- The whole nodes are among the nodes. -/
theorem sum_fullNodeGpuCounts_le (workspace : Workspace) (c : Cluster) (gpuType : String) :
    (AvailabilityUpdater.fullNodeGpuCounts workspace c gpuType).sum ≤
      AvailabilityUpdater.checkSchedulableGpusForType workspace c gpuType := by
  unfold AvailabilityUpdater.fullNodeGpuCounts AvailabilityUpdater.checkSchedulableGpusForType
    AvailabilityUpdater.room
  induction AvailabilityUpdater.eligibleNodes workspace c gpuType with
  | nil => exact le_rfl
  | cons n nodes ih =>
    rw [List.filterMap_cons, List.map_cons, List.sum_cons]
    dsimp only at ih ⊢
    split
    · omega
    · next count hcount =>
      obtain ⟨_, hsome⟩ := Option.ite_none_right_eq_some.mp hcount
      cases hsome
      rw [List.sum_cons]
      exact Nat.add_le_add_left ih _

/-- No more is published as reservable than is available. -/
theorem maxReservable_le (workspace : Workspace) (c : Cluster) (gpuType : String) :
    AvailabilityUpdater.maxReservable workspace c gpuType ≤
      AvailabilityUpdater.checkSchedulableGpusForType workspace c gpuType := by
  unfold AvailabilityUpdater.maxReservable
  dsimp only
  split
  · exact le_rfl
  · split
    · refine le_trans ?_ (sum_fullNodeGpuCounts_le workspace c gpuType)
      rw [← (List.mergeSort_perm (AvailabilityUpdater.fullNodeGpuCounts workspace c gpuType)
        fun a b => b ≤ a).sum_eq]
      exact (List.take_sublist 4 _).sum_le_sum fun _ _ => Nat.zero_le _
    · exact foldl_max_le_sum _

/-! ### Agreement -/

theorem mem_advertised_iff (ht : gpuType ∈ publishedGpuTypes workspace)
    (h : ∀ n ∈ c.nodes, n.IsUp gpuType → c.ReadsAlike gpuType n) {n : ListedNode}
    (hn : n ∈ c.nodes) :
    (n.labels "GpuType" == some (AvailabilityUpdater.getNodeLabelValue workspace gpuType) &&
        AvailabilityUpdater.isNodeReadyAndSchedulable n) = true ↔ n.IsCounted gpuType := by
  rw [getNodeLabelValue_eq ht, advertised_iff]
  refine and_congr_right fun hup => ⟨fun hfirst => ?_, fun hsound => hsound.1⟩
  exact ((h n hn hup).resolve_right fun hunfit => hunfit.1 hfirst).1

/-- All that is available is on one node exactly if no two of the counted nodes have room. -/
theorem sum_room_le_iff (ht : gpuType ∈ publishedGpuTypes workspace)
    (h : ∀ n ∈ c.nodes, n.IsUp gpuType → c.ReadsAlike gpuType n) :
    AvailabilityUpdater.checkSchedulableGpusForType workspace c gpuType ≤
        AvailabilityUpdater.singleNodeMax workspace c gpuType ↔
      c.RoomOnOneNode gpuType := by
  have hroom (n : ListedNode) :
      AvailabilityUpdater.getAvailableGpusOnNode workspace c gpuType n = 0 ↔
        ¬ c.HasRoom (gpuResourceName gpuType) n := by
    rw [AvailabilityUpdater.getAvailableGpusOnNode, getGpuResourceName_eq ht, Cluster.HasRoom,
      Int.toNat_eq_zero]
    omega
  unfold AvailabilityUpdater.checkSchedulableGpusForType AvailabilityUpdater.singleNodeMax
    Cluster.RoomOnOneNode
  rw [sum_le_foldl_max_iff, AvailabilityUpdater.room, AvailabilityUpdater.eligibleNodes,
    List.pairwise_map, List.pairwise_filter]
  refine List.Pairwise.iff_of_mem fun {m n} hm hn => ?_
  rw [mem_advertised_iff ht h hm, mem_advertised_iff ht h hn, hroom, hroom]

/-- Counting the instances raises exactly if a counted node does not say in a number what it
has. -/
theorem countRaises_iff (ht : gpuType ∈ publishedGpuTypes workspace)
    (h : ∀ n ∈ c.nodes, n.IsUp gpuType → c.ReadsAlike gpuType n) :
    AvailabilityUpdater.countRaises workspace c gpuType = true ↔
      AvailabilityUpdater.isMigSku workspace gpuType = true ∧
        ∃ n ∈ c.nodes, n.IsCounted gpuType ∧
          quantity (gpuResourceName gpuType) n.allocatable = none := by
  rw [AvailabilityUpdater.countRaises, Bool.and_eq_true, List.any_eq_true,
    getGpuResourceName_eq ht]
  refine and_congr_right fun _ => exists_congr fun n => ?_
  rw [AvailabilityUpdater.eligibleNodes, List.mem_filter, Option.isNone_iff_eq_none, and_assoc]
  exact and_congr_right fun hn => by rw [mem_advertised_iff ht h hn]

/-- A node that placement gives is one that it considers. -/
theorem getTargetAz_mem {cfg : Settings} {size : ℕ} {az node : String}
    (h : ReservationProcessor.getTargetAzForReservation c gpuType cfg size =
      (some az, some node)) :
    ∃ n ∈ ReservationProcessor.placementNodes c gpuType, n.name = node := by
  have hname : ∀ r ∈ ReservationProcessor.allReadyNodes c gpuType, r.nodeName = node →
      ∃ n ∈ ReservationProcessor.placementNodes c gpuType, n.name = node := by
    intro r hr hnode
    obtain ⟨n, hn, rfl⟩ := List.mem_map.mp hr
    exact ⟨n, hn, hnode⟩
  unfold ReservationProcessor.getTargetAzForReservation at h
  dsimp only at h
  split at h
  · next n hn =>
    have hmem := List.mem_mergeSort.mp (List.mem_of_mem_head? hn)
    cases h
    exact hname n (List.mem_of_mem_filter hmem) rfl
  · split at h
    · split at h
      · next n hn =>
        obtain ⟨holdings, _, hfind⟩ := Option.bind_eq_some_iff.mp hn
        have hmem := List.mem_mergeSort.mp (List.mem_of_find?_eq_some hfind)
        cases h
        exact hname n hmem rfl
      · cases (congrArg Prod.snd h : none = some node)
    · cases (congrArg Prod.snd h : none = some node)

/-- The room on the same nodes with the same counts. -/
theorem room_eq
    (hnodes : AvailabilityUpdater.eligibleNodes workspace c gpuType =
      ReservationProcessor.eligibleNodes c gpuType)
    (hcounts : ∀ n ∈ ReservationProcessor.eligibleNodes c gpuType,
      AvailabilityUpdater.getAvailableGpusOnNode workspace c gpuType n =
        ReservationProcessor.getAvailableGpusOnNode c gpuType n) :
    AvailabilityUpdater.room workspace c gpuType = ReservationProcessor.room c gpuType := by
  rw [AvailabilityUpdater.room, ReservationProcessor.room, hnodes]
  exact List.map_congr_left hcounts

/-- A type that is not reserved over several nodes is published with what one node gives, unless
the instances cannot be counted. -/
theorem maxReservable_of_single
    (hsingle : AvailabilityUpdater.multinodeGpuTypes.contains gpuType = false) :
    AvailabilityUpdater.maxReservable workspace c gpuType =
      if AvailabilityUpdater.countRaises workspace c gpuType then
        AvailabilityUpdater.checkSchedulableGpusForType workspace c gpuType
      else AvailabilityUpdater.singleNodeMax workspace c gpuType := by
  unfold AvailabilityUpdater.maxReservable
  simp only [hsingle, Bool.false_and, Bool.false_eq_true, if_false]

/-- Advertised, admitted and placed agree exactly if the cluster is read alike. -/
theorem capacityAgrees_iff (workspace : Workspace) (c : Cluster) (gpuType : String)
    (ht : gpuType ∈ publishedGpuTypes workspace) :
    CapacityAgrees workspace c gpuType ↔ c.IsReadAlike workspace gpuType := by
  constructor
  · intro h
    have halike := (sameNodes_iff ht).mp ⟨h.advertised_nodes, h.placement_nodes, h.counts⟩
    refine ⟨halike, fun hmig hnode => ?_⟩
    have hraises := (countRaises_iff ht halike).mpr ⟨hmig, hnode⟩
    have hsingle : ¬ AvailabilityUpdater.multinodeGpuTypes.contains gpuType = true := by
      intro hmulti
      have hnot := not_isMigSku_of_multinode workspace gpuType (List.contains_iff_mem.mp hmulti)
      rw [hmig] at hnot
      cases hnot
    have hall := h.reservable _ le_rfl
    rw [if_neg hsingle, maxReservable_of_single (Bool.eq_false_iff.mpr hsingle),
      if_pos hraises] at hall
    refine (sum_room_le_iff ht halike).mp (le_trans hall.2 (le_of_eq ?_))
    rw [ReservationProcessor.checkMaxGpusOnSingleNode, AvailabilityUpdater.singleNodeMax,
      room_eq h.advertised_nodes h.counts]
  · rintro ⟨halike, hmig⟩
    obtain ⟨hadvertised, hplacement, hcounts⟩ := (sameNodes_iff ht).mpr halike
    have hroom := room_eq hadvertised hcounts
    have hmax : AvailabilityUpdater.singleNodeMax workspace c gpuType =
        ReservationProcessor.checkMaxGpusOnSingleNode c gpuType := by
      rw [AvailabilityUpdater.singleNodeMax, hroom, ReservationProcessor.checkMaxGpusOnSingleNode]
    have htotal : AvailabilityUpdater.checkSchedulableGpusForType workspace c gpuType =
        ReservationProcessor.checkSchedulableGpusForType c gpuType := by
      rw [AvailabilityUpdater.checkSchedulableGpusForType, hroom,
        ReservationProcessor.checkSchedulableGpusForType]
    have hadmitted : ∀ size ≤ AvailabilityUpdater.singleNodeMax workspace c gpuType,
        ReservationProcessor.Admits c gpuType size := by
      intro size hsize
      rw [hmax] at hsize
      exact ⟨le_trans hsize (foldl_max_le_sum _), hsize⟩
    refine ⟨hadvertised, hplacement, hcounts, hadmitted, fun size hsize => ?_,
      fun cfg size az node _ htarget => hplacement ▸ getTargetAz_mem htarget⟩
    split
    · rw [← htotal]
      exact le_trans hsize (maxReservable_le workspace c gpuType)
    · next hsingle =>
      rw [maxReservable_of_single (Bool.eq_false_iff.mpr hsingle)] at hsize
      split at hsize
      · next hraises =>
        obtain ⟨hsku, hnode⟩ := (countRaises_iff ht halike).mp hraises
        exact hadmitted size
          (le_trans hsize ((sum_room_le_iff ht halike).mpr (hmig hsku hnode)))
      · exact hadmitted size hsize

/-- A node of eight GPUs that is ready, with some taints. -/
def listedNodeOfEight (taints : List (String × String)) : ListedNode where
  name := "node-1"
  labels := dictOf [("GpuType", "h100"), ("topology.kubernetes.io/zone", "us-east-2a")]
  conditions := [("Ready", "True")]
  unschedulable := false
  taints := taints
  allocatable := [("nvidia.com/gpu", "8")]

/-- With the taint of GPU nodes alone, the three agree on the node. -/
theorem capacityAgrees_gpuTaint :
    CapacityAgrees .prod ⟨[listedNodeOfEight [("nvidia.com/gpu", "NoSchedule")]], []⟩ "h100" := by
  refine (capacityAgrees_iff .prod _ "h100" (by decide +kernel)).mpr ⟨fun n hn _ => ?_, ?_⟩
  · obtain rfl := List.mem_singleton.mp hn
    refine Or.inl ⟨⟨?_, ?_, by decide +kernel⟩, Or.inl ⟨⟨8, by decide +kernel, by decide⟩, ?_⟩⟩
    · unfold ListedNode.FirstReady
      decide +kernel
    · rw [← all_taints_iff]
      decide +kernel
    · exact fun r hr => absurd hr List.not_mem_nil
  · exact fun hmig => absurd hmig (by decide +kernel)

/-- Under disk pressure a node is still ready: its GPUs are advertised, and no request for them is
admitted. -/
theorem not_capacityAgrees_diskPressure :
    AvailabilityUpdater.maxReservable .prod
        ⟨[listedNodeOfEight [("node.kubernetes.io/disk-pressure", "NoSchedule")]], []⟩ "h100" = 8 ∧
      ReservationProcessor.checkSchedulableGpusForType
        ⟨[listedNodeOfEight [("node.kubernetes.io/disk-pressure", "NoSchedule")]], []⟩ "h100" = 0 ∧
      ¬ CapacityAgrees .prod
        ⟨[listedNodeOfEight [("node.kubernetes.io/disk-pressure", "NoSchedule")]], []⟩ "h100" := by
  refine ⟨by decide +kernel, by decide +kernel, fun h => ?_⟩
  have hadmits := h.admitted 8 (by decide +kernel)
  revert hadmits
  unfold ReservationProcessor.Admits
  decide +kernel

end CiInfra.GpuDev

import CiInfra.GpuDev.Placement

/-!
# Whether a placement has room

Placement counts the GPUs of idle warm pods as free but deletes such pods only when no node
seems to fit. So a node that is chosen because it fits has the room exactly if its idle warm
pods leave it, and a node chosen after evictions never has it.
-/

namespace CiInfra.GpuDev

open Interaction Fallible

/-- The room on a node, idle warm pods not counted. -/
def availableOn (w : World) (gpuType : String) (n : Node) : ℕ :=
  n.allocatableOf (gpuResourceName gpuType) -
    requested (gpuResourceName gpuType) ((w.podsOn n.name).filter (·.2.isCounted))

/-- The eligible nodes of a type with their room. -/
def readyNodes (w : World) (gpuType : String) : List ReadyNode :=
  (w.nodes.filterMap fun n => n.eligible gpuType).map fun (n, az) =>
    ⟨n.name, az, availableOn w gpuType n⟩

/-- The pods that are deleted by some calls. -/
def deletedPods (ops : List Op) : List String :=
  ops.filterMap fun
    | .deletePod name => some name
    | _ => none

/-- The GPUs of a node that no running or pending pod requests, once some pods are gone. -/
def roomOn (w : World) (gpuType : String) (n : Node) (deleted : List String) : ℤ :=
  n.allocatableOf (gpuResourceName gpuType) -
    requested (gpuResourceName gpuType)
      ((w.podsOn n.name).filter fun p => p.2.isRunningOrPending && !deleted.contains p.1)

/-- A placement on a node is sound: the node has room for the request once the deleted pods are
gone, these are idle warm pods of the type on that node, and there are none if some eligible
node had room anyway. -/
def PlacementIsSound (w : World) (gpuType : String) (gpusRequested : ℕ) (node : String)
    (deleted : List String) : Prop :=
  (∃ n ∈ w.nodes, (n.eligible gpuType).isSome = true ∧ n.name = node ∧
    (gpusRequested : ℤ) ≤ roomOn w gpuType n deleted) ∧
  (∀ name ∈ deleted, ∃ p, w.pods.lookup name = some p ∧ p.isIdleWarm = true ∧
    p.labels "warm-gpu-type" = some gpuType ∧ p.nodeName = some node) ∧
  ((∃ n ∈ w.nodes, (n.eligible gpuType).isSome = true ∧
    (gpusRequested : ℤ) ≤ roomOn w gpuType n []) → deleted = [])

/-- Best fit finds a node, and the idle warm pods on it leave room for the request as well. -/
def BestFitHasRoom (w : World) (gpuType : String) (gpusRequested : ℕ) : Prop :=
  ∃ n ∈ w.nodes, (n.eligible gpuType).isSome = true ∧
    (bestFit gpusRequested (readyNodes w gpuType)).map (·.nodeName) = some n.name ∧
    requested (gpuResourceName gpuType) ((w.podsOn n.name).filter (·.2.isCounted)) +
        requested (gpuResourceName gpuType)
          ((w.podsOn n.name).filter fun p => p.2.isRunningOrPending && p.2.isIdleWarm) +
        gpusRequested ≤
      n.allocatableOf (gpuResourceName gpuType)

/-! ### Accounting -/

theorem requested_cons (resource : String) (p : NamedPod) (pods : List NamedPod) :
    requested resource (p :: pods) = p.2.request resource + requested resource pods := by
  simp [requested]

/-- Running and pending pods are those that count and the idle warm ones. -/
theorem requested_runningOrPending (resource : String) (pods : List NamedPod) :
    requested resource (pods.filter (·.2.isRunningOrPending)) =
      requested resource (pods.filter (·.2.isCounted)) +
        requested resource
          (pods.filter fun p => p.2.isRunningOrPending && p.2.isIdleWarm) := by
  induction pods with
  | nil => rfl
  | cons p pods ih =>
    simp only [List.filter_cons, Pod.isCounted] at ih ⊢
    cases hrunning : p.2.isRunningOrPending <;> cases hidle : p.2.isIdleWarm <;>
      simp [requested_cons] <;> omega

/-- Selecting fewer pods selects fewer requests. -/
theorem requested_filter_le (resource : String) {P Q : NamedPod → Bool} (pods : List NamedPod)
    (h : ∀ p ∈ pods, P p = true → Q p = true) :
    requested resource (pods.filter P) ≤ requested resource (pods.filter Q) := by
  induction pods with
  | nil => exact le_rfl
  | cons p pods ih =>
    have ih := ih fun q hq => h q (List.mem_cons_of_mem _ hq)
    have hp := h p List.mem_cons_self
    simp only [List.filter_cons]
    cases hP : P p
    · cases hQ : Q p <;> simp [requested_cons] <;> omega
    · simp [hp hP, requested_cons]
      omega

theorem roomOn_nil (w : World) (gpuType : String) (n : Node) :
    roomOn w gpuType n [] = n.allocatableOf (gpuResourceName gpuType) -
      (requested (gpuResourceName gpuType) ((w.podsOn n.name).filter (·.2.isCounted)) +
        requested (gpuResourceName gpuType)
          ((w.podsOn n.name).filter fun p => p.2.isRunningOrPending && p.2.isIdleWarm) : ℕ) := by
  rw [← requested_runningOrPending]
  simp [roomOn]

/-- Deleting idle warm pods leaves at most the room that placement reckons with. -/
theorem roomOn_le_available {w : World} {gpuType : String} {n : Node} {deleted : List String}
    {gpusRequested : ℕ}
    (hidle : ∀ name ∈ deleted, ∃ p, w.pods.lookup name = some p ∧ p.isIdleWarm = true)
    (hroom : (gpusRequested : ℤ) ≤ roomOn w gpuType n deleted) :
    gpusRequested ≤ availableOn w gpuType n := by
  have hle : requested (gpuResourceName gpuType) ((w.podsOn n.name).filter (·.2.isCounted)) ≤
      requested (gpuResourceName gpuType) ((w.podsOn n.name).filter fun p =>
        p.2.isRunningOrPending && !deleted.contains p.1) := by
    refine requested_filter_le _ _ fun p hp hcounted => ?_
    simp only [Pod.isCounted, Bool.and_eq_true, Bool.not_eq_true'] at hcounted ⊢
    refine ⟨hcounted.1, ?_⟩
    by_contra hdeleted
    obtain ⟨q, hq, hqidle⟩ := hidle p.1 (by simpa using hdeleted)
    have hpmem : w.pods.lookup p.1 = some p.2 :=
      World.mem_namedPods.mp (List.mem_of_mem_filter hp)
    rw [hpmem] at hq
    cases hq
    simp [hqidle] at hcounted
  unfold roomOn at hroom
  unfold availableOn
  omega

/-- Best fit finds a node if an eligible one has the room. -/
theorem bestFit_ne_none {w : World} {gpuType : String} {gpusRequested : ℕ} {n : Node}
    (hn : n ∈ w.nodes) (heligible : (n.eligible gpuType).isSome = true)
    (hroom : gpusRequested ≤ availableOn w gpuType n) :
    bestFit gpusRequested (readyNodes w gpuType) ≠ none := by
  obtain ⟨⟨m, az⟩, hm⟩ := Option.isSome_iff_exists.mp heligible
  have hfst : m = n := by
    unfold Node.eligible at hm
    split at hm
    · obtain ⟨_, _, heq⟩ := Option.map_eq_some_iff.mp hm
      cases heq
      rfl
    · cases hm
  subst hfst
  have hmem : (⟨m.name, az, availableOn w gpuType m⟩ : ReadyNode) ∈
      (readyNodes w gpuType).filter fun n => n.availableGpus ≥ gpusRequested := by
    refine List.mem_filter.mpr ⟨List.mem_map.mpr ⟨(m, az), ?_, rfl⟩, by simpa using hroom⟩
    exact List.mem_filterMap.mpr ⟨m, hn, hm⟩
  intro hnone
  rw [bestFit, List.head?_eq_none_iff] at hnone
  have hperm := List.mergeSort_perm
    ((readyNodes w gpuType).filter fun n => n.availableGpus ≥ gpusRequested) fitsTighter
  rw [hnone] at hperm
  exact absurd (hperm.mem_iff.mpr hmem) List.not_mem_nil

/-! ### The run -/

variable {script : Script} {w : World}

theorem result_getAvailableGpusOnNode (gpuType : String) (n : Node) :
    (getAvailableGpusOnNode gpuType n).result script.serve w =
      (.ok (availableOn w gpuType n), w) := by
  refine result_tryCatch ?_ _
  dsimp only
  split
  · next hzero => rw [result_pure, availableOn, hzero, Nat.zero_sub]
  · rfl

theorem issues_getAvailableGpusOnNode (gpuType : String) (n : Node) :
    (getAvailableGpusOnNode gpuType n).Issues fun op => op.IsQuiet = true := by
  refine Issues.orElseGive ?_ 0
  dsimp only
  split
  · trivial
  · refine Issues.bind (issues_request rfl) fun _ => ?_
    trivial

theorem mem_deletedPods {ops : List Op} {name : String} :
    name ∈ deletedPods ops ↔ Op.deletePod name ∈ ops := by
  simp only [deletedPods, List.mem_filterMap]
  constructor
  · rintro ⟨op, hop, hname⟩
    split at hname
    · cases hname
      exact hop
    · cases hname
  · exact fun h => ⟨_, h, rfl⟩

theorem deletedPods_append (a b : List Op) :
    deletedPods (a ++ b) = deletedPods a ++ deletedPods b := List.filterMap_append

/-- Quiet calls delete nothing. -/
theorem deletedPods_of_issues {α : Type} {p : Lambda α} (hp : p.Issues fun op => op.IsQuiet = true)
    (s : World) : deletedPods (p.callsIn script.serve s) = [] := by
  refine List.eq_nil_iff_forall_not_mem.mpr fun name hname => ?_
  cases hp.of_mem_callsIn (mem_deletedPods.mp hname)

/-- An eviction deletes its pod, which was listed as idle, or nothing. -/
theorem issues_evictWarmPod (p : NamedPod) :
    (evictWarmPod p).Issues fun op => ∀ name, op = .deletePod name →
      p.1 = name ∧ p.2.isIdleWarm = true := by
  unfold evictWarmPod whenever
  split
  · next hidle =>
    refine Issues.logged ((issues_request ?_).bind fun _ => Issues.logged (issues_request ?_))
    · rintro name ⟨⟩
      exact ⟨rfl, hidle⟩
    · rintro name ⟨⟩
  · trivial

theorem result_evictWarmPods (script : Script) (pods : List NamedPod) (s : World) :
    ∃ s', (pods.forM evictWarmPod).result script.serve s = (.ok (), s') := by
  refine result_forM (fun p s => ?_) pods s
  unfold evictWarmPod whenever
  split
  · exact ⟨_, result_logged _ _⟩
  · exact ⟨s, rfl⟩

theorem chooseEvictions_subset (resource : String) (gpusRequested room : ℕ) (pods : List NamedPod) :
    (chooseEvictions resource gpusRequested room pods).1 ⊆ pods := by
  induction pods generalizing room with
  | nil => exact List.Subset.refl _
  | cons p pods ih =>
    rw [chooseEvictions]
    split
    · exact List.nil_subset _
    · exact List.cons_subset_cons _ (ih _)

/-- Evictions, where there are any, are of idle pods on the node that is given. -/
theorem evictOnFirstNode_cases (script : Script) (resource : String) (gpusRequested : ℕ)
    (pods : List NamedPod) (nodes : List ReadyNode) (s : World) :
    (evictOnFirstNode resource gpusRequested pods nodes).result script.serve s = (.ok none, s) ∨
      ∃ n ∈ nodes, ∃ s',
        (evictOnFirstNode resource gpusRequested pods nodes).result script.serve s =
          (.ok (some n), s') ∧
        ∀ name ∈ deletedPods
            ((evictOnFirstNode resource gpusRequested pods nodes).callsIn script.serve s),
          ∃ p ∈ pods, p.1 = name ∧ p.2.isIdleWarm = true ∧ p.2.nodeName = some n.nodeName := by
  induction nodes with
  | nil => exact Or.inl rfl
  | cons n nodes ih =>
    rw [evictOnFirstNode]
    split
    · right
      obtain ⟨s', hs'⟩ := result_evictWarmPods script (chooseEvictions resource
        gpusRequested n.availableGpus (evictable resource n.nodeName pods)).1 s
      refine ⟨n, List.mem_cons_self, s', by rw [result_bind hs', result_pure], fun name hname => ?_⟩
      rw [callsIn_bind hs', callsIn_pure, List.append_nil] at hname
      have hissues := Issues.forM (P := fun op => ∀ name, op = .deletePod name →
          ∃ p ∈ evictable resource n.nodeName pods, p.1 = name ∧ p.2.isIdleWarm = true)
        fun p (hp : p ∈ (chooseEvictions resource gpusRequested n.availableGpus
            (evictable resource n.nodeName pods)).1) =>
          (issues_evictWarmPod p).mono fun op hop name hname =>
            ⟨p, chooseEvictions_subset _ _ _ _ hp, hop name hname⟩
      obtain ⟨p, hp, hpname, hidle⟩ :=
        hissues.of_mem_callsIn (mem_deletedPods.mp hname) name rfl
      simp only [evictable, List.mem_filter, Bool.and_eq_true, beq_iff_eq] at hp
      exact ⟨p, hp.1, hpname, hidle, hp.2.1.1⟩
    · rcases ih with hnone | ⟨m, hm, hrest⟩
      · exact Or.inl hnone
      · exact Or.inr ⟨m, List.mem_cons_of_mem _ hm, hrest⟩

/-- Making room either gives no node and changes nothing, or gives a node and deletes idle warm
pods of the type on it. -/
theorem evictWarmForCapacity_cases (script : Script) (w : World) (gpuType : String)
    (gpusRequested : ℕ) (nodes : List ReadyNode) :
    (evictWarmForCapacity gpuType gpusRequested nodes).result script.serve w = (.ok none, w) ∨
      ∃ n ∈ nodes, ∃ s',
        (evictWarmForCapacity gpuType gpusRequested nodes).result script.serve w =
          (.ok (some n), s') ∧
        ∀ name ∈ deletedPods
            ((evictWarmForCapacity gpuType gpusRequested nodes).callsIn script.serve w),
          ∃ p, w.pods.lookup name = some p ∧ p.isIdleWarm = true ∧
            p.labels "warm-gpu-type" = some gpuType ∧ p.nodeName = some n.nodeName := by
  have hlist : (listWarmPods (some gpuType) (some "ready")).result script.serve w =
      (.ok (w.warmPods (some gpuType) (some "ready")), w) := rfl
  rcases evictOnFirstNode_cases script (gpuResourceName gpuType) gpusRequested
    (w.warmPods (some gpuType) (some "ready")) nodes w with hnone | ⟨n, hn, s', hs', hdeleted⟩
  · exact Or.inl (result_tryCatch ((result_bind hlist _).trans hnone) _)
  · have hinner := (result_bind hlist fun pods =>
      evictOnFirstNode (gpuResourceName gpuType) gpusRequested pods nodes).trans hs'
    refine Or.inr ⟨n, hn, s', result_tryCatch hinner _, fun name hname => ?_⟩
    have hcalls : (evictWarmForCapacity gpuType gpusRequested nodes).callsIn script.serve w =
        .listWarmPods (some gpuType) (some "ready") ::
          (evictOnFirstNode (gpuResourceName gpuType) gpusRequested
            (w.warmPods (some gpuType) (some "ready")) nodes).callsIn script.serve w :=
      (callsIn_tryCatch hinner _).trans (callsIn_bind hlist _)
    rw [hcalls] at hname
    obtain ⟨p, hp, rfl, hidle, hnode⟩ := hdeleted name hname
    simp only [World.warmPods, List.mem_filter, Pod.matchesWarm, Bool.and_eq_true,
      Option.all_some, beq_iff_eq] at hp
    exact ⟨p.2, World.mem_namedPods.mp hp.1, hidle, hp.2.2, hnode⟩

/-- A node is selected because it fits best, and nothing is deleted; or none fits, and only
idle warm pods of the type on it are deleted. -/
theorem selectNode_cases (script : Script) (w : World) (cfg : Settings) (gpuType : String)
    (gpusRequested : ℕ) (nodes : List ReadyNode) :
    ∃ r w', (selectNode cfg gpuType gpusRequested nodes).result script.serve w = (.ok r, w') ∧
      ∀ node, r.2 = some node →
        ((bestFit gpusRequested nodes).map (·.nodeName) = some node ∧
          deletedPods ((selectNode cfg gpuType gpusRequested nodes).callsIn script.serve w) = []) ∨
        (bestFit gpusRequested nodes = none ∧
          ∀ name ∈ deletedPods
              ((selectNode cfg gpuType gpusRequested nodes).callsIn script.serve w),
            ∃ p, w.pods.lookup name = some p ∧ p.isIdleWarm = true ∧
              p.labels "warm-gpu-type" = some gpuType ∧ p.nodeName = some node) := by
  unfold selectNode
  split
  · next n hn =>
    refine ⟨_, w, result_pure _ _ _, ?_⟩
    rintro node ⟨⟩
    exact Or.inl ⟨by rw [hn]; rfl, rfl⟩
  · next hnone =>
    split
    · rcases evictWarmForCapacity_cases script w gpuType gpusRequested
        (byRoom nodes) with hev | ⟨n, _, s', hev, hdeleted⟩
      · refine ⟨zoneOfMostRoom nodes, w, by rw [result_bind hev]; rfl, ?_⟩
        rintro node ⟨⟩
      · refine ⟨_, s', by rw [result_bind hev]; rfl, ?_⟩
        rintro node ⟨⟩
        refine Or.inr ⟨hnone, fun name hname => hdeleted name ?_⟩
        rw [callsIn_bind hev, callsIn_pure, List.append_nil] at hname
        exact hname
    · refine ⟨zoneOfMostRoom nodes, w, rfl, ?_⟩
      rintro node ⟨⟩

/-- A node is given because it fits best, and nothing is deleted; or none fits. -/
theorem getTargetAz_cases {cfg : Settings} {gpuType : String} {gpusRequested : ℕ} {az node : String}
    {w' : World}
    (h : (getTargetAzForReservation cfg gpuType gpusRequested).result script.serve w =
      (.ok (some az, some node), w')) :
    ((bestFit gpusRequested (readyNodes w gpuType)).map (·.nodeName) = some node ∧
      deletedPods ((getTargetAzForReservation cfg gpuType gpusRequested).callsIn
        script.serve w) = []) ∨
    (bestFit gpusRequested (readyNodes w gpuType) = none ∧
      ∀ name ∈ deletedPods ((getTargetAzForReservation cfg gpuType gpusRequested).callsIn
          script.serve w),
        ∃ p, w.pods.lookup name = some p ∧ p.isIdleWarm = true ∧
          p.labels "warm-gpu-type" = some gpuType ∧ p.nodeName = some node) := by
  have hlist : listNodes.result script.serve w = (.ok w.nodes, w) := rfl
  have hready : (collect (readyNode gpuType)
      (w.nodes.filterMap fun n => n.eligible gpuType)).result script.serve w =
        (.ok (readyNodes w gpuType), w) :=
    result_collect fun n _ => result_bind (result_getAvailableGpusOnNode gpuType n.1) _
  have hquiet : deletedPods ((collect (readyNode gpuType)
      (w.nodes.filterMap fun n => n.eligible gpuType)).callsIn script.serve w) = [] := by
    refine deletedPods_of_issues (Issues.collect fun n _ => ?_) w
    exact (issues_getAvailableGpusOnNode gpuType n.1).bind fun _ => trivial
  obtain ⟨r, w'', hselect, hcases⟩ := selectNode_cases script w cfg gpuType
    gpusRequested (readyNodes w gpuType)
  have hrest := (result_bind hready
    fun nodes => selectNode cfg gpuType gpusRequested nodes).trans hselect
  have hbody := (result_bind hlist fun nodes => do
    let allReadyNodes ← collect (readyNode gpuType)
      (nodes.filterMap fun n => n.eligible gpuType)
    selectNode cfg gpuType gpusRequested allReadyNodes).trans hrest
  have hcalls : deletedPods ((getTargetAzForReservation cfg gpuType gpusRequested).callsIn
      script.serve w) = deletedPods
        ((selectNode cfg gpuType gpusRequested (readyNodes w gpuType)).callsIn script.serve w) := by
    unfold getTargetAzForReservation orElseGive
    rw [callsIn_tryCatch hbody, callsIn_bind hlist, callsIn_bind hready, deletedPods_append,
      deletedPods_append, hquiet]
    rfl
  have hresult := result_tryCatch hbody
    fun _ => pure (some cfg.primaryAvailabilityZone, none)
  rw [hcalls]
  unfold getTargetAzForReservation orElseGive at h
  rw [hresult] at h
  cases h
  exact hcases node rfl

/-- A node of eight GPUs. -/
def nodeOfEight : Node where
  name := "node-1"
  labels := dictOf [("GpuType", "h100"), ("topology.kubernetes.io/zone", "us-east-2a")]
  ready := true
  unschedulable := false
  taints := []
  allocatable := [("nvidia.com/gpu", 8)]

/-- The node, with some GPUs in use by a reservation and one held by an idle warm pod. -/
def nodeWithIdleWarmPod (used : ℕ) : World where
  table := ∅
  pods := AList.insert "gpu-dev-00000001"
    { labels := dictOf [("app", "gpu-dev-pod")], annotations := fun _ => none, phase := "Running",
      nodeName := some "node-1", containers := [[("nvidia.com/gpu", used)]],
      deletionRequested := false, peerPods := [], volume := none }
    (AList.singleton "gpu-dev-h100-1d95ba"
      { labels := dictOf [("app", "gpu-dev-warm"), ("warm-state", "ready"),
          ("warm-gpu-type", "h100")],
        annotations := fun _ => none, phase := "Running", nodeName := some "node-1",
        containers := [[("nvidia.com/gpu", 1)]], deletionRequested := false, peerPods := [],
        volume := none })
  nodes := [nodeOfEight]
  volumes := ∅

end CiInfra.GpuDev

import CiInfra.Compactor.Reconcile

/-!
# The untainted floor over a whole cycle

The decision leaves at least `min_needed` nodes of a group untainted. What the cycle does
later can only break this by holding untaints back: the taint cooldown does so for untaints
that are neither burst nor mandatory, and so does the guard of `remove_taint`.
-/

namespace CiInfra.Compactor

open Kube Interaction Interaction.Program VersionedStore

/-! ### What was observed -/

/-- The labels of the node call for the instance-type taint and it is missing. -/
def NodeState.lacksInstanceTaint (n : NodeState) : Bool :=
  CiInfra.Compactor.lacksInstanceTaint n.labels n.nodeTaints

/-- The states show the nodes of the cluster as they are. -/
def Reflects (cfg : Config) (states : NodeMap) (c : Cluster) : Prop :=
  ∀ s ∈ states.values, ∃ n, c.nodes.find? s.name = some n ∧
    s.isTainted = carriesTaint cfg.taintKey n ∧ s.lacksInstanceTaint = missesInstanceTaint n

theorem onlyCalls_discoverManagedNodes (cfg : Config) :
    (discoverManagedNodes cfg).OnlyCalls Op.Idle := by
  refine ⟨trivial, fun r => ?_⟩
  dsimp only
  split
  · trivial
  · trivial
  · split
    · trivial
    · refine ⟨trivial, fun r => ?_⟩
      cases r <;> trivial

theorem onlyCalls_buildNodeStates (cfg : Config) (managed : List (String × String)) :
    (buildNodeStates cfg managed).OnlyCalls Op.Idle := by
  rw [buildNodeStates]
  split
  · trivial
  refine ⟨trivial, fun r => ?_⟩
  cases r with
  | error failure => trivial
  | ok nodes =>
    have hread : (readNodes cfg (managed.map Prod.fst) .empty nodes).OnlyCalls Op.Idle :=
      onlyCalls_readNodes.mono fun op hop => hop ▸ trivial
    refine hread.bind fun states => ⟨trivial, fun r => ?_⟩
    cases r with
    | error failure => trivial
    | ok namespaces =>
      refine ⟨trivial, fun now => ⟨trivial, fun r => ?_⟩⟩
      cases r <;> trivial

theorem onlyCalls_observe (cfg : Config) : (observe cfg).OnlyCalls Op.Idle := by
  refine (onlyCalls_discoverManagedNodes cfg).bind fun r => ?_
  cases r with
  | error failure => trivial
  | ok managed =>
    refine (onlyCalls_buildNodeStates cfg managed).bind fun r => ?_
    cases r with
    | error failure => trivial
    | ok built =>
      dsimp only
      split
      · trivial
      · exact ⟨trivial, fun now => trivial⟩

/-- A build from the cluster's own listing shows the nodes as they are. -/
theorem BuiltFrom.reflects {cfg : Config} {managed : List String} {pods : List Pod}
    {states : NodeMap} {c : Cluster}
    (h : BuiltFrom cfg managed c.nodes.records pods states) : Reflects cfg states c := by
  intro s hs
  obtain ⟨n, hn, created, rfl⟩ := h.state s hs
  exact ⟨n, Store.find?_of_mem hn, rfl, rfl⟩

/-- Only the names, taints and labels of the states matter. -/
theorem Reflects.of_withoutPods {cfg : Config} {states states' : NodeMap} {c : Cluster}
    (h : Reflects cfg states c)
    (heq : states'.values.map NodeState.withoutPods = states.values.map NodeState.withoutPods) :
    Reflects cfg states' c := by
  intro s' hs'
  obtain ⟨s, hs, hsame⟩ := List.mem_map.mp (heq ▸ List.mem_map_of_mem hs')
  obtain ⟨n, hfind, htainted, hlacks⟩ := h s hs
  have hname : s.withoutPods.name = s'.withoutPods.name := congrArg NodeState.name hsame
  have htaint : s.withoutPods.isTainted = s'.withoutPods.isTainted :=
    congrArg NodeState.isTainted hsame
  have hguard : s.withoutPods.lacksInstanceTaint = s'.withoutPods.lacksInstanceTaint :=
    congrArg NodeState.lacksInstanceTaint hsame
  change s.name = s'.name at hname
  change s.isTainted = s'.isTainted at htaint
  change s.lacksInstanceTaint = s'.lacksInstanceTaint at hguard
  exact ⟨n, hname ▸ hfind, htaint ▸ htainted, hguard ▸ hlacks⟩

/-- What a cycle observes is the cluster it runs on, and observing leaves the nodes and the
failures alone. -/
theorem run_observe {cfg : Config} {c : Cluster} {states : NodeMap} {pending : List Pod}
    (hok : ((observe cfg).run serve c).1 = .ok (states, pending)) : Reflects cfg states c := by
  obtain ⟨t, ht, hevents⟩ := exists_trace_run (I := fun c' : Cluster => c'.nodes = c.nodes)
    (fun op hop c' hc' => (serve_idle hop c').1.trans hc') (onlyCalls_observe cfg)
    (s := c) rfl
  have hnodes : ∀ nodes, ⟨Op.listNodes, .ok nodes⟩ ∈ t → nodes = c.nodes.records := by
    intro nodes hmem
    obtain ⟨c', hc', hanswer⟩ := hevents _ hmem
    have hanswer : (Except.ok nodes : Except Failure (List Node)) = .ok c'.nodes.records := hanswer
    rw [Except.ok.inj hanswer, hc']
  rw [hok] at ht
  obtain ⟨r, t₁, t₂, rfl, hdiscover, ht₂⟩ := trace_bind_done_iff.mp ht
  cases r with
  | error failure => simp at ht₂
  | ok managed =>
  obtain ⟨r, t₃, t₄, rfl, hbuild, ht₄⟩ := trace_bind_done_iff.mp ht₂
  cases r with
  | error failure => simp at ht₄
  | ok built =>
  obtain ⟨states₀, pending₀⟩ := built
  have hreflects : Reflects cfg states₀ c := by
    by_cases hne : managed = []
    · simp only [buildNodeStates, hne, if_true, trace_done_iff, done.injEq, Except.ok.injEq,
        Prod.mk.injEq] at hbuild
      obtain ⟨_, rfl, _⟩ := hbuild
      simp [Reflects, NodeMap.empty]
    · obtain ⟨nodes, _, _, pods, _, _, rfl, hbuilt, _⟩ := trace_buildNodeStates hne hbuild
      rw [hnodes nodes (by simp)] at hbuilt
      exact hbuilt.reflects
  dsimp only at ht₄
  split at ht₄
  · simp only [trace_done_iff, done.injEq, Except.ok.injEq, Prod.mk.injEq] at ht₄
    obtain ⟨_, rfl, _⟩ := ht₄
    exact hreflects
  · obtain ⟨now, t₅, rfl, ht₅⟩ := trace_call_done_iff.mp ht₄
    simp only [trace_done_iff, done.injEq, Except.ok.injEq, Prod.mk.injEq] at ht₅
    obtain ⟨_, rfl, _⟩ := ht₅
    exact hreflects.of_withoutPods (withoutPods_applyPendingPhantomLoad ..)

/-! ### What was planned -/

theorem fleetCooldown_subset (cfg : Config) (states : NodeMap)
    (times? : Option (String → Option ℚ)) (now : ℚ) (order : SetOrder) (desired : Finset String) :
    fleetCooldown cfg states times? now order desired ⊆ desired := by
  have herase : ∀ (P : Prop) [Decidable P] (d : Finset String) (name : String),
      (if P then d.erase name else d) ⊆ d := by
    intro P _ d name
    split
    · exact Finset.erase_subset _ _
    · exact Finset.Subset.refl _
  have hstep : ∀ times d name, fleetCooldownStep cfg states times now d name ⊆ d := by
    intro times d name
    unfold fleetCooldownStep
    split
    · exact Finset.Subset.refl _
    split
    · exact Finset.Subset.refl _
    · exact herase _ _ _
  have hfold : ∀ times names d,
      List.foldl (fleetCooldownStep cfg states times now) d names ⊆ d := by
    intro times names
    induction names with
    | nil => exact fun d => Finset.Subset.refl d
    | cons name rest ih => exact fun d => (ih _).trans (hstep times d name)
  unfold fleetCooldown
  split
  · exact Finset.Subset.refl _
  split
  · exact hfold _ _ _
  · exact Finset.Subset.refl _

/-- A plan's sets, in terms of the decision it was made from. -/
structure PlannedFrom (cfg : Config) (mem : Memory) (states : NodeMap) (pending : List Pod)
    (now mono : ℚ) (plan : CyclePlan) : Prop where
  groups_eq : plan.groups =
    (groupPlans states cfg fleetGroupKey mem.peakHistory pending now mono).1
  taint_sub : plan.desiredTaint ⊆
    (computeTaints states cfg plan.reserved fleetGroupKey
        mem.peakHistory pending now mono).1.toTaint
  untaint_sub :
    (computeTaints states cfg plan.reserved fleetGroupKey mem.peakHistory pending now
      mono).1.toUntaint ⊆ plan.desiredUntaint ∪ plan.cooldownBlocked
  blocked_disjoint : ∀ x ∈ plan.cooldownBlocked, x ∉ plan.desiredUntaint

theorem onlyCalls_recordBursts (states : NodeMap) (times? : Option (String → Option ℚ))
    (names : List String) : (recordBursts states times? names).OnlyCalls Op.Idle := by
  cases times? with
  | none => cases names <;> trivial
  | some times =>
    induction names generalizing times with
    | nil => trivial
    | cons name rest ih =>
      rw [recordBursts]
      split
      · exact ih _
      · exact ⟨trivial, fun now => ih _⟩

variable {cfg : Config} {orders : Orders} {mem : Memory} {states : NodeMap} {pending : List Pod}

theorem onlyCalls_planCycle (cfg : Config) (orders : Orders) (mem : Memory) (states : NodeMap)
    (pending : List Pod) : (planCycle cfg orders mem states pending).OnlyCalls Op.Idle :=
  (onlyCalls_recordBursts _ _ _).bind fun _ =>
    ⟨trivial, fun _ => ⟨trivial, fun _ => ⟨trivial, fun _ => ⟨trivial, fun _ => trivial⟩⟩⟩⟩

theorem allReturn_planCycle : (planCycle cfg orders mem states pending).AllReturn fun plan =>
    ∃ now mono, PlannedFrom cfg mem states pending now mono plan := by
  refine AllReturn.bind _ fun fleetTimes now mono nowFleet nowCooldown =>
    ⟨now, mono, rfl, ?_, ?_, ?_⟩
  · exact (fleetCooldown_subset ..).trans Finset.sdiff_subset
  · intro x hx
    simp only [Finset.mem_union, Finset.mem_sdiff]
    tauto
  · intro x hx hx'
    exact (Finset.mem_sdiff.mp hx').2 hx

/-- A plan taints none of the nodes it reserves, and untaints them also in the taint cooldown. -/
theorem allReturn_planCycle_reserved :
    (planCycle cfg orders mem states pending).AllReturn fun plan =>
      ∀ s ∈ states.values, s.name ∈ plan.reserved →
        s.name ∉ plan.desiredTaint ∧ (s.isTainted = true → s.name ∈ plan.desiredUntaint) := by
  refine AllReturn.bind _ fun fleetTimes now mono nowFleet nowCooldown s hs hreserved => ?_
  obtain ⟨p, hp, hsp⟩ := exists_groupPlan cfg fleetGroupKey mem.peakHistory pending now mono hs
  have hname := List.mem_map_of_mem (f := NodeState.name) hsp
  have hsound := decideGroup_sound cfg now (allReserved cfg states now) p.surplus
    (nodup_of_mem_groupPlans hp)
  have hmem : s.name ∈ allReserved cfg states now := hreserved
  obtain ⟨hnot, hmandatory⟩ := hsound.exempt s hsp (by simp [isExempt, hmem])
  refine ⟨fun htaint => hnot ?_, fun ht => ?_⟩
  · have hdecided := (Finset.mem_sdiff.mp (fleetCooldown_subset _ _ _ _ _ _ htaint)).1
    exact (mem_toTaint_of_mem hp hname).mp hdecided
  · have hdecided := (mem_toUntaint_of_mem hp hname).mpr (hsound.mandatory_sub _ (hmandatory ht))
    refine Finset.mem_sdiff.mpr ⟨Finset.mem_union_left _ hdecided, fun hblocked => ?_⟩
    refine (Finset.mem_sdiff.mp (Finset.mem_filter.mp hblocked).1).2 (Finset.mem_union_right _ ?_)
    exact (mem_mandatoryUntaint_of_mem hp hname).mpr (hmandatory ht)

/-! ### What was done -/

/-- Untainting alone leaves the taint only where the guard refuses. -/
theorem carriesTaint_alone_removeTaint (nodeName taintKey : String) (n : Node) :
    carriesTaint taintKey ((removeTaintEdit nodeName taintKey).alone 3 n) =
      (carriesTaint taintKey n && missesInstanceTaint n) := by
  cases hguard : missesInstanceTaint n with
  | true =>
    rw [Edit.alone_wait (by simp [removeTaintEdit, hguard]), Bool.and_true]
  | false =>
    have happly : (removeTaintPatch taintKey n).apply n =
        .ok ((removeTaintPatch taintKey n).applyTo n) := by
      simp [removeTaintPatch, Patch.apply, Patch.applyTo]
    rw [Edit.alone_send (by simp [removeTaintEdit, hguard]) happly, carriesTaint_removeTaintPatch,
      Bool.and_false]

/-- Tainting alone fails to taint only where the guard refuses. -/
theorem carriesTaint_alone_applyTaint (nodeName taintKey : String) (n : Node) :
    carriesTaint taintKey ((applyTaintEdit nodeName taintKey).alone 5 n) =
      (carriesTaint taintKey n || !missesInstanceTaint n) := by
  cases hcarries : carriesTaint taintKey n with
  | true =>
    rw [Edit.alone_finish (a := ()) (by simp [applyTaintEdit, hcarries]), hcarries, Bool.true_or]
  | false =>
    cases hguard : missesInstanceTaint n with
    | true =>
      rw [Edit.alone_wait (by simp [applyTaintEdit, hcarries, hguard]), hcarries]
      rfl
    | false =>
      have happly : ∃ n', (applyTaintPatch taintKey n).apply n = .ok n' := by
        unfold applyTaintPatch
        split
        · rename_i hne
          simp [Patch.apply, JsonOp.applyAll, JsonOp.apply, hne]
        · simp [Patch.apply, JsonOp.applyAll, JsonOp.apply]
      obtain ⟨n', happly⟩ := happly
      rw [Edit.alone_send (by simp [applyTaintEdit, hcarries, hguard]) happly, carriesTaint,
        taints_applyTaintPatch happly]
      simp

/-- Sweeping the states of a set with a flag edits exactly these. -/
theorem exists_find?_sweep {β : Type} (states : NodeMap) (flag : NodeState → Bool)
    (editOf : String → Edit Unit) (attempts : ℕ) (record : String → β → Api β)
    (hname : ∀ name, (editOf name).name = name)
    (hrecord : ∀ name b, (record name b).OnlyCalls Op.Idle) (order : SetOrder)
    (names : Finset String) {c : Cluster} (hc : c.Quiet) (b : β) :
    let c' := ((sweep (fun name => (editOf name).attempt attempts) record b
      ((order.toList names).filter fun name => (states.get? name).any flag)).run serve c).2
    c'.Quiet ∧ ∀ s ∈ states.values, ∀ n, c.nodes.find? s.name = some n →
      ∃ n', c'.nodes.find? s.name = some n' ∧ n'.content =
        (if s.name ∈ names ∧ flag s = true then (editOf s.name).alone attempts n
        else n).content := by
  intro c'
  have hsweep : c'.Quiet ∧ ∀ x, c'.content? x = _ := content?_sweep hname hrecord
    ((order.nodup names).filter fun name => (states.get? name).any flag) hc b
  refine ⟨hsweep.1, fun s hs n hn => ?_⟩
  have hmem : s.name ∈ (order.toList names).filter (fun name => (states.get? name).any flag) ↔
      s.name ∈ names ∧ flag s = true := by
    rw [List.mem_filter, order.mem_toList, NodeMap.get?_eq_some_iff.mpr ⟨hs, rfl⟩]
    rfl
  have h := hsweep.2 s.name
  rw [hn, Option.map_some, Cluster.content?, Option.map_eq_some_iff] at h
  simpa only [hmem] using h

/-- Calls that patch nothing but annotations. -/
def PatchesAnnotations (op : Op) : Prop :=
  ∀ name p, op = .patchNode name p →
    (∃ v l, p = .mergeAnnotations v l) ∨ ∃ l, p = .strategicAnnotations l

/-- Calls that leave the taints of every node alone. -/
def KeepsTaints (op : Op) : Prop :=
  ∀ name p, op = .patchNode name p → ∀ n n', p.apply n = .ok n' → n'.taints = n.taints

theorem taints_serve {op : Op} (hop : KeepsTaints op) (c : Cluster) (x : String) :
    ((serve op c).2.nodes.find? x).map Node.taints = (c.nodes.find? x).map Node.taints := by
  cases op with
  | getNode name =>
    simp only [serve, Cluster.takeFault]
    rcases nextFault (c.faults name) with ⟨_ | failure, faults⟩ <;> rfl
  | patchNode name p =>
    simp only [serve, Cluster.takeFault]
    rcases nextFault (c.faults name) with ⟨_ | failure, faults⟩
    · simp only [Cluster.patch, Cluster.withFaults]
      cases hfind : c.nodes.find? name with
      | none => rfl
      | some n =>
        dsimp only
        cases happly : p.apply n with
        | error e => rfl
        | ok n' =>
          dsimp only
          by_cases hx : x = name
          · subst hx
            rw [Store.find?_modify_self hfind, hfind, Patch.applyTo, happly]
            exact congrArg some (hop x p rfl n n' happly)
          · rw [Store.find?_modify_ne hx]
    · rfl
  | _ => rfl

theorem taintedOn_run_iff {β : Type} {p : Api β} (hp : p.OnlyCalls KeepsTaints) {c : Cluster}
    {taintKey x : String} :
    TaintedOn (p.run serve c).2 taintKey x ↔ TaintedOn c taintKey x := by
  have h : ((p.run serve c).2.nodes.find? x).map Node.taints =
      (c.nodes.find? x).map Node.taints :=
    run_invariant (I := fun c' : Cluster =>
      (c'.nodes.find? x).map Node.taints = (c.nodes.find? x).map Node.taints)
      (fun op hop c' hc' => (taints_serve hop c' x).trans hc') hp rfl
  have hread : ∀ c : Cluster, (c.nodes.find? x).any (carriesTaint taintKey) =
      ((c.nodes.find? x).map Node.taints).any fun taints => taints.any (·.key = taintKey) :=
    fun c => by rw [Option.any_map]; rfl
  rw [TaintedOn, TaintedOn, hread, hread, h]

theorem onlyCalls_collectNames {P : Op → Prop} {f : String → Api (Except Failure Bool)}
    (hf : ∀ name, (f name).OnlyCalls P) (names : List String) :
    (collectNames f names).OnlyCalls P := by
  induction names with
  | nil => trivial
  | cons name rest ih =>
    refine (hf name).bind fun r => ?_
    cases r with
    | error failure => trivial
    | ok done =>
      refine ih.bind fun r => ?_
      cases r <;> trivial

theorem keepsTaints_of_patchesAnnotations {op : Op} (h : PatchesAnnotations op) :
    KeepsTaints op := by
  intro name p hp n n' happly
  rcases h name p hp with ⟨v, l, rfl⟩ | ⟨l, rfl⟩
  · simp only [Patch.apply] at happly
    split at happly <;> cases happly
    rfl
  · cases happly
    rfl

/-- Reserving and releasing edit annotations only. -/
theorem onlyCalls_reconcileReservations (nodeStates : List NodeState) (desired : Finset String)
    (dryRun : Bool) :
    (reconcileReservations nodeStates desired dryRun).OnlyCalls PatchesAnnotations := by
  have hreserve : ∀ name, (applyReservation name dryRun).OnlyCalls PatchesAnnotations := by
    intro name
    unfold applyReservation
    split
    · trivial
    · refine ⟨?_, fun _ => trivial⟩
      rintro _ _ ⟨⟩
      exact Or.inr ⟨_, rfl⟩
  have hrelease : ∀ name, (removeReservation name dryRun).OnlyCalls PatchesAnnotations := by
    refine fun name => (onlyCalls_removeReservation name dryRun 3).mono fun op hop x p hp => ?_
    obtain ⟨v, hv⟩ := hop x p hp
    exact Or.inl ⟨v, _, hv⟩
  refine (onlyCalls_collectNames hreserve _).bind fun r => ?_
  cases r with
  | error failure => trivial
  | ok added =>
    refine (onlyCalls_collectNames hrelease _).bind fun r => ?_
    cases r <;> trivial

/-- Untainting edits the tainted nodes among those named. -/
theorem run_untaintNodes (states : NodeMap) (hdry : cfg.dryRun = false) (order : SetOrder)
    (names : Finset String) {c : Cluster} (hc : c.Quiet) :
    let c' := ((untaintNodes cfg states (order.toList names)).run serve c).2
    c'.Quiet ∧ ∀ s ∈ states.values, ∀ n, c.nodes.find? s.name = some n →
      ∃ n', c'.nodes.find? s.name = some n' ∧ n'.content =
        (if s.name ∈ names ∧ s.isTainted = true then
          (removeTaintEdit s.name cfg.taintKey).alone 3 n else n).content := by
  rw [untaintNodes, hdry]
  refine exists_find?_sweep states NodeState.isTainted (removeTaintEdit · cfg.taintKey) 3 _
    (fun _ => rfl) ?_ order names hc ()
  exact fun _ _ => trivial

/-- Tainting edits the untainted nodes among those named. -/
theorem run_taintNodes (states : NodeMap) (hdry : cfg.dryRun = false) (order : SetOrder)
    (taintTimes : String → Option ℚ) (names : Finset String) {c : Cluster} (hc : c.Quiet) :
    let c' := ((taintNodes cfg states taintTimes (order.toList names)).run serve c).2
    c'.Quiet ∧ ∀ s ∈ states.values, ∀ n, c.nodes.find? s.name = some n →
      ∃ n', c'.nodes.find? s.name = some n' ∧ n'.content =
        (if s.name ∈ names ∧ (!s.isTainted) = true then
          (applyTaintEdit s.name cfg.taintKey).alone 5 n else n).content := by
  rw [taintNodes, hdry]
  refine exists_find?_sweep states (fun n => !n.isTainted) (applyTaintEdit · cfg.taintKey) 5 _
    (fun _ => rfl) ?_ order names hc taintTimes
  exact fun _ _ => ⟨trivial, fun _ => trivial⟩

/-- Acting on a plan, where every call goes through: a tainted node keeps its taint unless it
is to be untainted, and an untainted one gets it if it is to be tainted, each time provided
the node has its instance-type taint. -/
theorem taintedOn_act_iff (orders : Orders) (mem : Memory) (hdry : cfg.dryRun = false)
    {c : Cluster} (hc : c.Quiet) (hreflects : Reflects cfg states c) (plan : CyclePlan)
    {s : NodeState} (hs : s ∈ states.values) :
    TaintedOn ((act cfg orders mem states plan).run serve c).2 cfg.taintKey s.name ↔
      if s.isTainted then s.name ∉ plan.desiredUntaint ∨ s.lacksInstanceTaint = true
      else s.name ∈ plan.desiredTaint ∧ s.lacksInstanceTaint = false := by
  obtain ⟨n, hfind, htainted, hlacks⟩ := hreflects s hs
  obtain ⟨hquiet₁, hnode₁⟩ := run_untaintNodes states hdry orders.untaint plan.desiredUntaint hc
  obtain ⟨n₁, hfind₁, hcontent₁⟩ := hnode₁ s hs n hfind
  obtain ⟨_, hnode₂⟩ := run_taintNodes states hdry orders.taint mem.taintTimes plan.desiredTaint
    hquiet₁
  obtain ⟨n₂, hfind₂, hcontent₂⟩ := hnode₂ s hs n₁ hfind₁
  -- The reservations come last and touch annotations only.
  have hact : TaintedOn ((act cfg orders mem states plan).run serve c).2 cfg.taintKey s.name ↔
      carriesTaint cfg.taintKey n₂ = true := by
    rw [act, run_bind, run_bind, taintedOn_run_iff, TaintedOn, hfind₂, Option.any_some]
    split
    · exact ((onlyCalls_reconcileReservations ..).mono
        fun _ => keepsTaints_of_patchesAnnotations).bind fun _ => trivial
    · trivial
  have hcarries : ∀ a b : Node, a.content = b.content →
      carriesTaint cfg.taintKey a = carriesTaint cfg.taintKey b := by
    intro a b h
    change carriesTaint cfg.taintKey a.content = carriesTaint cfg.taintKey b.content
    rw [h]
  have hmisses : ∀ a b : Node, a.content = b.content →
      missesInstanceTaint a = missesInstanceTaint b := by
    intro a b h
    change missesInstanceTaint a.content = missesInstanceTaint b.content
    rw [h]
  rw [hact, hcarries _ _ hcontent₂]
  cases ht : s.isTainted with
  | true =>
    simp only [ht, Bool.not_true, Bool.false_eq_true, and_false, if_false, if_true, and_true]
      at hcontent₁ ⊢
    rw [hcarries _ _ hcontent₁]
    split
    · rename_i hmem
      rw [carriesTaint_alone_removeTaint, ← htainted, ← hlacks, ht, Bool.true_and]
      simp [hmem]
    · rename_i hmem
      rw [← htainted, ht]
      simp [hmem]
  | false =>
    simp only [ht, Bool.not_false, Bool.false_eq_true, and_false, if_false, and_true]
      at hcontent₁ ⊢
    split
    · rename_i hmem
      rw [carriesTaint_alone_applyTaint, hcarries _ _ hcontent₁, hmisses _ _ hcontent₁,
        ← htainted, ← hlacks, ht]
      simp [hmem]
    · rename_i hmem
      rw [hcarries _ _ hcontent₁, ← htainted, ht]
      simp [hmem]

/-! ### The floor -/

/-- What the cycle that starts on a cluster decides, from what it observes there. -/
def planOn (cfg : Config) (orders : Orders) (mem : Memory) (states : NodeMap)
    (pending : List Pod) (c : Cluster) : CyclePlan :=
  ((planCycle cfg orders mem states pending).run serve ((observe cfg).run serve c).2).1

/-- Untaints of the group that the cycle wants and does not make: those in cooldown, and
those that the guard of `remove_taint` refuses. -/
def heldBack (plan : CyclePlan) (p : GroupPlan) : List NodeState :=
  p.nodes.filter fun s => s.isTainted && (s.name ∈ plan.cooldownBlocked ||
    (s.name ∈ plan.desiredUntaint && s.lacksInstanceTaint))

/-- Taints of the group that the cycle wants and that are there at its end. -/
def inEffect (plan : CyclePlan) (p : GroupPlan) : List NodeState :=
  p.nodes.filter fun s =>
    if s.isTainted then s.name ∉ plan.desiredUntaint && s.name ∉ plan.cooldownBlocked
    else s.name ∈ plan.desiredTaint && !s.lacksInstanceTaint

/-- At least `min_needed` nodes of the group are untainted, or all of them. -/
def KeepsFloor (cfg : Config) (c : Cluster) (p : GroupPlan) : Prop :=
  min (p.nodes.length : ℤ) p.minNeeded ≤
    (p.nodes.filter fun s => ¬ TaintedOn c cfg.taintKey s.name).length

instance (cfg : Config) (c : Cluster) (p : GroupPlan) : Decidable (KeepsFloor cfg c p) :=
  inferInstanceAs (Decidable (_ ≤ _))

section Floor

variable {c : Cluster} {p : GroupPlan}

theorem exists_plannedFrom (cfg : Config) (orders : Orders) (mem : Memory) (states : NodeMap)
    (pending : List Pod) (c : Cluster) : ∃ now mono,
      PlannedFrom cfg mem states pending now mono (planOn cfg orders mem states pending c) :=
  allReturn_planCycle.run _

theorem mem_values_of_mem_planOn (hp : p ∈ (planOn cfg orders mem states pending c).groups)
    {s : NodeState} (hs : s ∈ p.nodes) : s ∈ states.values := by
  obtain ⟨now, mono, hplan⟩ := exists_plannedFrom cfg orders mem states pending c
  rw [hplan.groups_eq] at hp
  rw [nodes_of_mem_groupPlans hp] at hs
  exact (List.mem_filter.mp hs).1

/-- A quiet cycle taints and untaints as it has planned. -/
theorem taintedOn_reconcile_iff (orders : Orders) (mem : Memory) (hdry : cfg.dryRun = false)
    (hc : c.Quiet)
    (hobserved : ((observe cfg).run serve c).1 = .ok (states, pending)) {s : NodeState}
    (hs : s ∈ states.values) :
    TaintedOn ((reconcile cfg orders mem).run serve c).2 cfg.taintKey s.name ↔
      if s.isTainted then
        s.name ∉ (planOn cfg orders mem states pending c).desiredUntaint ∨
          s.lacksInstanceTaint = true
      else
        s.name ∈ (planOn cfg orders mem states pending c).desiredTaint ∧
          s.lacksInstanceTaint = false := by
  have hobserve := run_idle (onlyCalls_observe cfg) c
  have hplan := run_idle (onlyCalls_planCycle cfg orders mem states pending)
    ((observe cfg).run serve c).2
  have hnodes := hplan.1.trans hobserve.1
  have hquiet : ((planCycle cfg orders mem states pending).run serve
      ((observe cfg).run serve c).2).2.Quiet := (hplan.2.trans hobserve.2).trans hc
  have hreflects : Reflects cfg states ((planCycle cfg orders mem states pending).run serve
      ((observe cfg).run serve c).2).2 := by
    intro s hs
    rw [hnodes]
    exact run_observe hobserved s hs
  have hne : ¬ states.values.isEmpty = true := by
    rw [List.isEmpty_iff]
    exact List.ne_nil_of_mem hs
  rw [reconcile, run_bind, hobserved]
  dsimp only
  rw [if_neg hne, run_bind]
  exact taintedOn_act_iff orders mem hdry hquiet hreflects _ hs

/-- A list splits in two along its tests. -/
theorem length_filter_of_split {α : Type} {l : List α} {P Q R : α → Bool}
    (hor : ∀ a ∈ l, P a = (Q a || R a)) (hnand : ∀ a ∈ l, Q a = true → R a = false) :
    (l.filter P).length = (l.filter Q).length + (l.filter R).length := by
  induction l with
  | nil => rfl
  | cons a l ih =>
    have hrest := ih (fun b hb => hor b (by simp [hb])) (fun b hb => hnand b (by simp [hb]))
    have ha := hor a (by simp)
    have hna := hnand a (by simp)
    cases hQ : Q a with
    | true =>
      simp only [List.filter_cons, ha, hQ, hna hQ, Bool.true_or, Bool.false_eq_true, if_true,
        if_false, List.length_cons]
      omega
    | false =>
      cases hR : R a <;> simp [ha, hQ, hR, hrest]
      omega

/-- The nodes of a group that are tainted at the end of a quiet cycle are those whose
untaint was held back and those whose taint is in effect. -/
theorem length_tainted_eq (hdry : cfg.dryRun = false) (hc : c.Quiet)
    (hobserved : ((observe cfg).run serve c).1 = .ok (states, pending))
    (hp : p ∈ (planOn cfg orders mem states pending c).groups) :
    (p.nodes.filter fun s =>
        TaintedOn ((reconcile cfg orders mem).run serve c).2 cfg.taintKey s.name).length =
      (heldBack (planOn cfg orders mem states pending c) p).length +
        (inEffect (planOn cfg orders mem states pending c) p).length := by
  obtain ⟨now, mono, hplan⟩ := exists_plannedFrom cfg orders mem states pending c
  refine length_filter_of_split (fun s hs => ?_) (fun s hs => ?_)
  · have hblocked := hplan.blocked_disjoint s.name
    have h := taintedOn_reconcile_iff orders mem hdry hc hobserved
      (mem_values_of_mem_planOn hp hs)
    rw [Bool.eq_iff_iff, decide_eq_true_eq, h]
    cases ht : s.isTainted with
    | false => simp
    | true =>
      by_cases hb : s.name ∈ (planOn cfg orders mem states pending c).cooldownBlocked
      · simp [hb, hblocked hb]
      · by_cases hu : s.name ∈ (planOn cfg orders mem states pending c).desiredUntaint <;>
          simp [hb, hu]
  · intro hheld
    cases ht : s.isTainted with
    | false => simp [ht] at hheld
    | true =>
      simp only [ht, Bool.true_and, Bool.or_eq_true, Bool.and_eq_true, decide_eq_true_eq] at hheld
      rcases hheld with hb | ⟨hu, _⟩
      · simp [hb]
      · simp [hu]

/-- The floor bounds the tainted nodes by the surplus. -/
theorem keepsFloor_iff : KeepsFloor cfg c p ↔
    ((p.nodes.filter fun s => TaintedOn c cfg.taintKey s.name).length : ℤ) ≤ max 0 p.surplus := by
  have hsplit := List.length_eq_length_filter_add (l := p.nodes) fun s =>
    decide (TaintedOn c cfg.taintKey s.name)
  simp only [KeepsFloor, GroupPlan.surplus, decide_not]
  omega

/-- The decision leaves room for the taints in effect: they are within the surplus. -/
theorem length_inEffect_le (hp : p ∈ (planOn cfg orders mem states pending c).groups) :
    ((inEffect (planOn cfg orders mem states pending c) p).length : ℤ) ≤ max 0 p.surplus := by
  obtain ⟨now, mono, hplan⟩ := exists_plannedFrom cfg orders mem states pending c
  generalize planOn cfg orders mem states pending c = plan at hp hplan ⊢
  have hgroup := hplan.groups_eq ▸ hp
  have hnodup := nodup_of_mem_groupPlans hgroup
  have hsound := decideGroup_sound cfg now plan.reserved p.surplus hnodup
  have hsub : ((inEffect plan p).map NodeState.name).toFinset ⊆
      (decideGroup cfg now plan.reserved p.nodes p.surplus).toTaint := by
    intro x hx
    obtain ⟨s, hs, rfl⟩ := List.mem_map.mp (List.mem_toFinset.mp hx)
    obtain ⟨hs, heffect⟩ := List.mem_filter.mp hs
    have hname := List.mem_map_of_mem (f := NodeState.name) hs
    cases ht : s.isTainted with
    | false =>
      simp only [ht, Bool.false_eq_true, if_false, Bool.and_eq_true, decide_eq_true_eq] at heffect
      exact (mem_toTaint_of_mem hgroup hname).mp (hplan.taint_sub heffect.1)
    | true =>
      simp only [ht, if_true, Bool.and_eq_true, decide_eq_true_eq] at heffect
      refine (hsound.decided s hs ht).resolve_right fun huntaint => ?_
      rcases Finset.mem_union.mp (hplan.untaint_sub
        ((mem_toUntaint_of_mem hgroup hname).mpr huntaint)) with hu | hb
      · exact heffect.1 hu
      · exact heffect.2 hb
  have hnames : ((inEffect plan p).map NodeState.name).Nodup :=
    hnodup.sublist (List.filter_sublist.map NodeState.name)
  have hcard := Finset.card_le_card hsub
  rw [List.toFinset_card_of_nodup hnames, List.length_map] at hcard
  have hle := hsound.card_le
  omega

/-- Where nothing is held back, the floor stands. -/
theorem keepsFloor_of_heldBack_eq_nil (hdry : cfg.dryRun = false) (hc : c.Quiet)
    (hobserved : ((observe cfg).run serve c).1 = .ok (states, pending))
    (hp : p ∈ (planOn cfg orders mem states pending c).groups)
    (hnone : heldBack (planOn cfg orders mem states pending c) p = []) :
    KeepsFloor cfg ((reconcile cfg orders mem).run serve c).2 p := by
  rw [keepsFloor_iff, length_tainted_eq hdry hc hobserved hp, hnone]
  have := length_inEffect_le hp
  simp only [List.length_nil]
  omega

/-- In a quiet cycle, a node that it reserves ends up without the taint, unless it had the taint
and lacks the instance's. -/
theorem taintedOn_reconcile_reserved_iff (hdry : cfg.dryRun = false) (hc : c.Quiet)
    (hobserved : ((observe cfg).run serve c).1 = .ok (states, pending)) {s : NodeState}
    (hs : s ∈ states.values)
    (hreserved : s.name ∈ (planOn cfg orders mem states pending c).reserved) :
    TaintedOn ((reconcile cfg orders mem).run serve c).2 cfg.taintKey s.name ↔
      s.isTainted = true ∧ s.lacksInstanceTaint = true := by
  have hplan : _ ∧ _ := allReturn_planCycle_reserved.run _ s hs hreserved
  rw [taintedOn_reconcile_iff orders mem hdry hc hobserved hs]
  cases ht : s.isTainted with
  | true => simp [planOn, hplan.2 ht]
  | false => simp [planOn, hplan.1]

end Floor

/-! ### A floor that is broken -/

/-- A node of the pool with these cores and taints. -/
def poolNode (name cpu : String) (created : ℚ) (taints : List Taint) : Node where
  name := name
  resourceVersion := 1
  labels := fun k => if k = "karpenter.sh/nodepool" then some "pool" else none
  annotations := fun _ => none
  creationTimestamp := some created
  taints := taints
  allocatable := ⟨some cpu, some "10", none⟩

/-- A running pod of five cores, bound to a node. -/
def fiveCorePod (node : String) : Pod where
  metadata := ⟨"pod", "default", some 0, none, []⟩
  spec := some ⟨some node, [], [⟨⟨some "5", none, none⟩⟩], [], [], []⟩
  status := some ⟨some .running, [], none⟩

/-- Two large old nodes and a small young one, of which one is needed. The pod of the first,
which is tainted, does not fit the small one. -/
def loadedNodes : Cluster where
  nodes := ⟨1, [poolNode "n1" "10" 0 [⟨bareConfig.taintKey, "true", "NoSchedule", none⟩],
    poolNode "n2" "10" 0 [], poolNode "n3" "2" 200000 []], by decide, by decide⟩
  pods := [fiveCorePod "n1"]
  namespaces := []
  nodePools := [⟨"pool", fun k => if k = bareConfig.nodepoolLabel then some "true" else none⟩]
  clock := fun _ => (200060, 200060)
  readings := 0
  shutdown := false
  faults := fun _ => []

/-- A memory of the time when the first node was tainted. -/
def taintedAt (time : ℚ) : Memory :=
  ⟨fun name => if name = "n1" then some time else none, none, none⟩

def sortedOrders : Orders := ⟨.sorted, .sorted, .sorted, .sorted⟩

theorem quiet_loadedNodes : loadedNodes.Quiet := rfl

/-- What a cycle observes there. -/
def loadedStates : NodeMap × List Pod :=
  match ((observe bareConfig).run serve loadedNodes).1 with
  | .ok observed => observed
  | .error _ => (.empty, [])

theorem observe_loadedNodes :
    ((observe bareConfig).run serve loadedNodes).1 = .ok loadedStates := by
  have hok : (match ((observe bareConfig).run serve loadedNodes).1 with
      | .ok _ => true
      | .error _ => false) = true := by decide +kernel
  unfold loadedStates
  cases h : ((observe bareConfig).run serve loadedNodes).1 with
  | ok observed => rfl
  | error failure =>
    rw [h] at hok
    cases hok

/-- The plan of a cycle there, a minute after the small node was created. -/
def loadedPlan (time : ℚ) : CyclePlan :=
  planOn bareConfig sortedOrders (taintedAt time) loadedStates.1 loadedStates.2 loadedNodes

/-- With all three nodes reserved the first one is untainted, ten seconds after it was tainted. -/
theorem taintedOn_reconcile_reserved_loadedNodes :
    let cfg := { bareConfig with maxUptimeHours := 60, capacityReservationNodes := 3 }
    ∃ s ∈ loadedStates.1.values, s.isTainted = true ∧
      ¬ TaintedOn ((reconcile cfg sortedOrders (taintedAt 200050)).run serve loadedNodes).2
        cfg.taintKey s.name := by
  intro cfg
  have hobserved : ((observe cfg).run serve loadedNodes).1 =
    .ok (loadedStates.1, loadedStates.2) := observe_loadedNodes
  obtain ⟨s, hs, ht, hguard, hreserved⟩ : ∃ s ∈ loadedStates.1.values, s.isTainted = true ∧
      s.lacksInstanceTaint = false ∧ s.name ∈ (planOn cfg sortedOrders (taintedAt 200050)
        loadedStates.1 loadedStates.2 loadedNodes).reserved := by
    decide +kernel
  refine ⟨s, hs, ht, ?_⟩
  rw [taintedOn_reconcile_reserved_iff rfl quiet_loadedNodes hobserved hs hreserved]
  simp [hguard]

end CiInfra.Compactor

import CiInfra.Compactor.Main
import CiInfra.Compactor.Stability

/-!
# Spare capacity

A group is to keep some lightly used nodes untainted. The taint loop sees to this before every
single taint, and nothing that a cycle does to its decision afterwards takes it back. The recovery
after the loop is meant to restore the requirement where it is missed, but it comes too late: by
then the loop has put every tainted node that it could untaint among the untaints that may wait.
-/

namespace CiInfra.Compactor

open Kube Interaction Interaction.Program

/-- Enough lightly used nodes of the group are left when these are tainted. -/
def KeepsSpare (cfg : Config) (nodes : List NodeState) (toTaint : Finset String) : Prop :=
  requiredSpare cfg nodes ≤ countSpareNodes nodes none toTaint cfg.spareCapacityThreshold

/-- The nodes that calls have tried to taint: only tainting sends JSON patches. -/
def taintedIn (t : List (Event Op Op.Res)) : Finset String :=
  (t.filterMap fun e => match e.1 with
    | .patchNode name (.json _) => some name
    | _ => none).toFinset

theorem mem_taintedIn {t : List (Event Op Op.Res)} {x : String} :
    x ∈ taintedIn t ↔ ∃ e ∈ t, ∃ ops, e.1 = .patchNode x (.json ops) := by
  simp only [taintedIn, List.mem_toFinset, List.mem_filterMap]
  refine exists_congr fun e => and_congr_right fun _ => ⟨fun h => ?_, ?_⟩
  · split at h
    · rename_i name ops hop
      obtain rfl := Option.some.inj h
      exact ⟨ops, hop⟩
    · cases h
  · rintro ⟨ops, hop⟩
    rw [hop]

/-! ### Keeping the requirement -/

section Keeping

variable {cfg : Config} {nodes : List NodeState}

/-- Fewer taints leave more spare nodes. -/
theorem countSpareNodes_anti {S T : Finset String} (h : S ⊆ T) (threshold : ℚ) :
    countSpareNodes nodes none T threshold ≤ countSpareNodes nodes none S threshold := by
  unfold countSpareNodes spareNodes
  rw [← List.countP_eq_length_filter, ← List.countP_eq_length_filter]
  refine List.countP_mono_left fun n _ hn => ?_
  simp only [Bool.and_eq_true, decide_eq_true_eq] at hn ⊢
  exact ⟨⟨hn.1.1, fun hS => hn.1.2 (h hS)⟩, hn.2⟩

theorem KeepsSpare.anti {S T : Finset String} (h : KeepsSpare cfg nodes T) (hsub : S ⊆ T) :
    KeepsSpare cfg nodes S :=
  h.trans (Int.ofNat_le.mpr (countSpareNodes_anti hsub _))

/-- A group's pass that taints anything keeps the requirement. -/
theorem keepsSpare_decideGroup {now : ℚ} {reserved : Finset String} {surplus : ℤ}
    (hnodup : (nodes.map NodeState.name).Nodup) (hsurplus : 0 < surplus)
    (hrequired : 0 < requiredSpare cfg nodes) {x : String}
    (hx : x ∈ (decideGroup cfg now reserved nodes surplus).toTaint) :
    KeepsSpare cfg nodes (decideGroup cfg now reserved nodes surplus).toTaint := by
  rw [toTaint_decideGroup_of_pos hnodup hsurplus] at hx ⊢
  have hinv := loopInv_taintLoop (loopContext_wellFormed cfg now reserved hnodup hsurplus)
  rcases hinv.spare with hempty | hnone | hspare
  · rw [hempty] at hx
    simp at hx
  · exact absurd hrequired (not_lt.mpr hnone)
  · exact hspare

variable {states : NodeMap} {pending : List Pod} {p : GroupPlan}

/-- The decision keeps the requirement of every group of which it taints anything. -/
theorem keepsSpare_computeTaints {reserved : Finset String} {groupKey : NodeState → String}
    {history : Option PeakHistory} {now mono : ℚ}
    (hp : p ∈ (groupPlans states cfg groupKey history pending now mono).1)
    (hsurplus : 0 < p.surplus) (hrequired : 0 < requiredSpare cfg p.nodes) {n : NodeState}
    (hn : n ∈ p.nodes) (htaint : n.name ∈
      (computeTaints states cfg reserved groupKey history pending now mono).1.toTaint) :
    KeepsSpare cfg p.nodes
      (computeTaints states cfg reserved groupKey history pending now mono).1.toTaint := by
  have hgroup := keepsSpare_decideGroup (nodup_of_mem_groupPlans hp) hsurplus hrequired
    ((mem_toTaint_of_mem hp (List.mem_map_of_mem hn)).mp htaint)
  refine hgroup.trans (Int.ofNat_le.mpr ?_)
  -- the nodes counted are nodes of the group, of which both sets contain the same
  unfold countSpareNodes spareNodes
  rw [← List.countP_eq_length_filter, ← List.countP_eq_length_filter]
  refine List.countP_mono_left fun m hm h => ?_
  simp only [Bool.and_eq_true, decide_eq_true_eq] at h ⊢
  exact ⟨⟨h.1.1, fun hmem => h.1.2
    ((mem_toTaint_of_mem hp (List.mem_map_of_mem hm)).mp hmem)⟩, h.2⟩

/-- Acting on a plan taints only what the plan wants tainted. -/
theorem onlyCalls_act_taints (orders : Orders) (mem : Memory) (plan : CyclePlan) :
    (act cfg orders mem states plan).OnlyCalls fun op =>
      ∀ name ops, op = .patchNode name (.json ops) → name ∈ plan.desiredTaint := by
  have huntaint : ∀ name, (removeTaint name cfg.taintKey cfg.dryRun).OnlyCalls fun op =>
      ∀ x ops, op = .patchNode x (.json ops) → x ∈ plan.desiredTaint := by
    intro name
    unfold removeTaint
    split
    · trivial
    · refine ((removeTaintEdit name cfg.taintKey).onlyCalls_attempt 3).mono ?_
      rintro op (rfl | ⟨node, patch, hsend, rfl⟩) x ops hop
      · cases hop
      · cases hop
        simp only [removeTaintEdit] at hsend
        split at hsend <;> cases hsend
  have htaint : ∀ name ∈ plan.desiredTaint, (applyTaint name cfg.taintKey cfg.dryRun).OnlyCalls
      fun op => ∀ x ops, op = .patchNode x (.json ops) → x ∈ plan.desiredTaint := by
    intro name hname
    unfold applyTaint
    split
    · trivial
    · refine ((applyTaintEdit name cfg.taintKey).onlyCalls_attempt 5).mono ?_
      rintro op (rfl | ⟨node, patch, hsend, rfl⟩) x ops hop
      · cases hop
      · cases hop
        exact hname
  have huntaints : (untaintNodes cfg states (orders.untaint.toList plan.desiredUntaint)).OnlyCalls
      fun op => ∀ x ops, op = .patchNode x (.json ops) → x ∈ plan.desiredTaint := by
    refine onlyCalls_sweep ?_ ?_ _
    · exact fun name _ => huntaint name
    · exact fun _ _ => trivial
  have htaints : (taintNodes cfg states mem.taintTimes
      (orders.taint.toList plan.desiredTaint)).OnlyCalls
      fun op => ∀ x ops, op = .patchNode x (.json ops) → x ∈ plan.desiredTaint := by
    refine onlyCalls_sweep ?_ ?_ _
    · exact fun name hname =>
        htaint name ((orders.taint.mem_toList _ _).mp (List.mem_filter.mp hname).1)
    · refine fun name times => ⟨fun x ops hop => ?_, fun _ => trivial⟩
      cases hop
  refine huntaints.bind fun _ => htaints.bind fun taintTimes => ?_
  dsimp only
  split
  · refine OnlyCalls.bind ((onlyCalls_reconcileReservations ..).mono ?_) fun _ => trivial
    intro op hop x ops hx
    rcases hop x _ hx with ⟨v, l, h⟩ | ⟨l, h⟩ <;> cases h
  · trivial

/-- The decision taints nodes of a group only if that leaves the group its spare capacity, and
so does the plan that a cycle makes of it; whatever the calls of the cycle are answered, it
taints nodes of a group only if enough untainted ones remain that it does not taint. -/
theorem taints_keepSpare (cfg : Config) (orders : Orders) (mem : Memory) (states : NodeMap)
    (pending : List Pod) :
    (∀ reserved groupKey history now mono,
      ∀ p ∈ (groupPlans states cfg groupKey history pending now mono).1,
        0 < p.surplus → 0 < requiredSpare cfg p.nodes → ∀ n ∈ p.nodes, n.name ∈
          (computeTaints states cfg reserved groupKey history pending now mono).1.toTaint →
            KeepsSpare cfg p.nodes
              (computeTaints states cfg reserved groupKey history pending now mono).1.toTaint) ∧
    (planCycle cfg orders mem states pending).AllReturn fun plan => ∀ p ∈ plan.groups,
      0 < p.surplus → 0 < requiredSpare cfg p.nodes →
        (∀ n ∈ p.nodes, n.name ∈ plan.desiredTaint → KeepsSpare cfg p.nodes plan.desiredTaint) ∧
        ∀ t q, Trace (act cfg orders mem states plan) t q → ∀ n ∈ p.nodes, n.name ∈ taintedIn t →
          KeepsSpare cfg p.nodes (taintedIn t) := by
  refine ⟨fun _ _ _ _ _ p hp hsurplus hrequired n hn => keepsSpare_computeTaints hp hsurplus
    hrequired hn, ?_⟩
  refine AllReturn.mono allReturn_planCycle ?_
  rintro plan ⟨now, mono, hplan⟩ p hp hsurplus hrequired
  have hwanted : ∀ n ∈ p.nodes, n.name ∈ plan.desiredTaint →
      KeepsSpare cfg p.nodes plan.desiredTaint := fun n hn hmem =>
    (keepsSpare_computeTaints (hplan.groups_eq ▸ hp) hsurplus hrequired hn
      (hplan.taint_sub hmem)).anti hplan.taint_sub
  refine ⟨hwanted, fun t q ht n hn hmem => ?_⟩
  have hsub : taintedIn t ⊆ plan.desiredTaint := by
    intro x hx
    obtain ⟨e, he, ops, hop⟩ := mem_taintedIn.mp hx
    exact (onlyCalls_act_taints orders mem plan).of_trace ht e he x ops hop
  exact (hwanted n hn (hsub hmem)).anti hsub

end Keeping

/-- Two idle nodes, of which one is needed. -/
def idleNodes : NodeMap where
  values := [makeNode "n1" 0 false [], makeNode "n2" 0 false []]
  nodup := by decide

/-- An hour later on an empty memory. -/
def anHourLater : Cluster := { loadedNodes with clock := fun _ => (3600, 0) }

/-- The plan of a cycle on some nodes an hour after they were created. -/
def planAnHourLater (mem : Memory) (states : NodeMap) : CyclePlan :=
  ((planCycle spareConfig sortedOrders mem states []).run serve anHourLater).1

/-- One of the idle nodes is tainted, and the other stays spare. -/
theorem taints_keepSpare_idleNodes :
    (∃ p ∈ (planAnHourLater .initial idleNodes).groups, ∃ n ∈ p.nodes,
      n.name ∈ (planAnHourLater .initial idleNodes).desiredTaint ∧
      KeepsSpare spareConfig p.nodes (planAnHourLater .initial idleNodes).desiredTaint) ∧
    ∃ p ∈ (groupPlans idleNodes spareConfig NodeState.nodepool none [] 3600 0).1,
      KeepsSpare spareConfig p.nodes
        (computeTaints idleNodes spareConfig ∅ NodeState.nodepool none [] 3600 0).1.toTaint := by
  have h := taints_keepSpare spareConfig sortedOrders .initial idleNodes []
  constructor
  · obtain ⟨p, hp⟩ := List.exists_mem_of_ne_nil (planAnHourLater .initial idleNodes).groups
      (List.length_pos_iff.mp (by decide +kernel))
    have hp' : 0 < p.surplus ∧ 0 < requiredSpare spareConfig p.nodes ∧ ∃ n ∈ p.nodes,
        n.name ∈ (planAnHourLater .initial idleNodes).desiredTaint := by
      revert p
      decide +kernel
    obtain ⟨hsurplus, hrequired, n, hn, hmem⟩ := hp'
    exact ⟨p, hp, n, hn, hmem,
      (h.2.run anHourLater p hp hsurplus hrequired).1 n hn hmem⟩
  · obtain ⟨p, hp⟩ := List.exists_mem_of_ne_nil
      (groupPlans idleNodes spareConfig NodeState.nodepool none [] 3600 0).1
      (List.length_pos_iff.mp (by decide +kernel))
    have hp' : 0 < p.surplus ∧ 0 < requiredSpare spareConfig p.nodes ∧ ∃ n ∈ p.nodes, n.name ∈
        (computeTaints idleNodes spareConfig ∅ NodeState.nodepool none [] 3600 0).1.toTaint := by
      revert p
      decide +kernel
    obtain ⟨hsurplus, hrequired, n, hn, hmem⟩ := hp'
    exact ⟨p, hp, h.1 ∅ NodeState.nodepool none 3600 0 p hp hsurplus hrequired n hn hmem⟩

/-! ### Restoring the requirement -/

section Restoring

variable {cfg : Config} {now : ℚ} {reserved : Finset String} {nodes : List NodeState}

/-- The lightly used nodes that are untainted, or are untainted in any case because they are
reserved or young. -/
def assuredSpare (cfg : Config) (now : ℚ) (reserved : Finset String) (nodes : List NodeState) :
    List NodeState :=
  nodes.filter fun n =>
    (!n.isTainted || isExempt cfg now reserved n) && n.utilization ≤ cfg.spareCapacityThreshold

/-- The other lightly used nodes: tainted, not reserved and old enough. -/
def restorable (cfg : Config) (now : ℚ) (reserved : Finset String) (nodes : List NodeState) :
    List NodeState :=
  nodes.filter fun n =>
    n.isTainted && !isExempt cfg now reserved n && n.utilization ≤ cfg.spareCapacityThreshold

/-- As many of them are untainted at once as the requirement needs, or all of them. -/
def RestoresSpare (cfg : Config) (now : ℚ) (reserved : Finset String) (nodes : List NodeState)
    (mandatoryUntaint : Finset String) : Prop :=
  min (requiredSpare cfg nodes - (assuredSpare cfg now reserved nodes).length)
      (restorable cfg now reserved nodes).length ≤
    (((restorable cfg now reserved nodes).filter (·.name ∈ mandatoryUntaint)).length : ℤ)

instance (cfg : Config) (now : ℚ) (reserved : Finset String) (nodes : List NodeState)
    (mandatoryUntaint : Finset String) :
    Decidable (RestoresSpare cfg now reserved nodes mandatoryUntaint) :=
  inferInstanceAs (Decidable (_ ≤ _))

/-- A loop that taints nothing puts nothing among the mandatory untaints. -/
theorem mandatoryUntaint_loopAfter {g : LoopContext} (hg : g.WellFormed)
    (hnone : (taintLoop g).toTaint = ∅) {pre post : List NodeState}
    (h : g.candidates = pre ++ post) : (loopAfter g pre).mandatoryUntaint = ∅ := by
  induction pre using List.reverseRecOn generalizing post with
  | nil => rfl
  | append_singleton pre n ih =>
    have h' : g.candidates = pre ++ n :: post := by simpa using h
    have hinv := loopInv_loopAfter hg h'
    have hempty : (loopAfter g pre).toTaint = ∅ :=
      Finset.subset_empty.mp (hnone ▸ toTaint_loopAfter_subset h')
    have hcount : (loopAfter g pre).taintCount < g.surplus := by
      rw [hinv.taintCount_eq, hempty]
      exact hg.surplus_pos
    rw [loopAfter_append_singleton, taintStep]
    have hpast : verdict g (loopAfter g pre) n ≠ .pastSurplus := by
      unfold verdict
      rw [if_neg (not_le.mpr hcount)]
      split
      · simp
      split
      · simp
      split <;> simp
    cases hv : verdict g (loopAfter g pre) n with
    | pastSurplus => exact absurd hv hpast
    | _ => exact ih h'

/-- Where the requirement is missed the pass over a group taints nothing, and untaints at once
the reserved and young nodes only. -/
theorem mandatoryUntaint_decideGroup {surplus : ℤ} (hnodup : (nodes.map NodeState.name).Nodup)
    (hsurplus : 0 < surplus)
    (hmissed : countSpareNodes nodes none ∅ cfg.spareCapacityThreshold < requiredSpare cfg nodes) :
    (decideGroup cfg now reserved nodes surplus).mandatoryUntaint =
      taintedNames (nodes.filter (isExempt cfg now reserved)) := by
  have hg := loopContext_wellFormed cfg now reserved hnodup hsurplus
  have hnone : (taintLoop (loopContext cfg now reserved nodes surplus)).toTaint = ∅ := by
    rcases (loopInv_taintLoop hg).spare with hempty | hnone | hspare
    · exact hempty
    · have hpos : 0 < requiredSpare cfg nodes := (Int.natCast_nonneg _).trans_lt hmissed
      exact absurd hpos (not_lt.mpr hnone)
    · have hle := hspare.trans (Int.ofNat_le.mpr
        (countSpareNodes_anti (Finset.empty_subset _) cfg.spareCapacityThreshold))
      exact absurd hmissed (not_lt.mpr hle)
  rw [decideGroup_eq_beforeRecovery hnodup hsurplus]
  have hloop := mandatoryUntaint_loopAfter hg hnone (List.append_nil _).symm
  rw [← taintLoop_eq] at hloop
  change _ ∪ _ = _
  rw [hloop, Finset.union_empty]

/-- None of the nodes that could restore the requirement is untainted at once. -/
theorem restorable_filter_eq_nil {surplus : ℤ} (hnodup : (nodes.map NodeState.name).Nodup)
    (hsurplus : 0 < surplus)
    (hmissed : countSpareNodes nodes none ∅ cfg.spareCapacityThreshold < requiredSpare cfg nodes) :
    (restorable cfg now reserved nodes).filter
      (·.name ∈ (decideGroup cfg now reserved nodes surplus).mandatoryUntaint) = [] := by
  rw [mandatoryUntaint_decideGroup hnodup hsurplus hmissed, List.filter_eq_nil_iff]
  intro n hn hmem
  simp only [restorable, List.mem_filter, Bool.and_eq_true, Bool.not_eq_true'] at hn
  obtain ⟨m, hm, hexempt, -, hname⟩ := mem_taintedNames_exempt.mp (of_decide_eq_true hmem)
  have heq : m = n := eq_of_name_eq hnodup hm hn.1 hname
  rw [heq, hn.2.1.2] at hexempt
  cases hexempt

end Restoring

/-- **Recovery comes too late.** In a group that misses its spare requirement, the nodes that the
requirement needs are untainted at once exactly if it needs none: there is none to untaint, or the
reserved and young nodes are enough. -/
theorem restoresSpare_iff {states : NodeMap} {cfg : Config} {reserved : Finset String}
    {groupKey : NodeState → String} {history : Option PeakHistory} {pending : List Pod}
    {now mono : ℚ} {p : GroupPlan}
    (hp : p ∈ (groupPlans states cfg groupKey history pending now mono).1)
    (hsurplus : 0 < p.surplus)
    (hmissed : countSpareNodes p.nodes none ∅ cfg.spareCapacityThreshold <
      requiredSpare cfg p.nodes) :
    RestoresSpare cfg now reserved p.nodes
        (computeTaints states cfg reserved groupKey history pending now mono).1.mandatoryUntaint ↔
      restorable cfg now reserved p.nodes = [] ∨
        requiredSpare cfg p.nodes ≤ (assuredSpare cfg now reserved p.nodes).length := by
  have hnodup := nodup_of_mem_groupPlans hp
  have hnone : (restorable cfg now reserved p.nodes).filter (·.name ∈
      (computeTaints states cfg reserved groupKey history pending now mono).1.mandatoryUntaint) =
        [] := by
    rw [← restorable_filter_eq_nil hnodup hsurplus hmissed]
    refine List.filter_congr fun n hn => decide_eq_decide.mpr ?_
    exact mem_mandatoryUntaint_of_mem hp (List.mem_map_of_mem (List.mem_filter.mp hn).1)
  rw [RestoresSpare, hnone, ← List.length_eq_zero_iff, List.length_nil]
  omega

/-- Where both tainted nodes are reserved, they are untainted at once. -/
theorem restoresSpare_skippedNodes :
    ∃ p ∈ (groupPlans skippedNodes spareConfig NodeState.nodepool none [] 3600 0).1,
      RestoresSpare spareConfig 3600 {"n1", "n2"} p.nodes (computeTaints skippedNodes spareConfig
        {"n1", "n2"} NodeState.nodepool none [] 3600 0).1.mandatoryUntaint := by
  obtain ⟨p, hp⟩ := List.exists_mem_of_ne_nil
    (groupPlans skippedNodes spareConfig NodeState.nodepool none [] 3600 0).1
    (List.length_pos_iff.mp (by decide +kernel))
  have hp' : 0 < p.surplus ∧ (countSpareNodes p.nodes none ∅ spareConfig.spareCapacityThreshold <
      requiredSpare spareConfig p.nodes) ∧
      restorable spareConfig 3600 {"n1", "n2"} p.nodes = [] := by
    revert p
    decide +kernel
  obtain ⟨hsurplus, hmissed, hnil⟩ := hp'
  exact ⟨p, hp, (restoresSpare_iff hp hsurplus hmissed).mpr (Or.inl hnil)⟩

/-- A memory of having tainted both nodes ten seconds ago. -/
def taintedRecently : Memory :=
  { Memory.initial with taintTimes := fun name => if name = "n3" then none else some 3590 }

/-- One spare node is required and there is none, but neither of the two lightly used tainted
nodes is untainted at once, and the cycle leaves both tainted. -/
theorem skippedNodes_not_restoresSpare :
    (∃ p ∈ (groupPlans skippedNodes spareConfig NodeState.nodepool none [] 3600 0).1,
      0 < p.surplus ∧ countSpareNodes p.nodes none ∅ spareConfig.spareCapacityThreshold <
        requiredSpare spareConfig p.nodes ∧
      ¬ RestoresSpare spareConfig 3600 ∅ p.nodes (computeTaints skippedNodes spareConfig ∅
        NodeState.nodepool none [] 3600 0).1.mandatoryUntaint) ∧
    (planAnHourLater taintedRecently skippedNodes).cooldownBlocked = {"n1", "n2"} ∧
      (planAnHourLater taintedRecently skippedNodes).desiredUntaint = ∅ := by
  decide +kernel

end CiInfra.Compactor

import CiInfra.Compactor.TaintLoop

/-!
# The result sets of `computeTaints`

Each group's pass is sound for its own nodes; the passes do not meet, because the
groups share no node. What holds of every pass therefore holds of the united sets.
-/

namespace CiInfra.Compactor

open Kube

/-! ### One group -/

/-- What the pass over a group guarantees about its four sets. -/
structure Decision.SoundFor (cfg : Config) (now : ℚ) (reserved : Finset String)
    (nodes : List NodeState) (surplus : ℤ) (d : Decision) : Prop where
  toTaint_sub : ∀ x ∈ d.toTaint, x ∈ nodes.map NodeState.name
  toUntaint_sub : ∀ x ∈ d.toUntaint, ∃ n ∈ nodes, n.isTainted = true ∧ n.name = x
  mandatory_sub : ∀ x ∈ d.mandatoryUntaint, x ∈ d.toUntaint
  rateLimited_sub : ∀ x ∈ d.rateLimited, ∃ n ∈ nodes, n.isTainted = false ∧ n.name = x
  disjoint : ∀ x ∈ d.toTaint, x ∉ d.toUntaint
  rateLimited_disjoint : ∀ x ∈ d.rateLimited, x ∉ d.toTaint
  decided : ∀ n ∈ nodes, n.isTainted = true → n.name ∈ d.toTaint ∨ n.name ∈ d.toUntaint
  exempt : ∀ n ∈ nodes, isExempt cfg now reserved n = true →
    n.name ∉ d.toTaint ∧ (n.isTainted = true → n.name ∈ d.mandatoryUntaint)
  card_le : (d.toTaint.card : ℤ) ≤ max 0 surplus
  new_le : ((d.toTaint \ taintedNames nodes).card : ℤ) ≤ max 1 ⌈surplus * cfg.taintRate⌉

variable {cfg : Config} {now : ℚ} {reserved : Finset String} {nodes : List NodeState}
  {surplus : ℤ}

theorem mem_candidates {n : NodeState} :
    n ∈ (loopContext cfg now reserved nodes surplus).candidates ↔
      n ∈ nodes ∧ isExempt cfg now reserved n = false := by
  simp only [loopContext, (List.perm_insertionSort _ _).mem_iff, List.mem_filter,
    Bool.not_eq_true']

/-- The inputs that `decideGroup` gives the loop are well formed. -/
theorem loopContext_wellFormed (cfg : Config) (now : ℚ) (reserved : Finset String)
    (hnodup : (nodes.map NodeState.name).Nodup) (hsurplus : 0 < surplus) :
    (loopContext cfg now reserved nodes surplus).WellFormed where
  nodup := hnodup
  candidates_nodup := by
    have hperm := List.perm_insertionSort
      (fun n n' => taintPriority cfg now n ≤ taintPriority cfg now n')
      (nodes.filter fun n => !isExempt cfg now reserved n)
    exact (hperm.map NodeState.name).nodup_iff.mpr
      (hnodup.sublist (List.filter_sublist.map NodeState.name))
  candidates_sub n hn := (mem_candidates.mp hn).1
  surplus_pos := hsurplus
  maxNewTaints_pos := lt_max_of_lt_left Int.one_pos

/-- The decision before recovery: the loop's sets with the exempt nodes added. -/
def beforeRecovery (cfg : Config) (now : ℚ) (reserved : Finset String) (nodes : List NodeState)
    (surplus : ℤ) : Decision :=
  let exempt := taintedNames (nodes.filter (isExempt cfg now reserved))
  let st := taintLoop (loopContext cfg now reserved nodes surplus)
  { st.toDecision with
    toUntaint := exempt ∪ st.toUntaint
    mandatoryUntaint := exempt ∪ st.mandatoryUntaint }

theorem decideGroup_of_pos (hsurplus : 0 < surplus) :
    decideGroup cfg now reserved nodes surplus =
      spareRecovery (loopContext cfg now reserved nodes surplus)
        (beforeRecovery cfg now reserved nodes surplus) := by
  rw [decideGroup, if_neg (by omega)]
  rfl

theorem mem_taintedNames_exempt {x : String} :
    x ∈ taintedNames (nodes.filter (isExempt cfg now reserved)) ↔
      ∃ n ∈ nodes, isExempt cfg now reserved n = true ∧ n.isTainted = true ∧ n.name = x := by
  simp only [mem_taintedNames, List.mem_filter, and_assoc]

/-- The pass over the candidates and the exempt nodes is sound. -/
theorem beforeRecovery_sound (hnodup : (nodes.map NodeState.name).Nodup) (hsurplus : 0 < surplus) :
    (beforeRecovery cfg now reserved nodes surplus).SoundFor cfg now reserved nodes surplus := by
  have hinv := loopInv_taintLoop (loopContext_wellFormed cfg now reserved hnodup hsurplus)
  have hcand : ∀ n ∈ (loopContext cfg now reserved nodes surplus).candidates,
      n ∈ nodes ∧ isExempt cfg now reserved n = false := fun n hn => mem_candidates.mp hn
  have hexempt : ∀ n ∈ nodes, isExempt cfg now reserved n = true →
      n.name ∉ (loopContext cfg now reserved nodes surplus).candidates.map NodeState.name := by
    intro n hn he hmem
    obtain ⟨m, hm, hname⟩ := List.mem_map.mp hmem
    have := eq_of_name_eq hnodup (hcand m hm).1 hn hname
    rw [← this, (hcand m hm).2] at he
    cases he
  constructor
  · intro x hx
    obtain ⟨n, hn, rfl⟩ := List.mem_map.mp (hinv.toTaint_sub x hx)
    exact List.mem_map_of_mem (hcand n hn).1
  · intro x hx
    rcases Finset.mem_union.mp hx with hx | hx
    · obtain ⟨n, hn, _, ht, rfl⟩ := mem_taintedNames_exempt.mp hx
      exact ⟨n, hn, ht, rfl⟩
    · obtain ⟨n, hn, ht, rfl⟩ := hinv.toUntaint_sub x hx
      exact ⟨n, (hcand n hn).1, ht, rfl⟩
  · intro x hx
    rcases Finset.mem_union.mp hx with hx | hx
    · exact Finset.mem_union_left _ hx
    · exact Finset.mem_union_right _ (hinv.mandatory_sub x hx)
  · intro x hx
    obtain ⟨n, hn, ht, rfl⟩ := hinv.rateLimited_sub x hx
    exact ⟨n, (hcand n hn).1, ht, rfl⟩
  · intro x hx hx'
    rcases Finset.mem_union.mp hx' with hx' | hx'
    · obtain ⟨n, hn, he, _, rfl⟩ := mem_taintedNames_exempt.mp hx'
      exact hexempt n hn he (hinv.toTaint_sub _ hx)
    · exact hinv.disjoint x hx hx'
  · exact hinv.rateLimited_disjoint
  · intro n hn ht
    by_cases he : isExempt cfg now reserved n = true
    · exact Or.inr (Finset.mem_union_left _ (mem_taintedNames_exempt.mpr ⟨n, hn, he, ht, rfl⟩))
    · have hn' : n ∈ (loopContext cfg now reserved nodes surplus).candidates :=
        mem_candidates.mpr ⟨hn, by simpa using he⟩
      exact (hinv.decided n hn' ht).imp_right (Finset.mem_union_right _)
  · intro n hn he
    refine ⟨fun hx => hexempt n hn he (hinv.toTaint_sub _ hx), fun ht => ?_⟩
    exact Finset.mem_union_left _ (mem_taintedNames_exempt.mpr ⟨n, hn, he, ht, rfl⟩)
  · have hle := hinv.taintCount_le
    rw [hinv.taintCount_eq] at hle
    exact le_max_of_le_right hle
  · have hle := hinv.newTaintCount_le
    rw [hinv.newTaintCount_eq] at hle
    exact hle

/-- Recovery keeps soundness: it moves tainted nodes from one decided side to the other. -/
theorem Decision.SoundFor.recover {d : Decision} {moved : List NodeState}
    (h : d.SoundFor cfg now reserved nodes surplus)
    (hmoved : ∀ n ∈ moved, n ∈ nodes ∧ n.isTainted = true) :
    (d.recover moved).SoundFor cfg now reserved nodes surplus := by
  have hmem : ∀ x, x ∈ (moved.map NodeState.name).toFinset ↔ ∃ n ∈ moved, n.name = x := by
    simp
  have hsub : (d.recover moved).toTaint ⊆ d.toTaint := Finset.sdiff_subset
  constructor
  · exact fun x hx => h.toTaint_sub x (hsub hx)
  · intro x hx
    rcases Finset.mem_union.mp hx with hx | hx
    · exact h.toUntaint_sub x hx
    · obtain ⟨n, hn, rfl⟩ := (hmem x).mp hx
      exact ⟨n, (hmoved n hn).1, (hmoved n hn).2, rfl⟩
  · intro x hx
    rcases Finset.mem_union.mp hx with hx | hx
    · exact Finset.mem_union_left _ (h.mandatory_sub x hx)
    · exact Finset.mem_union_right _ hx
  · exact h.rateLimited_sub
  · intro x hx hx'
    obtain ⟨hx, hnot⟩ := Finset.mem_sdiff.mp hx
    rcases Finset.mem_union.mp hx' with hx' | hx'
    · exact h.disjoint x hx hx'
    · exact hnot hx'
  · exact fun x hx hx' => h.rateLimited_disjoint x hx (hsub hx')
  · intro n hn ht
    by_cases hm : n.name ∈ (moved.map NodeState.name).toFinset
    · exact Or.inr (Finset.mem_union_right _ hm)
    · exact (h.decided n hn ht).imp (fun hx => Finset.mem_sdiff.mpr ⟨hx, hm⟩)
        (Finset.mem_union_left _)
  · intro n hn he
    obtain ⟨hnot, hmand⟩ := h.exempt n hn he
    exact ⟨fun hx => hnot (hsub hx), fun ht => Finset.mem_union_left _ (hmand ht)⟩
  · have := Finset.card_le_card hsub
    have := h.card_le
    omega
  · have := Finset.card_le_card (Finset.sdiff_subset_sdiff hsub (Finset.Subset.refl
      (taintedNames nodes)))
    have := h.new_le
    omega

/-- **The pass over any group is sound.** -/
theorem decideGroup_sound (cfg : Config) (now : ℚ) (reserved : Finset String) (surplus : ℤ)
    (hnodup : (nodes.map NodeState.name).Nodup) :
    (decideGroup cfg now reserved nodes surplus).SoundFor cfg now reserved nodes surplus := by
  by_cases hsurplus : surplus ≤ 0
  · rw [decideGroup, if_pos hsurplus]
    constructor
    · simp [Decision.empty]
    · exact fun x hx => mem_taintedNames.mp hx
    · exact fun x hx => hx
    · simp [Decision.empty]
    · simp [Decision.empty]
    · simp [Decision.empty]
    · exact fun n hn ht => Or.inr (mem_taintedNames.mpr ⟨n, hn, ht, rfl⟩)
    · intro n hn _
      exact ⟨by simp [Decision.empty], fun ht => mem_taintedNames.mpr ⟨n, hn, ht, rfl⟩⟩
    · simp [Decision.empty]
    · simp [Decision.empty]
  · rw [decideGroup_of_pos (by omega)]
    obtain ⟨moved, heq, hmoved, _⟩ := exists_spareRecovery
      (loopContext cfg now reserved nodes surplus) (beforeRecovery cfg now reserved nodes surplus)
    rw [heq]
    exact (beforeRecovery_sound hnodup (by omega)).recover fun n hn =>
      ⟨(hmoved n hn).1, (hmoved n hn).2.1⟩

/-! ### The groups of a call -/

theorem map_planGroups (cfg : Config) (now mono : ℚ) (pendingPods : List Pod)
    (history : Option PeakHistory) (groups : List (String × List NodeState)) :
    (planGroups cfg now mono pendingPods history groups).1.map (fun p => (p.name, p.nodes)) =
      groups := by
  induction groups generalizing history with
  | nil => rfl
  | cons g rest ih => simp only [planGroups, List.map_cons, ih]

section Plans

variable {m : NodeMap} {groupKey : NodeState → String} {peakHistory : Option PeakHistory}
  {pendingPods : List Pod} {mono : ℚ}

theorem map_groupPlans (m : NodeMap) (cfg : Config) (groupKey : NodeState → String)
    (peakHistory : Option PeakHistory) (pendingPods : List Pod) (now mono : ℚ) :
    (groupPlans m cfg groupKey peakHistory pendingPods now mono).1.map
      (fun p => (p.name, p.nodes)) = Grouping.groupBy groupKey m.values :=
  map_planGroups _ _ _ _ _ _

/-- A plan's nodes are the nodes with the plan's key. -/
theorem nodes_of_mem_groupPlans {p : GroupPlan}
    (hp : p ∈ (groupPlans m cfg groupKey peakHistory pendingPods now mono).1) :
    p.nodes = m.values.filter fun n => groupKey n = p.name := by
  have hmem := List.mem_map_of_mem (f := fun p : GroupPlan => (p.name, p.nodes)) hp
  rw [map_groupPlans] at hmem
  exact (Grouping.mem_groupBy.mp hmem).2

theorem nodup_of_mem_groupPlans {p : GroupPlan}
    (hp : p ∈ (groupPlans m cfg groupKey peakHistory pendingPods now mono).1) :
    (p.nodes.map NodeState.name).Nodup := by
  rw [nodes_of_mem_groupPlans hp]
  exact m.nodup.sublist (List.filter_sublist.map NodeState.name)

/-- Two plans that share a node name are the same plan. -/
theorem eq_of_mem_groupPlans {p p' : GroupPlan}
    (hp : p ∈ (groupPlans m cfg groupKey peakHistory pendingPods now mono).1)
    (hp' : p' ∈ (groupPlans m cfg groupKey peakHistory pendingPods now mono).1) {x : String}
    (hx : x ∈ p.nodes.map NodeState.name) (hx' : x ∈ p'.nodes.map NodeState.name) : p = p' := by
  have hnames : ((groupPlans m cfg groupKey peakHistory pendingPods now mono).1.map
      GroupPlan.name).Nodup := by
    have h := (Grouping.groupBy_spec groupKey m.values).1
    rw [← map_groupPlans m cfg groupKey peakHistory pendingPods now mono, List.map_map] at h
    exact h
  rw [nodes_of_mem_groupPlans hp] at hx
  rw [nodes_of_mem_groupPlans hp'] at hx'
  obtain ⟨n, hn, rfl⟩ := List.mem_map.mp hx
  obtain ⟨n', hn', hname⟩ := List.mem_map.mp hx'
  simp only [List.mem_filter, decide_eq_true_eq] at hn hn'
  have heq := NodeMap.eq_of_name_eq hn'.1 hn.1 hname
  rw [heq] at hn'
  exact List.inj_on_of_nodup_map hnames hp hp' (hn.2.symm.trans hn'.2)

/-- Every node is in a plan. -/
theorem exists_groupPlan (cfg : Config) (groupKey : NodeState → String)
    (peakHistory : Option PeakHistory) (pendingPods : List Pod) (now mono : ℚ) {n : NodeState}
    (hn : n ∈ m.values) :
    ∃ p ∈ (groupPlans m cfg groupKey peakHistory pendingPods now mono).1, n ∈ p.nodes := by
  have hmem : (groupKey n, m.values.filter fun a => groupKey a = groupKey n) ∈
      Grouping.groupBy groupKey m.values :=
    Grouping.mem_groupBy.mpr ⟨List.mem_map_of_mem hn, rfl⟩
  rw [← map_groupPlans m cfg groupKey peakHistory pendingPods now mono] at hmem
  obtain ⟨p, hp, heq⟩ := List.mem_map.mp hmem
  refine ⟨p, hp, ?_⟩
  rw [(Prod.mk.inj heq).2]
  simp [hn]

/-! ### The united sets -/

/-- Reading one of the four sets commutes with uniting decisions. -/
structure UnionReader (read : Decision → Finset String) : Prop where
  empty : read Decision.empty = ∅
  union : ∀ d d', read (d.union d') = read d ∪ read d'

theorem unionReader_toTaint : UnionReader Decision.toTaint := ⟨rfl, fun _ _ => rfl⟩

theorem unionReader_toUntaint : UnionReader Decision.toUntaint := ⟨rfl, fun _ _ => rfl⟩

theorem unionReader_mandatoryUntaint : UnionReader Decision.mandatoryUntaint :=
  ⟨rfl, fun _ _ => rfl⟩

theorem unionReader_rateLimited : UnionReader Decision.rateLimited := ⟨rfl, fun _ _ => rfl⟩

theorem UnionReader.mem_foldl {read : Decision → Finset String} (hread : UnionReader read)
    {ds : List Decision} {d : Decision} {x : String} :
    x ∈ read (ds.foldl Decision.union d) ↔ x ∈ read d ∨ ∃ d' ∈ ds, x ∈ read d' := by
  induction ds generalizing d with
  | nil => simp
  | cons d' ds ih =>
    rw [List.foldl_cons, ih, hread.union, Finset.mem_union]
    simp [or_assoc]

/-- A name is in a united set iff some group's pass put it there. -/
theorem UnionReader.mem_computeTaints {read : Decision → Finset String} (hread : UnionReader read)
    {x : String} :
    x ∈ read (computeTaints m cfg reserved groupKey peakHistory pendingPods now mono).1 ↔
      ∃ p ∈ (groupPlans m cfg groupKey peakHistory pendingPods now mono).1,
        x ∈ read (decideGroup cfg now reserved p.nodes p.surplus) := by
  unfold computeTaints
  split
  · rename_i hempty
    have hplans : (groupPlans m cfg groupKey peakHistory pendingPods now mono).1 = [] := by
      have h := map_groupPlans m cfg groupKey peakHistory pendingPods now mono
      rw [List.isEmpty_iff.mp hempty] at h
      exact List.map_eq_nil_iff.mp h
    rw [hplans]
    simp [hread.empty]
  · simp only [hread.mem_foldl, hread.empty, List.mem_map]
    simp

/-- The names in any of the sets of a group's pass are names of the group. -/
theorem Decision.SoundFor.name_mem {d : Decision}
    (h : d.SoundFor cfg now reserved nodes surplus) {x : String}
    (hx : x ∈ d.toTaint ∨ x ∈ d.toUntaint ∨ x ∈ d.mandatoryUntaint ∨ x ∈ d.rateLimited) :
    x ∈ nodes.map NodeState.name := by
  have huntaint : ∀ y ∈ d.toUntaint, y ∈ nodes.map NodeState.name := by
    intro y hy
    obtain ⟨n, hn, _, rfl⟩ := h.toUntaint_sub y hy
    exact List.mem_map_of_mem hn
  rcases hx with hx | hx | hx | hx
  · exact h.toTaint_sub x hx
  · exact huntaint x hx
  · exact huntaint x (h.mandatory_sub x hx)
  · obtain ⟨n, hn, _, rfl⟩ := h.rateLimited_sub x hx
    exact List.mem_map_of_mem hn

/-- Among the names of a group, the united sets are those of the group's own pass. -/
theorem mem_computeTaints_of_mem {read : Decision → Finset String} (hread : UnionReader read)
    (hnames : ∀ d x, x ∈ read d → x ∈ d.toTaint ∨ x ∈ d.toUntaint ∨ x ∈ d.mandatoryUntaint ∨
      x ∈ d.rateLimited) {p : GroupPlan}
    (hp : p ∈ (groupPlans m cfg groupKey peakHistory pendingPods now mono).1) {x : String}
    (hx : x ∈ p.nodes.map NodeState.name) :
    x ∈ read (computeTaints m cfg reserved groupKey peakHistory pendingPods now mono).1 ↔
      x ∈ read (decideGroup cfg now reserved p.nodes p.surplus) := by
  rw [hread.mem_computeTaints]
  constructor
  · rintro ⟨p', hp', hx'⟩
    have hsound := decideGroup_sound cfg now reserved p'.surplus (nodup_of_mem_groupPlans hp')
    rwa [eq_of_mem_groupPlans hp hp' hx (hsound.name_mem (hnames _ _ hx'))]
  · exact fun h => ⟨p, hp, h⟩

theorem mem_toTaint_of_mem {p : GroupPlan}
    (hp : p ∈ (groupPlans m cfg groupKey peakHistory pendingPods now mono).1) {x : String}
    (hx : x ∈ p.nodes.map NodeState.name) :
    x ∈ (computeTaints m cfg reserved groupKey peakHistory pendingPods now mono).1.toTaint ↔
      x ∈ (decideGroup cfg now reserved p.nodes p.surplus).toTaint :=
  mem_computeTaints_of_mem unionReader_toTaint (fun _ _ => Or.inl) hp hx

theorem mem_toUntaint_of_mem {p : GroupPlan}
    (hp : p ∈ (groupPlans m cfg groupKey peakHistory pendingPods now mono).1) {x : String}
    (hx : x ∈ p.nodes.map NodeState.name) :
    x ∈ (computeTaints m cfg reserved groupKey peakHistory pendingPods now mono).1.toUntaint ↔
      x ∈ (decideGroup cfg now reserved p.nodes p.surplus).toUntaint :=
  mem_computeTaints_of_mem unionReader_toUntaint (fun _ _ h => Or.inr (Or.inl h)) hp hx

theorem mem_mandatoryUntaint_of_mem {p : GroupPlan}
    (hp : p ∈ (groupPlans m cfg groupKey peakHistory pendingPods now mono).1) {x : String}
    (hx : x ∈ p.nodes.map NodeState.name) :
    x ∈ (computeTaints m cfg reserved groupKey peakHistory pendingPods now
        mono).1.mandatoryUntaint ↔
      x ∈ (decideGroup cfg now reserved p.nodes p.surplus).mandatoryUntaint :=
  mem_computeTaints_of_mem unionReader_mandatoryUntaint
    (fun _ _ h => Or.inr (Or.inr (Or.inl h))) hp hx

/-- The taints of a group, as the part of the united set with the group's names. -/
theorem filter_toTaint_eq {p : GroupPlan}
    (hp : p ∈ (groupPlans m cfg groupKey peakHistory pendingPods now mono).1) :
    (computeTaints m cfg reserved groupKey peakHistory pendingPods now mono).1.toTaint.filter
        (· ∈ p.nodes.map NodeState.name) =
      (decideGroup cfg now reserved p.nodes p.surplus).toTaint := by
  ext x
  rw [Finset.mem_filter]
  constructor
  · rintro ⟨hx, hname⟩
    exact (mem_toTaint_of_mem hp hname).mp hx
  · intro hx
    have hname := (decideGroup_sound cfg now reserved p.surplus
      (nodup_of_mem_groupPlans hp)).toTaint_sub x hx
    exact ⟨(mem_toTaint_of_mem hp hname).mpr hx, hname⟩

end Plans

/-! ### Consistency and completeness -/

/-- The four sets are consistent and complete: taints and untaints are disjoint, only
tainted nodes are untainted, mandatory untaints are untaints, every tainted node is decided
exactly once, rate-limited nodes are untainted and not tainted now, reserved and young nodes
are never tainted and mandatorily untainted; and in each group the taints are within the
surplus and the new taints within the rate. -/
theorem computeTaints_consistent (m : NodeMap) (cfg : Config) (reserved : Finset String)
    (groupKey : NodeState → String) (peakHistory : Option PeakHistory) (pendingPods : List Pod)
    (now mono : ℚ) :
    let d := (computeTaints m cfg reserved groupKey peakHistory pendingPods now mono).1
    Disjoint d.toTaint d.toUntaint ∧
    d.mandatoryUntaint ⊆ d.toUntaint ∧
    (∀ x ∈ d.toUntaint, ∃ n ∈ m.values, n.name = x ∧ n.isTainted = true) ∧
    (∀ n ∈ m.values, n.isTainted = true →
      (n.name ∈ d.toTaint ∧ n.name ∉ d.toUntaint) ∨ (n.name ∉ d.toTaint ∧ n.name ∈ d.toUntaint)) ∧
    (∀ x ∈ d.rateLimited, ∃ n ∈ m.values, n.name = x ∧ n.isTainted = false) ∧
    Disjoint d.rateLimited d.toTaint ∧
    (∀ n ∈ m.values, n.name ∈ reserved ∨ n.uptimeSeconds now < cfg.minNodeAge →
      n.name ∉ d.toTaint ∧ (n.isTainted = true → n.name ∈ d.mandatoryUntaint)) ∧
    ∀ p ∈ (groupPlans m cfg groupKey peakHistory pendingPods now mono).1,
      ((d.toTaint.filter (· ∈ p.nodes.map NodeState.name)).card : ℤ) ≤ max 0 p.surplus ∧
      (((d.toTaint.filter (· ∈ p.nodes.map NodeState.name)) \ taintedNames p.nodes).card : ℤ) ≤
        max 1 ⌈p.surplus * cfg.taintRate⌉ := by
  intro d
  have hsound : ∀ p ∈ (groupPlans m cfg groupKey peakHistory pendingPods now mono).1,
      (decideGroup cfg now reserved p.nodes p.surplus).SoundFor cfg now reserved p.nodes
        p.surplus := fun p hp => decideGroup_sound cfg now reserved _ (nodup_of_mem_groupPlans hp)
  have hnodes : ∀ p ∈ (groupPlans m cfg groupKey peakHistory pendingPods now mono).1,
      ∀ n ∈ p.nodes, n ∈ m.values := by
    intro p hp n hn
    rw [nodes_of_mem_groupPlans hp] at hn
    exact (List.mem_filter.mp hn).1
  have hdisjoint : ∀ x ∈ d.toTaint, x ∉ d.toUntaint := by
    intro x hx hx'
    obtain ⟨p, hp, hxp⟩ := unionReader_toTaint.mem_computeTaints.mp hx
    have hname := (hsound p hp).toTaint_sub x hxp
    exact (hsound p hp).disjoint x hxp ((mem_toUntaint_of_mem hp hname).mp hx')
  refine ⟨Finset.disjoint_left.mpr hdisjoint, ?_, ?_, ?_, ?_, ?_, ?_, ?_⟩
  · intro x hx
    obtain ⟨p, hp, hxp⟩ := unionReader_mandatoryUntaint.mem_computeTaints.mp hx
    exact unionReader_toUntaint.mem_computeTaints.mpr ⟨p, hp, (hsound p hp).mandatory_sub x hxp⟩
  · intro x hx
    obtain ⟨p, hp, hxp⟩ := unionReader_toUntaint.mem_computeTaints.mp hx
    obtain ⟨n, hn, ht, hname⟩ := (hsound p hp).toUntaint_sub x hxp
    exact ⟨n, hnodes p hp n hn, hname, ht⟩
  · intro n hn ht
    obtain ⟨p, hp, hnp⟩ := exists_groupPlan cfg groupKey peakHistory pendingPods now mono hn
    have hname := List.mem_map_of_mem (f := NodeState.name) hnp
    rcases (hsound p hp).decided n hnp ht with hx | hx
    · have hx : n.name ∈ d.toTaint := (mem_toTaint_of_mem hp hname).mpr hx
      exact Or.inl ⟨hx, hdisjoint _ hx⟩
    · have hx : n.name ∈ d.toUntaint := (mem_toUntaint_of_mem hp hname).mpr hx
      exact Or.inr ⟨fun hx' => hdisjoint _ hx' hx, hx⟩
  · intro x hx
    obtain ⟨p, hp, hxp⟩ := unionReader_rateLimited.mem_computeTaints.mp hx
    obtain ⟨n, hn, ht, hname⟩ := (hsound p hp).rateLimited_sub x hxp
    exact ⟨n, hnodes p hp n hn, hname, ht⟩
  · rw [Finset.disjoint_left]
    intro x hx hx'
    obtain ⟨p, hp, hxp⟩ := unionReader_rateLimited.mem_computeTaints.mp hx
    have hname := (hsound p hp).name_mem (Or.inr (Or.inr (Or.inr hxp)))
    exact (hsound p hp).rateLimited_disjoint x hxp ((mem_toTaint_of_mem hp hname).mp hx')
  · intro n hn he
    obtain ⟨p, hp, hnp⟩ := exists_groupPlan cfg groupKey peakHistory pendingPods now mono hn
    have hname := List.mem_map_of_mem (f := NodeState.name) hnp
    have he' : isExempt cfg now reserved n = true := by
      simpa only [isExempt, Bool.or_eq_true, decide_eq_true_eq] using he
    obtain ⟨hnot, hmand⟩ := (hsound p hp).exempt n hnp he'
    exact ⟨fun hx => hnot ((mem_toTaint_of_mem hp hname).mp hx),
      fun ht => (mem_mandatoryUntaint_of_mem hp hname).mpr (hmand ht)⟩
  · intro p hp
    rw [filter_toTaint_eq hp]
    exact ⟨(hsound p hp).card_le, (hsound p hp).new_le⟩

end CiInfra.Compactor

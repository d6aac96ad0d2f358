import CiInfra.Compactor.TaintDecision

/-!
# A second decision on an unchanged cluster

The decision is carried out and taken again. Everything but the taint flags is as before, so
the two passes over a group agree on every candidate but those that the first one skipped for
spare capacity: the untaints of the first pass may have given back the spare they lacked.
-/

namespace CiInfra.Compactor

open Kube

/-- A node after a decision has been carried out. -/
def NodeState.retaint (d : Decision) (n : NodeState) : NodeState :=
  { n with isTainted := n.name ∈ d.toTaint || (n.isTainted && n.name ∉ d.toUntaint) }

/-- The nodes after a decision has been carried out. -/
def NodeMap.retaint (d : Decision) (m : NodeMap) : NodeMap :=
  m.map (NodeState.retaint d) fun _ => rfl

/-- The decision taints no node that is not tainted already, and untaints none. -/
def RequestsNoChange (m : NodeMap) (d : Decision) : Prop :=
  (∀ x ∈ d.toTaint, (m.get? x).any NodeState.isTainted = true) ∧ d.toUntaint = ∅

instance (m : NodeMap) (d : Decision) : Decidable (RequestsNoChange m d) :=
  inferInstanceAs (Decidable (_ ∧ _))

/-- The candidates that the loop skips for spare capacity. -/
def SkippedForSpare (g : LoopContext) (n : NodeState) : Prop :=
  ∃ pre post, g.candidates = pre ++ n :: post ∧
    verdict g (loopAfter g pre) n = .skippedSpareCapacity

/-! ### What does not depend on the taint flags -/

/-- The state in a cluster where the tainted nodes are those named. -/
def NodeState.markIn (T : Finset String) (n : NodeState) : NodeState :=
  { n with isTainted := n.name ∈ T }

section MarkIn

variable (T : Finset String)

@[simp] theorem NodeState.name_markIn (n : NodeState) : (n.markIn T).name = n.name := rfl

@[simp] theorem NodeState.isTainted_markIn (n : NodeState) :
    (n.markIn T).isTainted = decide (n.name ∈ T) := rfl

@[simp] theorem NodeState.realPods_markIn (n : NodeState) : (n.markIn T).realPods =
    n.realPods := rfl

@[simp] theorem NodeState.utilization_markIn (n : NodeState) :
    (n.markIn T).utilization = n.utilization := rfl

/-- How many nodes a group needs does not depend on which are tainted. -/
theorem binPackMinNodes_retaint (d : Decision) (pods : List PodInfo) (nodes : List NodeState) :
    binPackMinNodes pods (nodes.map (NodeState.retaint d)) = binPackMinNodes pods nodes := by
  rw [binPackMinNodes, binPackMinNodes, ← List.map_insertionSort _ _ (NodeState.retaint d) nodes
    fun _ _ _ _ => Iff.rfl, List.map_map, List.isEmpty_map]
  rfl

theorem podsFitOnNodes_markIn (pods : List PodInfo) (nodes : List NodeState) :
    podsFitOnNodes pods (nodes.map (NodeState.markIn T)) = podsFitOnNodes pods nodes := by
  have hremaining : (nodes.map (NodeState.markIn T)).map NodeState.remaining =
      nodes.map NodeState.remaining := by
    rw [List.map_map]
    rfl
  rw [podsFitOnNodes, podsFitOnNodes, hremaining, List.isEmpty_map]

theorem insertionSort_markIn {r : NodeState → NodeState → Prop} [DecidableRel r]
    (hr : ∀ a b, r a b ↔ r (a.markIn T) (b.markIn T)) (nodes : List NodeState) :
    (nodes.map (NodeState.markIn T)).insertionSort r =
      (nodes.insertionSort r).map (NodeState.markIn T) :=
  (List.map_insertionSort r r _ nodes fun a _ b _ => hr a b).symm

/-- The inputs of the loop, with the nodes marked. -/
def LoopContext.markIn (g : LoopContext) : LoopContext :=
  { g with
    groupNodes := g.groupNodes.map (NodeState.markIn T)
    candidates := g.candidates.map (NodeState.markIn T) }

@[simp] theorem LoopContext.surplus_markIn (g : LoopContext) : (g.markIn T).surplus =
    g.surplus := rfl

@[simp] theorem LoopContext.required_markIn (g : LoopContext) :
    (g.markIn T).required = g.required := rfl

@[simp] theorem LoopContext.threshold_markIn (g : LoopContext) :
    (g.markIn T).threshold = g.threshold := rfl

theorem loopContext_markIn (cfg : Config) (now : ℚ) (reserved : Finset String)
    (nodes : List NodeState) (surplus : ℤ) :
    loopContext cfg now reserved (nodes.map (NodeState.markIn T)) surplus =
      (loopContext cfg now reserved nodes surplus).markIn T := by
  have hfilter : (nodes.map (NodeState.markIn T)).filter (fun n => !isExempt cfg now reserved n) =
      (nodes.filter fun n => !isExempt cfg now reserved n).map (NodeState.markIn T) := by
    rw [List.filter_map]
    rfl
  rw [loopContext, loopContext, LoopContext.markIn, hfilter,
    insertionSort_markIn T fun _ _ => Iff.rfl, requiredSpare, requiredSpare, List.length_map]

theorem definitelyRemaining_markIn (g : LoopContext) :
    (g.markIn T).definitelyRemaining = g.definitelyRemaining.map (NodeState.markIn T) :=
  List.map_drop.symm

end MarkIn

/-! ### Two passes side by side -/

/-- The loop over the marked nodes is where the loop over the nodes was. -/
structure Sim (T : Finset String) (st st' : LoopState) : Prop where
  toTaint : st'.toTaint = st.toTaint
  taintCount : st'.taintCount = st.taintCount
  remaining : st'.conditionallyRemaining = st.conditionallyRemaining.map (NodeState.markIn T)

theorem Sim.record {T : Finset String} {st st' : LoopState} (h : Sim T st st') (n : NodeState)
    (v : Verdict) : Sim T (st.record n v) (st'.record (n.markIn T) v) := by
  obtain ⟨htaint, hcount, hremaining⟩ := h
  cases v with
  | pastSurplus =>
    simp only [LoopState.record]
    constructor <;> split <;> split <;> assumption
  | skippedFitSafety => exact ⟨htaint, hcount, by simp [LoopState.record, hremaining]⟩
  | skippedRateLimit => exact ⟨htaint, hcount, by simp [LoopState.record, hremaining]⟩
  | skippedSpareCapacity => exact ⟨htaint, hcount, by simp [LoopState.record, hremaining]⟩
  | tainted =>
    exact ⟨by simp [LoopState.record, htaint], by simp [LoopState.record, hcount], hremaining⟩

section Verdicts

variable {T : Finset String} {g : LoopContext} {st st' : LoopState} {n : NodeState}

/-- The rate limit does not bind: new taints are taints, and those stop at the surplus. -/
theorem verdict_ne_skippedRateLimit (hrate : g.surplus ≤ g.maxNewTaints)
    (hnew : st.newTaintCount ≤ st.taintCount) : verdict g st n ≠ .skippedRateLimit := by
  unfold verdict
  split
  · simp
  split
  · simp
  split
  · rename_i hlimit
    omega
  split <;> simp

/-- The verdict where the rate limit does not bind. -/
theorem verdict_eq_of_ne (h : verdict g st n ≠ .skippedRateLimit) :
    verdict g st n =
      if g.surplus ≤ st.taintCount then .pastSurplus
      else if n.realPods ≠ [] ∧
          ¬ podsFitOnNodes n.realPods (g.definitelyRemaining ++ st.conditionallyRemaining) then
        .skippedFitSafety
      else if 0 < g.required ∧
          countSpareNodes g.groupNodes (some n.name) st.toTaint g.threshold < g.required then
        .skippedSpareCapacity
      else .tainted := by
  unfold verdict at h ⊢
  split
  · rfl
  rename_i hcount
  rw [if_neg hcount] at h
  split
  · rfl
  rename_i hfit
  rw [if_neg hfit] at h
  split
  · rename_i hlimit
    rw [if_pos hlimit] at h
    exact absurd rfl h
  · rfl

/-- In step, the two loops can only differ on the spare capacity. -/
theorem Sim.verdict_cases (h : Sim T st st') (hrate : verdict g st n ≠ .skippedRateLimit)
    (hrate' : verdict (g.markIn T) st' (n.markIn T) ≠ .skippedRateLimit) :
    verdict (g.markIn T) st' (n.markIn T) = verdict g st n ∨
      (verdict g st n = .tainted ∧ 0 < g.required ∧
        countSpareNodes (g.markIn T).groupNodes (some n.name) st.toTaint g.threshold <
          g.required) ∨
      (verdict g st n = .skippedSpareCapacity ∧
        verdict (g.markIn T) st' (n.markIn T) = .tainted ∧
        g.required ≤
          countSpareNodes (g.markIn T).groupNodes (some n.name) st.toTaint g.threshold) := by
  obtain ⟨htaint, hcount, hremaining⟩ := h
  have hnodes : (g.markIn T).definitelyRemaining ++ st'.conditionallyRemaining =
      (g.definitelyRemaining ++ st.conditionallyRemaining).map (NodeState.markIn T) := by
    rw [definitelyRemaining_markIn, hremaining, List.map_append]
  rw [verdict_eq_of_ne hrate, verdict_eq_of_ne hrate', hnodes, podsFitOnNodes_markIn, hcount,
    htaint, NodeState.realPods_markIn, NodeState.name_markIn, LoopContext.surplus_markIn,
    LoopContext.required_markIn, LoopContext.threshold_markIn]
  by_cases hpast : g.surplus ≤ st.taintCount
  · left
    rw [if_pos hpast, if_pos hpast]
  by_cases hfit : n.realPods ≠ [] ∧
      ¬ podsFitOnNodes n.realPods (g.definitelyRemaining ++ st.conditionallyRemaining)
  · left
    rw [if_neg hpast, if_neg hpast, if_pos hfit, if_pos hfit]
  simp only [if_neg hpast, if_neg hfit]
  by_cases hspare : 0 < g.required ∧
      countSpareNodes g.groupNodes (some n.name) st.toTaint g.threshold < g.required
  · by_cases hspare' : 0 < g.required ∧
        countSpareNodes (g.markIn T).groupNodes (some n.name) st.toTaint g.threshold < g.required
    · left
      rw [if_pos hspare, if_pos hspare']
    · right; right
      rw [if_pos hspare, if_neg hspare']
      exact ⟨rfl, rfl, by omega⟩
  · by_cases hspare' : 0 < g.required ∧
        countSpareNodes (g.markIn T).groupNodes (some n.name) st.toTaint g.threshold < g.required
    · right; left
      rw [if_neg hspare]
      exact ⟨rfl, hspare'⟩
    · left
      rw [if_neg hspare, if_neg hspare']

end Verdicts

/-! ### Counting spare nodes -/

section Spare

variable {T S : Finset String} {name : String}

/-- On the marked nodes, the names that are to be tainted need not be counted out again. -/
theorem countSpareNodes_markIn (nodes : List NodeState) (name : String) (threshold : ℚ)
    (hS : S ⊆ T) :
    countSpareNodes (nodes.map (NodeState.markIn T)) (some name) S threshold =
      countSpareNodes (nodes.map (NodeState.markIn T)) (some name) ∅ threshold := by
  unfold countSpareNodes spareNodes
  congr 1
  refine List.filter_congr fun a ha => ?_
  obtain ⟨n, _, rfl⟩ := List.mem_map.mp ha
  by_cases hn : n.name ∈ T
  · simp [hn]
  · have hnS : n.name ∉ S := fun h => hn (hS h)
    simp [hn, hnS]

/-- Carrying the taints out keeps the spare nodes that were counted with them in mind. -/
theorem countSpareNodes_le_markIn (nodes : List NodeState) (threshold : ℚ) (hname : name ∈ T) :
    countSpareNodes nodes none T threshold ≤
      countSpareNodes (nodes.map (NodeState.markIn T)) (some name) ∅ threshold := by
  unfold countSpareNodes spareNodes
  rw [List.filter_map, List.length_map]
  refine List.Sublist.length_le (List.monotone_filter_right nodes fun n hn => ?_)
  simp only [ne_eq, reduceCtorEq, not_false_eq_true, decide_true, Bool.true_and, Bool.and_eq_true,
    Bool.not_eq_true', decide_eq_true_eq] at hn
  obtain ⟨⟨_, hnot⟩, hle⟩ := hn
  have hne : n.name ≠ name := fun h => hnot (h ▸ hname)
  simp [hnot, hne, hle]

/-- Without lightly used nodes among the untaints, nothing is gained. -/
theorem countSpareNodes_markIn_le {nodes : List NodeState} {threshold : ℚ} (hS : S ⊆ T)
    (hgained : ∀ n ∈ nodes, n.isTainted = true → n.utilization ≤ threshold → n.name ∈ T) :
    countSpareNodes (nodes.map (NodeState.markIn T)) (some name) ∅ threshold ≤
      countSpareNodes nodes (some name) S threshold := by
  unfold countSpareNodes spareNodes
  rw [List.filter_map, List.length_map, ← List.countP_eq_length_filter,
    ← List.countP_eq_length_filter]
  refine List.countP_mono_left fun n hn hspare => ?_
  simp only [Function.comp_apply, NodeState.name_markIn, NodeState.isTainted_markIn,
    NodeState.utilization_markIn, Bool.and_eq_true, Bool.not_eq_true', decide_eq_false_iff_not]
    at hspare ⊢
  obtain ⟨⟨⟨hne, hnot⟩, _⟩, hle⟩ := hspare
  have htainted : n.isTainted = false := by
    by_contra ht
    exact hnot (hgained n hn (by simpa using ht) (of_decide_eq_true hle))
  exact ⟨⟨⟨hne, htainted⟩, decide_eq_true fun h => hnot (hS h)⟩, hle⟩

end Spare

/-! ### One group -/

section Loop

variable {g : LoopContext}

/-- Marking keeps the inputs well formed. -/
theorem LoopContext.WellFormed.markIn (hg : g.WellFormed) (T : Finset String) :
    (g.markIn T).WellFormed where
  nodup := by
    have h : (g.markIn T).groupNodes.map NodeState.name = g.groupNodes.map NodeState.name := by
      rw [LoopContext.markIn, List.map_map]
      rfl
    exact h ▸ hg.nodup
  candidates_nodup := by
    have h : (g.markIn T).candidates.map NodeState.name = g.candidates.map NodeState.name := by
      rw [LoopContext.markIn, List.map_map]
      rfl
    exact h ▸ hg.candidates_nodup
  candidates_sub n hn := by
    obtain ⟨m, hm, rfl⟩ := List.mem_map.mp hn
    exact List.mem_map_of_mem (hg.candidates_sub m hm)
  surplus_pos := hg.surplus_pos
  maxNewTaints_pos := hg.maxNewTaints_pos

theorem LoopInv.newTaintCount_le_taintCount {pre : List NodeState} {st : LoopState}
    (h : LoopInv g pre st) : st.newTaintCount ≤ st.taintCount := by
  rw [h.newTaintCount_eq, h.taintCount_eq]
  exact_mod_cast Finset.card_le_card Finset.sdiff_subset

/-- The second loop: the same inputs, with the taints of the first loop carried out. -/
def LoopContext.again (g : LoopContext) : LoopContext := g.markIn (taintLoop g).toTaint

/-- The spare nodes other than this one after the taints and untaints of the loop. -/
def LoopContext.spareAfter (g : LoopContext) (n : NodeState) : ℕ :=
  countSpareNodes g.again.groupNodes (some n.name) ∅ g.threshold

theorem again_candidates {pre post : List NodeState} {n : NodeState}
    (h : g.candidates = pre ++ n :: post) :
    g.again.candidates = pre.map (NodeState.markIn (taintLoop g).toTaint) ++
      n.markIn (taintLoop g).toTaint :: post.map (NodeState.markIn (taintLoop g).toTaint) := by
  rw [← List.map_cons, ← List.map_append, ← h]
  rfl

/-- The two loops stay in step as long as the second one taints no node that the first one
skipped for spare capacity. -/
theorem sim_loopAfter (hg : g.WellFormed) (hrate : g.surplus ≤ g.maxNewTaints)
    (hskipped : ∀ n pre post, g.candidates = pre ++ n :: post →
      verdict g (loopAfter g pre) n = .skippedSpareCapacity →
      verdict g.again (loopAfter g.again (pre.map (NodeState.markIn (taintLoop g).toTaint)))
        (n.markIn (taintLoop g).toTaint) = .tainted →
      g.required ≤ g.spareAfter n → False)
    {pre post : List NodeState} (h : g.candidates = pre ++ post) :
    Sim (taintLoop g).toTaint (loopAfter g pre)
      (loopAfter g.again (pre.map (NodeState.markIn (taintLoop g).toTaint))) := by
  induction pre using List.reverseRecOn generalizing post with
  | nil => exact ⟨rfl, rfl, rfl⟩
  | append_singleton pre n ih =>
    have h' : g.candidates = pre ++ n :: post := by simpa using h
    have hsim := ih h'
    have hinv := loopInv_loopAfter hg h'
    have hinv' := loopInv_loopAfter (hg.markIn (taintLoop g).toTaint) (again_candidates h')
    have hsub := toTaint_loopAfter_subset h'
    have hverdict : verdict g.again
        (loopAfter g.again (pre.map (NodeState.markIn (taintLoop g).toTaint)))
        (n.markIn (taintLoop g).toTaint) = verdict g (loopAfter g pre) n := by
      rcases hsim.verdict_cases
        (verdict_ne_skippedRateLimit hrate hinv.newTaintCount_le_taintCount)
        (verdict_ne_skippedRateLimit hrate hinv'.newTaintCount_le_taintCount) with
        heq | ⟨hv, hpos, hlt⟩ | ⟨hv, hv', hle⟩
      · exact heq
      · have hn := (name_mem_taintLoop_iff hg h').mpr hv
        have hspare := countSpareNodes_le_markIn g.groupNodes g.threshold hn
        rw [LoopContext.markIn, countSpareNodes_markIn _ _ _ hsub] at hlt
        rcases (loopInv_taintLoop hg).spare with hempty | hle | hle
        · rw [hempty] at hn
          simp at hn
        · omega
        · omega
      · rw [LoopContext.markIn, countSpareNodes_markIn _ _ _ hsub] at hle
        exact (hskipped n pre post h' hv (hv'.trans rfl) hle).elim
    rw [loopAfter_append_singleton, List.map_append, List.map_singleton,
      loopAfter_append_singleton, taintStep, taintStep, hverdict]
    exact hsim.record n _

/-- A candidate skipped for spare capacity leaves too few spare nodes. -/
theorem of_verdict_skippedSpareCapacity {st : LoopState} {n : NodeState}
    (h : verdict g st n = .skippedSpareCapacity) :
    countSpareNodes g.groupNodes (some n.name) st.toTaint g.threshold < g.required := by
  unfold verdict at h
  split at h
  · cases h
  split at h
  · cases h
  split at h
  · cases h
  split at h
  · rename_i hspare
    exact hspare.2
  · cases h

theorem toTaint_again_eq (hg : g.WellFormed) (hrate : g.surplus ≤ g.maxNewTaints)
    (hskipped : ∀ n, SkippedForSpare g n → (g.spareAfter n : ℤ) < g.required) :
    (taintLoop g.again).toTaint = (taintLoop g).toTaint := by
  have hsim := sim_loopAfter hg hrate (fun n pre post h hv _ hle => by
    have := hskipped n ⟨pre, post, h, hv⟩
    omega) (List.append_nil g.candidates).symm
  exact hsim.toTaint

/-- The second loop taints no further node exactly if no node that the first one skipped for
spare capacity finds enough spare nodes the second time; it then taints the same nodes. -/
theorem toTaint_again_subset_iff (hg : g.WellFormed) (hrate : g.surplus ≤ g.maxNewTaints) :
    (taintLoop g.again).toTaint ⊆ (taintLoop g).toTaint ↔
      ∀ n, SkippedForSpare g n → (g.spareAfter n : ℤ) < g.required := by
  constructor
  · rintro hsub n ⟨pre, post, h, hv⟩
    -- A node tainted by the second loop alone would be a taint outside those of the first.
    have hnever : ∀ n pre post, g.candidates = pre ++ n :: post →
        verdict g (loopAfter g pre) n = .skippedSpareCapacity →
        verdict g.again (loopAfter g.again (pre.map (NodeState.markIn (taintLoop g).toTaint)))
          (n.markIn (taintLoop g).toTaint) ≠ .tainted := by
      intro n pre post h hv hv'
      have hn := hsub ((name_mem_taintLoop_iff (hg.markIn _) (again_candidates h)).mpr hv')
      rw [NodeState.name_markIn, name_mem_taintLoop_iff hg h, hv] at hn
      cases hn
    have hsim := sim_loopAfter hg hrate
      (fun n pre post h hv hv' _ => hnever n pre post h hv hv') h
    have hlt : verdict g.again
        (loopAfter g.again (pre.map (NodeState.markIn (taintLoop g).toTaint)))
        (n.markIn (taintLoop g).toTaint) = .skippedSpareCapacity := by
      rcases hsim.verdict_cases
        (verdict_ne_skippedRateLimit hrate (loopInv_loopAfter hg h).newTaintCount_le_taintCount)
        (verdict_ne_skippedRateLimit hrate
          (loopInv_loopAfter (hg.markIn _) (again_candidates h)).newTaintCount_le_taintCount) with
        heq | ⟨hv', _⟩ | ⟨_, hv', _⟩
      · exact heq.trans hv
      · rw [hv] at hv'
        cases hv'
      · exact absurd hv' (hnever n pre post h hv)
    have hspare := of_verdict_skippedSpareCapacity hlt
    rw [hsim.toTaint] at hspare
    rw [LoopContext.spareAfter, LoopContext.again, LoopContext.markIn,
      ← countSpareNodes_markIn _ _ _ (toTaint_loopAfter_subset h)]
    exact hspare
  · exact fun hskipped => (toTaint_again_eq hg hrate hskipped).subset

end Loop

section Group

variable {cfg : Config} {now : ℚ} {reserved : Finset String} {nodes : List NodeState} {surplus : ℤ}

/-- Recovery never moves anything: as long as anything is tainted the loop keeps the spare
requirement, and with nothing tainted every tainted node is to be untainted already. -/
theorem decideGroup_eq_beforeRecovery (hnodup : (nodes.map NodeState.name).Nodup)
    (hsurplus : 0 < surplus) :
    decideGroup cfg now reserved nodes surplus = beforeRecovery cfg now reserved nodes surplus := by
  obtain ⟨moved, heq, hmoved, hnil⟩ := exists_spareRecovery
    (loopContext cfg now reserved nodes surplus) (beforeRecovery cfg now reserved nodes surplus)
  have hsound : (beforeRecovery cfg now reserved nodes surplus).SoundFor cfg now reserved nodes
      surplus := beforeRecovery_sound hnodup hsurplus
  have hmovednil : moved = [] := by
    rcases (loopInv_taintLoop (loopContext_wellFormed cfg now reserved hnodup hsurplus)).spare with
      hempty | h
    · refine List.eq_nil_iff_forall_not_mem.mpr fun n hn => ?_
      obtain ⟨hmem, htainted, hnot, _⟩ := hmoved n hn
      have htaint := (hsound.decided n hmem htainted).resolve_right hnot
      rw [show (beforeRecovery cfg now reserved nodes surplus).toTaint = ∅ from hempty] at htaint
      simp at htaint
    · exact hnil h
  rw [decideGroup_of_pos hsurplus, heq, hmovednil]
  simp [Decision.recover]

/-- The nodes of the group once its decision has been carried out. -/
def carriedOut (cfg : Config) (now : ℚ) (reserved : Finset String) (nodes : List NodeState)
    (surplus : ℤ) : List NodeState :=
  nodes.map (NodeState.markIn (decideGroup cfg now reserved nodes surplus).toTaint)

/-- Every candidate that the pass over the group skipped for spare capacity would still lack
spare nodes once the decision has been carried out. -/
def StillLacksSpare (cfg : Config) (now : ℚ) (reserved : Finset String) (nodes : List NodeState)
    (surplus : ℤ) : Prop :=
  ∀ n, SkippedForSpare (loopContext cfg now reserved nodes surplus) n →
    (countSpareNodes (carriedOut cfg now reserved nodes surplus) (some n.name) ∅
      cfg.spareCapacityThreshold : ℤ) < requiredSpare cfg nodes

/-- So it is where no spare nodes are required, and where no lightly used node is untainted. -/
theorem stillLacksSpare_of_no_gain (hnodup : (nodes.map NodeState.name).Nodup)
    (hsurplus : 0 < surplus) (h : requiredSpare cfg nodes ≤ 0 ∨
      ∀ n ∈ nodes, n.isTainted = true → n.utilization ≤ cfg.spareCapacityThreshold →
        n.name ∈ (decideGroup cfg now reserved nodes surplus).toTaint) :
    StillLacksSpare cfg now reserved nodes surplus := by
  rintro n ⟨pre, post, hsplit, hv⟩
  have hlt := of_verdict_skippedSpareCapacity hv
  change (countSpareNodes nodes (some n.name)
    (loopAfter (loopContext cfg now reserved nodes surplus) pre).toTaint
    cfg.spareCapacityThreshold : ℤ) < requiredSpare cfg nodes at hlt
  rcases h with hnone | hgained
  · omega
  · have hsub : (loopAfter (loopContext cfg now reserved nodes surplus) pre).toTaint ⊆
        (decideGroup cfg now reserved nodes surplus).toTaint := by
      rw [decideGroup_eq_beforeRecovery hnodup hsurplus]
      exact toTaint_loopAfter_subset hsplit
    have hle : countSpareNodes (carriedOut cfg now reserved nodes surplus) (some n.name) ∅
        cfg.spareCapacityThreshold ≤ _ := countSpareNodes_markIn_le hsub hgained
    omega

theorem nodup_carriedOut (hnodup : (nodes.map NodeState.name).Nodup) :
    ((carriedOut cfg now reserved nodes surplus).map NodeState.name).Nodup := by
  rw [carriedOut, List.map_map]
  exact hnodup

/-- Exactly the taints of the group's decision are there after it. -/
theorem isTainted_of_mem_carriedOut {n : NodeState}
    (hn : n ∈ carriedOut cfg now reserved nodes surplus) :
    n.isTainted = true ↔ n.name ∈ (decideGroup cfg now reserved nodes surplus).toTaint := by
  obtain ⟨m, _, rfl⟩ := List.mem_map.mp hn
  rw [NodeState.isTainted_markIn, decide_eq_true_eq, NodeState.name_markIn]

/-- A second pass that repeats the taints untaints nothing. -/
theorem toUntaint_carriedOut_eq (hnodup : (nodes.map NodeState.name).Nodup)
    (h : (decideGroup cfg now reserved (carriedOut cfg now reserved nodes surplus)
      surplus).toTaint = (decideGroup cfg now reserved nodes surplus).toTaint) :
    (decideGroup cfg now reserved (carriedOut cfg now reserved nodes surplus)
      surplus).toUntaint = ∅ := by
  have hsound : (decideGroup cfg now reserved (carriedOut cfg now reserved nodes surplus)
      surplus).SoundFor cfg now reserved (carriedOut cfg now reserved nodes surplus) surplus :=
    decideGroup_sound cfg now reserved surplus (nodup_carriedOut hnodup)
  refine Finset.eq_empty_of_forall_notMem fun x hx => ?_
  obtain ⟨n, hn, htainted, rfl⟩ := hsound.toUntaint_sub x hx
  exact hsound.disjoint n.name (h ▸ (isTainted_of_mem_carriedOut hn).mp htainted) hx

theorem toTaint_decideGroup_of_nonpos (hsurplus : surplus ≤ 0) :
    (decideGroup cfg now reserved nodes surplus).toTaint = ∅ := by
  rw [decideGroup, if_pos hsurplus]
  rfl

theorem toTaint_decideGroup_of_pos (hnodup : (nodes.map NodeState.name).Nodup)
    (hsurplus : 0 < surplus) :
    (decideGroup cfg now reserved nodes surplus).toTaint =
      (taintLoop (loopContext cfg now reserved nodes surplus)).toTaint := by
  rw [decideGroup_eq_beforeRecovery hnodup hsurplus]
  rfl

/-- The second pass over a group requests no change exactly if the nodes that the first one
skipped for spare capacity still lack it. -/
theorem decideGroup_carriedOut_iff (hnodup : (nodes.map NodeState.name).Nodup)
    (hrate : 1 ≤ cfg.taintRate) :
    ((decideGroup cfg now reserved (carriedOut cfg now reserved nodes surplus) surplus).toTaint ⊆
        (decideGroup cfg now reserved nodes surplus).toTaint ∧
      (decideGroup cfg now reserved (carriedOut cfg now reserved nodes surplus)
        surplus).toUntaint = ∅) ↔
      (0 < surplus → StillLacksSpare cfg now reserved nodes surplus) := by
  by_cases hsurplus : 0 < surplus
  · have hg := loopContext_wellFormed cfg now reserved hnodup hsurplus
    have hlimit : surplus ≤ max 1 ⌈surplus * cfg.taintRate⌉ := by
      have hle : (surplus : ℚ) ≤ surplus * cfg.taintRate :=
        le_mul_of_one_le_right (by exact_mod_cast hsurplus.le) hrate
      exact le_max_of_le_right (by exact_mod_cast hle.trans (Int.le_ceil _))
    have hagain : (decideGroup cfg now reserved (carriedOut cfg now reserved nodes surplus)
        surplus).toTaint =
          (taintLoop (loopContext cfg now reserved nodes surplus).again).toTaint := by
      rw [toTaint_decideGroup_of_pos (nodup_carriedOut hnodup) hsurplus, carriedOut,
        loopContext_markIn, toTaint_decideGroup_of_pos hnodup hsurplus]
      rfl
    have hstill : StillLacksSpare cfg now reserved nodes surplus ↔
        ∀ n, SkippedForSpare (loopContext cfg now reserved nodes surplus) n →
          ((loopContext cfg now reserved nodes surplus).spareAfter n : ℤ) <
            (loopContext cfg now reserved nodes surplus).required := by
      rw [StillLacksSpare, carriedOut, toTaint_decideGroup_of_pos hnodup hsurplus]
      rfl
    rw [hagain, toTaint_decideGroup_of_pos hnodup hsurplus, toTaint_again_subset_iff hg hlimit,
      ← hstill]
    refine ⟨fun h _ => h.1, fun h => ⟨h hsurplus, toUntaint_carriedOut_eq hnodup ?_⟩⟩
    rw [hagain, toTaint_decideGroup_of_pos hnodup hsurplus]
    exact toTaint_again_eq hg hlimit (hstill.mp (h hsurplus))
  · have hempty : (decideGroup cfg now reserved (carriedOut cfg now reserved nodes surplus)
        surplus).toTaint = ∅ := toTaint_decideGroup_of_nonpos (not_lt.mp hsurplus)
    refine iff_of_true ⟨by simp [hempty], toUntaint_carriedOut_eq hnodup ?_⟩
      fun h => absurd h hsurplus
    rw [hempty, toTaint_decideGroup_of_nonpos (not_lt.mp hsurplus)]

end Group

/-! ### All groups -/

section Groups

variable {cfg : Config} {now mono : ℚ} {reserved : Finset String} {m : NodeMap}
  {groupKey : NodeState → String}

theorem planGroups_retaint (cfg : Config) (now mono : ℚ) (d : Decision)
    (groups : List (String × List NodeState)) :
    (planGroups cfg now mono [] none
        (groups.map fun g => (g.1, g.2.map (NodeState.retaint d)))).1 =
      (planGroups cfg now mono [] none groups).1.map fun p =>
        ⟨p.name, p.nodes.map (NodeState.retaint d), p.minNeeded⟩ := by
  induction groups with
  | nil => rfl
  | cons g rest ih =>
    have hpods : packedPods cfg now [] (g.2.map (NodeState.retaint d)) =
        packedPods cfg now [] g.2 := by
      rw [packedPods, packedPods, List.flatMap_map]
      rfl
    simp only [List.map_cons, planGroups, peakMin, hpods, binPackMinNodes_retaint, ih]

/-- The groups and what each of them needs do not depend on which nodes are tainted. -/
theorem groupPlans_retaint (hkey : ∀ n b, groupKey { n with isTainted := b } = groupKey n)
    (d : Decision) :
    (groupPlans (m.retaint d) cfg groupKey none [] now mono).1 =
      (groupPlans m cfg groupKey none [] now mono).1.map fun p =>
        ⟨p.name, p.nodes.map (NodeState.retaint d), p.minNeeded⟩ := by
  have hgroups : Grouping.groupBy groupKey (m.retaint d).values =
      (Grouping.groupBy groupKey m.values).map fun g => (g.1, g.2.map (NodeState.retaint d)) :=
    Grouping.groupBy_map (f := NodeState.retaint d) (fun n => hkey n _) m.values
  rw [groupPlans, groupPlans, hgroups]
  exact planGroups_retaint cfg now mono d _

/-- Carrying out the whole decision does to a group what its own decision does. -/
theorem map_retaint_eq_carriedOut {p : GroupPlan}
    (hp : p ∈ (groupPlans m cfg groupKey none [] now mono).1) :
    p.nodes.map (NodeState.retaint
        (computeTaints m cfg reserved groupKey none [] now mono).1) =
      carriedOut cfg now reserved p.nodes p.surplus := by
  refine List.map_congr_left fun n hn => ?_
  have hname := List.mem_map_of_mem (f := NodeState.name) hn
  have hsound := decideGroup_sound cfg now reserved p.surplus (nodup_of_mem_groupPlans hp)
  have htaint : n.name ∈ (computeTaints m cfg reserved groupKey none [] now mono).1.toTaint ↔
      n.name ∈ (decideGroup cfg now reserved p.nodes p.surplus).toTaint :=
    mem_toTaint_of_mem hp hname
  have huntaint : n.name ∈ (computeTaints m cfg reserved groupKey none [] now mono).1.toUntaint ↔
      n.name ∈ (decideGroup cfg now reserved p.nodes p.surplus).toUntaint :=
    mem_toUntaint_of_mem hp hname
  have hflag : (decide (n.name ∈
      (computeTaints m cfg reserved groupKey none [] now mono).1.toTaint) ||
      (n.isTainted &&
        decide (n.name ∉ (computeTaints m cfg reserved groupKey none [] now mono).1.toUntaint))) =
      decide (n.name ∈ (decideGroup cfg now reserved p.nodes p.surplus).toTaint) := by
    simp only [htaint, huntaint]
    by_cases hx : n.name ∈ (decideGroup cfg now reserved p.nodes p.surplus).toTaint
    · simp [hx]
    · cases ht : n.isTainted with
      | false => simp [hx]
      | true => simp [hx, (hsound.decided n hn ht).resolve_left hx]
  rw [NodeState.retaint, hflag]
  rfl

/-- What the second call requests, its passes over the groups request. -/
theorem UnionReader.mem_computeTaints_retaint {read : Decision → Finset String}
    (hread : UnionReader read) (hkey : ∀ n b, groupKey { n with isTainted := b } = groupKey n)
    {x : String} :
    x ∈ read (computeTaints (m.retaint (computeTaints m cfg reserved groupKey none [] now mono).1)
        cfg reserved groupKey none [] now mono).1 ↔
      ∃ p ∈ (groupPlans m cfg groupKey none [] now mono).1, x ∈ read (decideGroup cfg now reserved
        (carriedOut cfg now reserved p.nodes p.surplus) p.surplus) := by
  have hsurplus : ∀ (p : GroupPlan) (d : Decision), GroupPlan.surplus
      ⟨p.name, p.nodes.map (NodeState.retaint d), p.minNeeded⟩ = p.surplus := by
    intro p d
    simp only [GroupPlan.surplus, List.length_map]
  rw [hread.mem_computeTaints, groupPlans_retaint hkey]
  constructor
  · rintro ⟨_, hmap, hx⟩
    obtain ⟨p, hp, rfl⟩ := List.mem_map.mp hmap
    rw [hsurplus] at hx
    exact ⟨p, hp, map_retaint_eq_carriedOut hp ▸ hx⟩
  · rintro ⟨p, hp, hx⟩
    refine ⟨_, List.mem_map_of_mem hp, ?_⟩
    rw [hsurplus]
    exact map_retaint_eq_carriedOut hp ▸ hx

/-- A node of a group is tainted after the first call exactly if its group's pass taints it. -/
theorem isTainted_retaint_iff {p : GroupPlan}
    (hp : p ∈ (groupPlans m cfg groupKey none [] now mono).1) {x : String}
    (hx : x ∈ p.nodes.map NodeState.name) :
    ((m.retaint (computeTaints m cfg reserved groupKey none [] now mono).1).get? x).any
        NodeState.isTainted = true ↔
      x ∈ (decideGroup cfg now reserved p.nodes p.surplus).toTaint := by
  obtain ⟨n, hn, rfl⟩ := List.mem_map.mp hx
  have hm : n ∈ m.values := by
    rw [nodes_of_mem_groupPlans hp] at hn
    exact (List.mem_filter.mp hn).1
  have hmem : n.retaint (computeTaints m cfg reserved groupKey none [] now mono).1 ∈
      (m.retaint (computeTaints m cfg reserved groupKey none [] now mono).1).values :=
    List.mem_map_of_mem hm
  have hcarried : n.retaint (computeTaints m cfg reserved groupKey none [] now mono).1 ∈
      carriedOut cfg now reserved p.nodes p.surplus := by
    rw [← map_retaint_eq_carriedOut hp]
    exact List.mem_map_of_mem hn
  have hget := NodeMap.get?_eq_some_iff.mpr ⟨hmem, show _ = n.name from rfl⟩
  rw [hget, Option.any_some]
  exact isTainted_of_mem_carriedOut hcarried

/-- **No flapping, but for the spare capacity.** On an unchanged cluster, with the rate limit
out of the way, a second call requests no change exactly if the nodes that the first call
skipped for spare capacity still lack it once its decision has been carried out. -/
theorem computeTaints_again_iff (m : NodeMap) (cfg : Config) (reserved : Finset String)
    (groupKey : NodeState → String) (now mono : ℚ)
    (hkey : ∀ n b, groupKey { n with isTainted := b } = groupKey n) (hrate : 1 ≤ cfg.taintRate) :
    let d := (computeTaints m cfg reserved groupKey none [] now mono).1
    RequestsNoChange (m.retaint d)
        (computeTaints (m.retaint d) cfg reserved groupKey none [] now mono).1 ↔
      ∀ p ∈ (groupPlans m cfg groupKey none [] now mono).1,
        0 < p.surplus → StillLacksSpare cfg now reserved p.nodes p.surplus := by
  intro d
  have hnames : ∀ p ∈ (groupPlans m cfg groupKey none [] now mono).1,
      ∀ x ∈ (decideGroup cfg now reserved (carriedOut cfg now reserved p.nodes p.surplus)
        p.surplus).toTaint, x ∈ p.nodes.map NodeState.name := by
    intro p hp x hx
    have hnodup : ((carriedOut cfg now reserved p.nodes p.surplus).map NodeState.name).Nodup :=
      nodup_carriedOut (nodup_of_mem_groupPlans hp)
    have hname := (decideGroup_sound cfg now reserved p.surplus hnodup).toTaint_sub x hx
    rwa [carriedOut, List.map_map] at hname
  constructor
  · rintro ⟨htaint, huntaint⟩ p hp
    refine (decideGroup_carriedOut_iff (nodup_of_mem_groupPlans hp) hrate).mp ⟨fun x hx => ?_, ?_⟩
    · exact (isTainted_retaint_iff hp (hnames p hp x hx)).mp
        (htaint x ((unionReader_toTaint.mem_computeTaints_retaint hkey).mpr ⟨p, hp, hx⟩))
    · refine Finset.eq_empty_of_forall_notMem fun x hx => ?_
      have hmem := (unionReader_toUntaint.mem_computeTaints_retaint hkey).mpr ⟨p, hp, hx⟩
      rw [huntaint] at hmem
      simp at hmem
  · intro hstill
    have hgroup := fun p (hp : p ∈ (groupPlans m cfg groupKey none [] now mono).1) =>
      (decideGroup_carriedOut_iff (nodup_of_mem_groupPlans hp) hrate).mpr (hstill p hp)
    refine ⟨fun x hx => ?_, Finset.eq_empty_of_forall_notMem fun x hx => ?_⟩
    · obtain ⟨p, hp, hx⟩ := (unionReader_toTaint.mem_computeTaints_retaint hkey).mp hx
      exact (isTainted_retaint_iff hp (hnames p hp x hx)).mpr ((hgroup p hp).1 hx)
    · obtain ⟨p, hp, hx⟩ := (unionReader_toUntaint.mem_computeTaints_retaint hkey).mp hx
      rw [(hgroup p hp).2] at hx
      simp at hx

end Groups

/-- Two lightly used nodes that are tainted, and a busy one that is not. -/
def skippedNodes : NodeMap where
  values := [makeNode "n1" 0 true [1], makeNode "n2" 0 true [1], makeNode "n3" 0 false [5]]
  nodup := by decide

/-- The bare compactor with one spare node required. -/
def spareConfig : Config := { bareConfig with spareCapacityNodes := 1 }

/-- Without a spare requirement a second decision on `skippedNodes` changes nothing. -/
theorem skippedNodes_settle :
    let d := (computeTaints skippedNodes bareConfig ∅ NodeState.nodepool none [] 3600 0).1
    RequestsNoChange (skippedNodes.retaint d)
      (computeTaints (skippedNodes.retaint d) bareConfig ∅ NodeState.nodepool
        none [] 3600 0).1 := by
  refine (computeTaints_again_iff skippedNodes bareConfig ∅ NodeState.nodepool 3600 0
    (fun _ _ => rfl) le_rfl).mpr fun p hp hsurplus => ?_
  refine stillLacksSpare_of_no_gain (nodup_of_mem_groupPlans hp) hsurplus (Or.inl ?_)
  simp [requiredSpare, bareConfig]

/-- With one spare node required, both tainted nodes are untainted, since tainting either
would leave no spare node; the second decision finds two spare nodes and taints one of them
again. -/
theorem skippedNodes_flap :
    let d := (computeTaints skippedNodes spareConfig ∅ NodeState.nodepool none [] 3600 0).1
    let d' := (computeTaints (skippedNodes.retaint d) spareConfig ∅ NodeState.nodepool none []
      3600 0).1
    1 ≤ spareConfig.taintRate ∧ d.toTaint = ∅ ∧ d.toUntaint = {"n1", "n2"} ∧
      d'.toTaint = {"n1", "n3"} ∧ ¬ RequestsNoChange (skippedNodes.retaint d) d' := by
  decide +kernel

end CiInfra.Compactor

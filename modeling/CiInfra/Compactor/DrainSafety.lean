import CiInfra.Compactor.TaintDecision

/-!
# Drain safety

A tainted node should be able to drain: its pods should fit on the nodes of its group
that stay untainted. The loop checks this against `candidates[surplus:]` and the nodes it
has skipped. Skips let the loop run into `candidates[surplus:]` itself; as long as it
taints nothing there that a check has relied on, every check was made against nodes that
do stay untainted.
-/

namespace CiInfra.Compactor

open Kube

/-- The pods of every node of the group that is to be tainted can be hosted by the other
nodes of the group that are not. -/
def DrainSafe (nodes : List NodeState) (toTaint : Finset String) : Prop :=
  ∀ n ∈ nodes, n.name ∈ toTaint →
    CanHost n.realPods (nodes.filter fun m => m.name ∉ toTaint ∧ m.name ≠ n.name)

/-- The loop comes to its `i`-th candidate in a state in which it taints it. -/
def LoopContext.Taints (g : LoopContext) (i : ℕ) : Prop :=
  ∃ h : i < g.candidates.length,
    verdict g (loopAfter g (g.candidates.take i)) g.candidates[i] = .tainted

instance (g : LoopContext) (i : ℕ) : Decidable (g.Taints i) :=
  inferInstanceAs (Decidable (∃ _ : _, _))

/-- The loop taints its `i`-th candidate on the strength of a fit check. -/
def LoopContext.TaintsLoaded (g : LoopContext) (i : ℕ) : Prop :=
  g.Taints i ∧ ∃ h : i < g.candidates.length, g.candidates[i].realPods ≠ []

instance (g : LoopContext) (i : ℕ) : Decidable (g.TaintsLoaded i) :=
  inferInstanceAs (Decidable (_ ∧ ∃ _ : _, _))

/-- No node that the loop takes to be remaining is tainted once a fit check has relied on
it: at or past the surplus, the loop taints nothing after it has tainted a node with pods. -/
def TailUntouched (g : LoopContext) : Prop :=
  ∀ i < g.candidates.length, g.surplus.toNat ≤ i → g.Taints i → ∀ j < i + 1, ¬ g.TaintsLoaded j

instance (g : LoopContext) : Decidable (TailUntouched g) :=
  inferInstanceAs (Decidable (∀ i < g.candidates.length, _ → _ → ∀ j < i + 1, ¬ _))

theorem LoopContext.taints_of_split {g : LoopContext} {pre post : List NodeState} {n : NodeState}
    (hsplit : g.candidates = pre ++ n :: post) (hv : verdict g (loopAfter g pre) n = .tainted) :
    g.Taints pre.length := by
  have hlt : pre.length < g.candidates.length := by
    rw [hsplit, List.length_append, List.length_cons]
    omega
  exact ⟨hlt, by simpa [hsplit] using hv⟩

/-- With an untouched tail, a node with pods is tainted below the surplus, and whatever is
tainted after it is too. -/
theorem TailUntouched.lt_surplus {g : LoopContext} (h : TailUntouched g)
    {pre post pre' post' : List NodeState} {n n' : NodeState}
    (hsplit : g.candidates = pre ++ n :: post) (hv : verdict g (loopAfter g pre) n = .tainted)
    (hpods : n.realPods ≠ []) (hsplit' : g.candidates = pre' ++ n' :: post')
    (hv' : verdict g (loopAfter g pre') n' = .tainted) (hle : pre.length ≤ pre'.length) :
    pre'.length < g.surplus.toNat := by
  by_contra hnot
  have htaints := LoopContext.taints_of_split hsplit hv
  have htaints' := LoopContext.taints_of_split hsplit' hv'
  obtain ⟨hlt, _⟩ := id htaints
  obtain ⟨hlt', _⟩ := id htaints'
  refine h pre'.length hlt' (by omega) htaints' pre.length (by omega) ⟨htaints, hlt, ?_⟩
  simpa [hsplit] using hpods

section Loop

variable {g : LoopContext} {pre post : List NodeState} {n : NodeState}

/-- With an untouched tail, every node that a tainted node's check relied on is another
node of the group and stays untainted to the end of the loop. -/
theorem remaining_untainted_of_tailUntouched (hg : g.WellFormed) (htail : TailUntouched g)
    (hsplit : g.candidates = pre ++ n :: post)
    (hv : verdict g (loopAfter g pre) n = .tainted) (hpods : n.realPods ≠ []) :
    ∀ m ∈ g.definitelyRemaining ++ (loopAfter g pre).conditionallyRemaining,
      m ∈ g.groupNodes ∧ m.name ∉ (taintLoop g).toTaint ∧ m.name ≠ n.name := by
  have hnodup := hg.candidates_nodup
  have hnames : ∀ a ∈ g.candidates, ∀ b ∈ g.candidates, a.name = b.name → a = b :=
    fun a ha b hb => eq_of_name_eq hnodup ha hb
  have hlist : g.candidates.Nodup := hnodup.of_map _
  have hhead := htail.lt_surplus hsplit hv hpods hsplit hv le_rfl
  have hn : n ∈ g.candidates.take g.surplus.toNat := by
    rw [hsplit, List.take_append, List.take_of_length_le hhead.le]
    have : 0 < g.surplus.toNat - pre.length := by omega
    obtain ⟨k, hk⟩ := Nat.exists_eq_succ_of_ne_zero this.ne'
    simp [hk]
  have hdisjoint := List.disjoint_take_drop hlist (le_refl g.surplus.toNat)
  intro m hm
  rcases List.mem_append.mp hm with hm | hm
  · have hmc : m ∈ g.candidates := List.mem_of_mem_drop hm
    refine ⟨hg.candidates_sub m hmc, ?_, ?_⟩
    · intro hmem
      rw [taintLoop_eq] at hmem
      obtain ⟨pre', m', post', hsplit', hname, hv'⟩ := mem_toTaint_loopAfter.mp hmem
      have hm' : m' = m := hnames m' (by simp [hsplit']) m hmc hname
      subst hm'
      have hlt : pre'.length < g.surplus.toNat := by
        rcases le_total pre.length pre'.length with hle | hle
        · exact htail.lt_surplus hsplit hv hpods hsplit' hv' hle
        · exact hle.trans_lt hhead
      refine hdisjoint (a := m') ?_ hm
      rw [hsplit', List.take_append, List.take_of_length_le (by omega)]
      obtain ⟨k, hk⟩ := Nat.exists_eq_succ_of_ne_zero
        (show g.surplus.toNat - pre'.length ≠ 0 by omega)
      simp [hk]
    · intro hname
      have := hnames m hmc n (List.mem_of_mem_take hn) hname
      subst this
      exact hdisjoint hn hm
  · have hinv := loopInv_loopAfter hg hsplit
    have hmpre : m ∈ pre := hinv.remaining_sublist.subset hm
    have hsep : ∀ x ∈ pre.map NodeState.name, x ∉ (n :: post).map NodeState.name := by
      rw [hsplit, List.map_append] at hnodup
      intro x hx hx'
      exact (List.nodup_append.mp hnodup).2.2 x hx x hx' rfl
    have hmname := List.mem_map_of_mem (f := NodeState.name) hmpre
    refine ⟨hg.candidates_sub m (by rw [hsplit]; exact List.mem_append_left _ hmpre), ?_, ?_⟩
    · intro hmem
      rw [taintLoop_eq, hsplit] at hmem
      rcases mem_toTaint_append hmem with hmem | hmem
      · exact hinv.remaining_untainted m hm hmem
      · exact hsep _ hmname hmem
    · intro hname
      exact hsep _ hmname (by simp [hname])

/-- The nodes a check relies on are pairwise distinct. -/
theorem remaining_nodup (hg : g.WellFormed) (hsplit : g.candidates = pre ++ n :: post)
    (hhead : pre.length < g.surplus.toNat) :
    (g.definitelyRemaining ++ (loopAfter g pre).conditionallyRemaining).Nodup := by
  have hlist : g.candidates.Nodup := hg.candidates_nodup.of_map _
  have hinv := loopInv_loopAfter hg hsplit
  have hdrop : g.definitelyRemaining.Sublist post := by
    rw [LoopContext.definitelyRemaining, hsplit, List.drop_append,
      List.drop_eq_nil_of_le hhead.le, List.nil_append]
    obtain ⟨k, hk⟩ := Nat.exists_eq_succ_of_ne_zero
      (show g.surplus.toNat - pre.length ≠ 0 by omega)
    rw [hk, Nat.succ_eq_add_one, List.drop_succ_cons]
    exact List.drop_sublist _ _
  refine List.Nodup.sublist ?_ (hlist.perm (?_ : g.candidates.Perm (n :: post ++ pre)))
  · exact (hdrop.trans (List.sublist_cons_self n post)).append hinv.remaining_sublist
  · rw [hsplit]
    exact List.perm_append_comm

end Loop

/-- Recovery and the exempt nodes add no taint to those of the loop. -/
theorem toTaint_decideGroup_subset (cfg : Config) (now : ℚ) (reserved : Finset String)
    (nodes : List NodeState) {surplus : ℤ} (hsurplus : 0 < surplus) :
    (decideGroup cfg now reserved nodes surplus).toTaint ⊆
      (taintLoop (loopContext cfg now reserved nodes surplus)).toTaint := by
  rw [decideGroup_of_pos hsurplus]
  obtain ⟨moved, heq, _, _⟩ := exists_spareRecovery
    (loopContext cfg now reserved nodes surplus) (beforeRecovery cfg now reserved nodes surplus)
  rw [heq]
  exact Finset.sdiff_subset

/-- A group's pass with an untouched tail taints no node that could not drain. -/
theorem drainSafe_decideGroup {cfg : Config} {now : ℚ} {reserved : Finset String}
    {nodes : List NodeState} {surplus : ℤ} (hnodup : (nodes.map NodeState.name).Nodup)
    (hsurplus : 0 < surplus) (htail : TailUntouched (loopContext cfg now reserved nodes surplus))
    (hgpu : ∀ n ∈ nodes, n.GpuWithinAllocatable) :
    DrainSafe nodes (decideGroup cfg now reserved nodes surplus).toTaint := by
  intro n hn hx
  have hg := loopContext_wellFormed cfg now reserved hnodup hsurplus
  have hsub := toTaint_decideGroup_subset cfg now reserved nodes hsurplus
  have hloop := hsub hx
  rw [taintLoop_eq] at hloop
  obtain ⟨pre, n', post, hsplit, hname, hv⟩ := mem_toTaint_loopAfter.mp hloop
  have hn' : n' = n := eq_of_name_eq hnodup (hg.candidates_sub n' (by simp [hsplit])) hn hname
  subst hn'
  obtain ⟨_, hfit, _, _⟩ := of_verdict_tainted hv
  by_cases hpods : n'.realPods = []
  · rw [hpods]
    exact canHost_nil _
  · have hhead := htail.lt_surplus hsplit hv hpods hsplit hv le_rfl
    have hrem := remaining_untainted_of_tailUntouched hg htail hsplit hv hpods
    have hhosts := canHost_of_podsFitOnNodes (fun m hm => hgpu m (hrem m hm).1)
      (hfit.resolve_left hpods)
    refine hhosts.subperm (List.subperm_of_subset (remaining_nodup hg hsplit hhead) ?_)
    intro m hm
    obtain ⟨hm, hnot, hne⟩ := hrem m hm
    simp only [List.mem_filter, decide_eq_true_eq]
    exact ⟨hm, fun h => hnot (hsub h), hne⟩

/-- Two nodes of which one is needed: the lighter one drains onto the other. -/
def drainableNodes : NodeMap where
  values := [makeNode "n1" 0 false [2], makeNode "n2" 0 false [4]]
  nodup := by decide

/-- Three nodes of which two are needed. The old node `n1` comes first and is skipped,
since its pod fits nowhere else. The loop goes on to `n2`, which it counts as remaining, and
finds the pod of `n2` a place on `n2` itself. -/
def selfCountingNodes : NodeMap where
  values := [makeNode "n1" 0 false [8], makeNode "n2" 200000 false [4],
    makeNode "n3" 200000 false [2, 2, 2, 1]]
  nodup := by decide

end CiInfra.Compactor

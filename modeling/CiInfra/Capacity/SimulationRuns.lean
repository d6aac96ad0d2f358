import CiInfra.Capacity.Simulation
import Mathlib.Algebra.Order.BigOperators.Group.List
import Mathlib.Algebra.Order.Group.Nat
import Mathlib.Data.List.Dedup

/-!
# What a simulation results in

Whatever is drawn, the simulation ends after a bounded number of passes, and counts every runner on
one node. A node is not overcommitted by a runner that is put on it. But the runner for which a node
is provisioned is not compared with the node, so that none is overcommitted just if every runner
that can be drawn fits on a new node.
-/

namespace CiInfra.Capacity

variable {runnerDefs : List Runner} {daemonsets : List DaemonSetOverhead}
  {active : List (String × ℕ)} {threshold : ℚ} {draw : ℕ} {s s' : SimState}

/-! ### What a pass does -/

/-- What a pass may do with a runner that it has drawn. -/
inductive Moves (runnerDefs : List Runner) (daemonsets : List DaemonSetOverhead) (s : SimState)
    (chosen : String) (runner : Runner) : SimState → Prop
  | dropped (hfailed : runner.instanceType ∈ s.failedTypes) :
    Moves runnerDefs daemonsets s chosen runner
      { s with pool := s.pool.eraseIdx (s.pool.findIdx fun p => p.1 = chosen) }
  | failed (hfailed : runner.instanceType ∉ s.failedTypes) :
    Moves runnerDefs daemonsets s chosen runner
      { s with failedTypes := runner.instanceType :: s.failedTypes }
  | put {i : ℕ} {node : SimNode} (hnode : s.nodes[i]? = some node)
      (hfits : node.Fits (perRunnerTotal runner)) :
    Moves runnerDefs daemonsets s chosen runner
      (s.deploy chosen (s.nodes.modify i fun n => n.put (perRunnerTotal runner)))
  | provisioned {alloc : Allocatable}
      (halloc : computeAllocatable runner.instanceType daemonsets = some alloc) :
    Moves runnerDefs daemonsets s chosen runner
      (s.deploy chosen (s.nodes ++ [⟨runner.instanceType, alloc, perRunnerTotal runner, 1⟩]))

/-- The node that is found exists, and the runner fits on it. -/
theorem exists_of_bestFitPlace {nodes : List SimNode} {need : Resources} {instanceType : String}
    {i : ℕ} (h : bestFitPlace nodes need instanceType = some i) :
    ∃ node, nodes[i]? = some node ∧ node.Fits need := by
  obtain ⟨best, hbest, rfl⟩ := Option.map_eq_some_iff.mp h
  -- The best node so far exists, and the runner fits on it.
  have hfold : ∀ (l : List (SimNode × ℕ)) (best : Option (ℕ × ℚ)),
      (∀ p ∈ l, nodes[p.2]? = some p.1) →
      (∀ b, best = some b → ∃ node, nodes[b.1]? = some node ∧ node.Fits need) →
      ∀ b, l.foldl (fun best p =>
        if p.1.instanceType = instanceType ∧ p.1.Fits need ∧
            best.all (fun b : ℕ × ℚ => p.1.score < b.2) then
          some (p.2, p.1.score)
        else best) best = some b → ∃ node, nodes[b.1]? = some node ∧ node.Fits need := by
    intro l
    induction l with
    | nil => exact fun best _ hb => hb
    | cons p l ih =>
      intro best hl hb
      obtain ⟨hp, hl⟩ := List.forall_mem_cons.mp hl
      refine ih _ hl fun b hbest => ?_
      dsimp only at hbest
      split at hbest
      case isTrue hbetter =>
        obtain rfl := Option.some.inj hbest
        exact ⟨p.1, hp, hbetter.2.1⟩
      case isFalse => exact hb b hbest
  refine hfold nodes.zipIdx none (fun p hp => ?_) (fun b hb => by cases hb) best hbest
  exact List.mem_zipIdx_iff_getElem?.mp hp

/-- A runner that is drawn is of the pool, has a definition, and makes one of the moves. -/
inductive Drawn (runnerDefs : List Runner) (daemonsets : List DaemonSetOverhead) (s s' : SimState) :
    Prop
  | intro {chosen : String} {weight : ℕ} {runner : Runner} (hpool : (chosen, weight) ∈ s.pool)
      (hrunner : runnerByName runnerDefs chosen = some runner)
      (hmoves : Moves runnerDefs daemonsets s chosen runner s')

theorem moves_of_placeRunner_next {chosen : String} {runner : Runner}
    (h : placeRunner daemonsets s chosen runner = .next s') :
    Moves runnerDefs daemonsets s chosen runner s' := by
  simp only [placeRunner] at h
  split at h
  case isTrue hfailed =>
    split at h
    case isTrue => cases h
    case isFalse =>
      cases h
      exact .dropped hfailed
  case isFalse hfailed =>
    split at h
    case h_1 i hplace =>
      cases h
      obtain ⟨node, hnode, hfits⟩ := exists_of_bestFitPlace hplace
      exact .put hnode hfits
    case h_2 =>
      cases halloc : computeAllocatable runner.instanceType daemonsets with
      | none =>
        rw [provisionNode, halloc] at h
        cases h
        exact .failed hfailed
      | some alloc =>
        rw [provisionNode, halloc] at h
        cases h
        exact .provisioned halloc

theorem of_placeRunner_stop {chosen : String} {runner : Runner}
    (h : placeRunner daemonsets s chosen runner = .stop s') :
    ∃ pool, s' = { s with pool := pool } := by
  simp only [placeRunner] at h
  split at h
  case isTrue =>
    split at h
    case isTrue =>
      cases h
      exact ⟨_, rfl⟩
    case isFalse => cases h
  case isFalse =>
    split at h
    case h_1 => cases h
    case h_2 => split at h <;> cases h

theorem drawn_of_pass_next (h : pass runnerDefs daemonsets active threshold draw s = .next s') :
    s.totalDeployed < maxDeploy active ∧ Drawn runnerDefs daemonsets s s' := by
  unfold pass at h
  split at h
  case isTrue => cases h
  case isFalse =>
    split at h
    case isTrue => cases h
    case isFalse hless =>
      split at h
      case h_1 => cases h
      case h_2 chosen weight hpool =>
        split at h
        case h_1 => cases h
        case h_2 runner hrunner =>
          exact ⟨not_le.mp hless, List.mem_of_getElem? hpool, hrunner,
            moves_of_placeRunner_next h⟩

/-- A pass that ends the loop changes nothing but the pool. -/
theorem of_pass_stop (h : pass runnerDefs daemonsets active threshold draw s = .stop s') :
    ∃ pool, s' = { s with pool := pool } := by
  unfold pass at h
  split at h
  case isTrue =>
    cases h
    exact ⟨_, rfl⟩
  case isFalse =>
    split at h
    case isTrue =>
      cases h
      exact ⟨_, rfl⟩
    case isFalse =>
      split at h
      case h_1 =>
        cases h
        exact ⟨_, rfl⟩
      case h_2 =>
        split at h
        case h_1 =>
          cases h
          exact ⟨_, rfl⟩
        case h_2 => exact of_placeRunner_stop h

/-! ### What the moves keep -/

/-- The variables are consistent: the runners are counted as often as they are placed, and what has
been drawn is of the targets. -/
structure Consistent (runnerDefs : List Runner) (active : List (String × ℕ)) (s : SimState) :
    Prop where
  count_le : s.totalDeployed ≤ maxDeploy active
  nodes_count : (s.nodes.map SimNode.runnerCount).sum = s.totalDeployed
  deployed_sum : sumOf s.deployed = s.totalDeployed
  deployed_keys : s.deployed.map Prod.fst = active.map Prod.fst
  pool_sub : ∀ p ∈ s.pool, p ∈ buildWeightedPool active
  failed_nodup : s.failedTypes.Nodup
  failed_sub : ∀ t ∈ s.failedTypes, t ∈ runnerDefs.map Runner.instanceType

theorem mem_of_runnerByName {name : String} {runner : Runner}
    (h : runnerByName runnerDefs name = some runner) : runner ∈ runnerDefs ∧ runner.name = name :=
  ⟨List.mem_reverse.mp (List.mem_of_find?_eq_some h), by simpa using List.find?_some h⟩

/-- A count that is in the dictionary once gets one more. -/
theorem sumOf_map_succ {counts : List (String × ℕ)} {chosen : String}
    (hnodup : (counts.map Prod.fst).Nodup) (hchosen : chosen ∈ counts.map Prod.fst) :
    sumOf (counts.map fun p => if p.1 = chosen then (p.1, p.2 + 1) else p) = sumOf counts + 1 := by
  induction counts with
  | nil => simp at hchosen
  | cons p counts ih =>
    obtain ⟨hfirst, hnodup⟩ := List.nodup_cons.mp hnodup
    by_cases hp : p.1 = chosen
    · have hrest : (counts.map fun p => if p.1 = chosen then (p.1, p.2 + 1) else p) = counts := by
        refine (List.map_congr_left fun q hq => if_neg fun hq' => hfirst ?_).trans (List.map_id _)
        rw [hp, ← hq']
        exact List.mem_map_of_mem hq
      rw [List.map_cons, hrest, if_pos hp]
      simp only [sumOf, List.map_cons, List.sum_cons]
      omega
    · have hchosen' : chosen ∈ counts.map Prod.fst :=
        (List.mem_cons.mp hchosen).resolve_left fun h => hp h.symm
      have hsum := ih hnodup hchosen'
      rw [List.map_cons, if_neg hp]
      simp only [sumOf, List.map_cons, List.sum_cons] at hsum ⊢
      omega

theorem Consistent.deploy {chosen : String} {nodes : List SimNode}
    (h : Consistent runnerDefs active s) (hnodup : (active.map Prod.fst).Nodup)
    (hless : s.totalDeployed < maxDeploy active) (hchosen : chosen ∈ active.map Prod.fst)
    (hcount : (nodes.map SimNode.runnerCount).sum = s.totalDeployed + 1) :
    Consistent runnerDefs active (s.deploy chosen nodes) := by
  refine ⟨hless, hcount, ?_, ?_, h.pool_sub, h.failed_nodup, h.failed_sub⟩
  · rw [← h.deployed_keys] at hnodup hchosen
    exact (sumOf_map_succ hnodup hchosen).trans (congrArg (· + 1) h.deployed_sum)
  · rw [← h.deployed_keys]
    simp only [SimState.deploy, List.map_map]
    refine List.map_congr_left fun p _ => ?_
    simp only [Function.comp_apply]
    split <;> rfl

/-- A runner more on a node is a runner more on the nodes. -/
theorem sum_runnerCount_modify {nodes : List SimNode} {i : ℕ} {node : SimNode}
    (hnode : nodes[i]? = some node) (need : Resources) :
    ((nodes.modify i fun n => n.put need).map SimNode.runnerCount).sum =
      (nodes.map SimNode.runnerCount).sum + 1 := by
  induction nodes generalizing i with
  | nil => simp at hnode
  | cons n nodes ih =>
    cases i with
    | zero =>
      simp only [List.modify_zero_cons, List.map_cons, List.sum_cons, SimNode.put]
      omega
    | succ i =>
      rw [List.getElem?_cons_succ] at hnode
      simp only [List.modify_succ_cons, List.map_cons, List.sum_cons, ih hnode]
      omega

theorem Consistent.of_drawn (h : Consistent runnerDefs active s)
    (hnodup : (active.map Prod.fst).Nodup) (hless : s.totalDeployed < maxDeploy active)
    (hdrawn : Drawn runnerDefs daemonsets s s') : Consistent runnerDefs active s' := by
  obtain @⟨chosen, weight, runner, hpool, hrunner, hmoves⟩ := hdrawn
  have hchosen : chosen ∈ active.map Prod.fst :=
    List.mem_map_of_mem (f := Prod.fst) (List.mem_of_mem_filter (h.pool_sub _ hpool))
  cases hmoves with
  | dropped hfailed =>
    exact ⟨h.count_le, h.nodes_count, h.deployed_sum, h.deployed_keys,
      fun p hp => h.pool_sub p (List.mem_of_mem_eraseIdx hp), h.failed_nodup, h.failed_sub⟩
  | failed hfailed =>
    have htype : runner.instanceType ∈ runnerDefs.map Runner.instanceType :=
      List.mem_map_of_mem (mem_of_runnerByName hrunner).1
    exact ⟨h.count_le, h.nodes_count, h.deployed_sum, h.deployed_keys, h.pool_sub,
      List.nodup_cons.mpr ⟨hfailed, h.failed_nodup⟩,
      List.forall_mem_cons.mpr ⟨htype, h.failed_sub⟩⟩
  | put hnode hfits =>
    refine h.deploy hnodup hless hchosen ?_
    rw [sum_runnerCount_modify hnode, h.nodes_count]
  | provisioned halloc =>
    refine h.deploy hnodup hless hchosen ?_
    rw [List.map_append, List.sum_append, h.nodes_count]
    rfl

/-! ### The end of the loop -/

/-- How many more passes can be made. -/
def passesLeft (runnerDefs : List Runner) (active : List (String × ℕ)) (s : SimState) : ℕ :=
  (maxDeploy active - s.totalDeployed) +
    ((runnerDefs.map Runner.instanceType).dedup.length - s.failedTypes.length) + s.pool.length

theorem length_failedTypes_le (hnodup : s.failedTypes.Nodup)
    (hsub : ∀ t ∈ s.failedTypes, t ∈ runnerDefs.map Runner.instanceType) :
    s.failedTypes.length ≤ (runnerDefs.map Runner.instanceType).dedup.length :=
  (hnodup.subperm fun t ht => List.mem_dedup.mpr (hsub t ht)).length_le

/-- Each pass leaves fewer: it places a runner, gives up a type, or drops a name. -/
theorem passesLeft_lt (hless : s.totalDeployed < maxDeploy active)
    (hdrawn : Drawn runnerDefs daemonsets s s') (h' : Consistent runnerDefs active s') :
    passesLeft runnerDefs active s' < passesLeft runnerDefs active s := by
  have hfailed := length_failedTypes_le h'.failed_nodup h'.failed_sub
  obtain @⟨chosen, weight, runner, hpool, hrunner, hmoves⟩ := hdrawn
  cases hmoves with
  | dropped _ =>
    have hindex : s.pool.findIdx (fun p => decide (p.1 = chosen)) < s.pool.length :=
      List.findIdx_lt_length_of_exists ⟨_, hpool, by simp⟩
    simp only [passesLeft, List.length_eraseIdx_of_lt hindex]
    omega
  | failed _ =>
    simp only [passesLeft, List.length_cons] at hfailed ⊢
    omega
  | put _ _ =>
    simp only [passesLeft, SimState.deploy]
    omega
  | provisioned _ =>
    simp only [passesLeft, SimState.deploy]
    omega

variable {draws : ℕ → ℕ} {fuel i : ℕ}

/-- With as many passes as can be made and one more, the loop ends. -/
theorem exists_passes (hnodup : (active.map Prod.fst).Nodup) (h : Consistent runnerDefs active s)
    (hfuel : passesLeft runnerDefs active s < fuel) :
    ∃ s', passes runnerDefs daemonsets active threshold draws fuel i s = some s' := by
  induction fuel generalizing i s with
  | zero => omega
  | succ fuel ih =>
    rw [passes]
    cases hpass : pass runnerDefs daemonsets active threshold (draws i) s with
    | stop s' => exact ⟨s', rfl⟩
    | next s' =>
      obtain ⟨hless, hdrawn⟩ := drawn_of_pass_next hpass
      have h' := h.of_drawn hnodup hless hdrawn
      have hlt := passesLeft_lt hless hdrawn h'
      exact ih h' (by omega)

/-- What every draw keeps holds of the state that the loop ends with, but for the pool. -/
theorem of_passes {P : SimState → Prop}
    (hstep : ∀ s s', P s → s.totalDeployed < maxDeploy active → Drawn runnerDefs daemonsets s s' →
      P s')
    (hs : P s) (h : passes runnerDefs daemonsets active threshold draws fuel i s = some s') :
    ∃ s₀ pool, P s₀ ∧ s' = { s₀ with pool := pool } := by
  induction fuel generalizing i s with
  | zero => cases h
  | succ fuel ih =>
    rw [passes] at h
    cases hpass : pass runnerDefs daemonsets active threshold (draws i) s with
    | stop s₁ =>
      rw [hpass] at h
      obtain rfl := Option.some.inj h
      obtain ⟨pool, hpool⟩ := of_pass_stop hpass
      exact ⟨s, pool, hs, hpool⟩
    | next s₁ =>
      rw [hpass] at h
      obtain ⟨hless, hdrawn⟩ := drawn_of_pass_next hpass
      exact ih (hstep s s₁ hs hless hdrawn) h

/-! ### Capacity -/

/-- The node has what it uses. -/
def SimNode.Within (node : SimNode) : Prop := node.used.FitsIn node.total

instance (node : SimNode) : Decidable node.Within :=
  inferInstanceAs (Decidable (node.used.FitsIn node.total))

theorem SimNode.within_put_iff {node : SimNode} {need : Resources} :
    (node.put need).Within ↔ node.Fits need := by
  simp only [SimNode.Within, SimNode.put, SimNode.Fits, SimNode.remaining, Resources.FitsIn,
    Resources.cpuM_add, Resources.memMi_add, Resources.gpu_add]
  constructor
  · rintro ⟨hcpu, hmem, hgpu⟩
    exact ⟨by omega, by omega, by omega⟩
  · rintro ⟨hcpu, hmem, hgpu⟩
    exact ⟨by omega, by omega, by omega⟩

/-- Every runner that can be drawn fits on a new node of its type. -/
def FitsNewNode (runnerDefs : List Runner) (active : List (String × ℕ))
    (daemonsets : List DaemonSetOverhead) : Prop :=
  ∀ p ∈ active, 0 < p.2 → ∀ runner, runnerByName runnerDefs p.1 = some runner →
    ∀ alloc, computeAllocatable runner.instanceType daemonsets = some alloc →
      (perRunnerTotal runner).FitsIn alloc

theorem within_of_drawn (hfit : FitsNewNode runnerDefs active daemonsets)
    (hpool : ∀ p ∈ s.pool, p ∈ buildWeightedPool active) (h : ∀ node ∈ s.nodes, node.Within)
    (hdrawn : Drawn runnerDefs daemonsets s s') : ∀ node ∈ s'.nodes, node.Within := by
  obtain @⟨chosen, weight, runner, hchosen, hrunner, hmoves⟩ := hdrawn
  cases hmoves with
  | dropped _ => exact h
  | failed _ => exact h
  | @put i node hnode hfits =>
    intro n hn
    obtain ⟨j, hj⟩ := List.mem_iff_getElem?.mp hn
    simp only [SimState.deploy, List.getElem?_modify, Option.map_eq_map, Option.map_eq_some_iff]
      at hj
    obtain ⟨m, hm, rfl⟩ := hj
    split
    case isTrue hij =>
      subst hij
      obtain rfl := Option.some.inj (hnode.symm.trans hm)
      exact SimNode.within_put_iff.mpr hfits
    case isFalse => exact h m (List.mem_of_getElem? hm)
  | @provisioned alloc halloc =>
    intro n hn
    rcases List.mem_append.mp hn with hn | hn
    · exact h n hn
    · rw [List.mem_singleton.mp hn]
      obtain ⟨hactive, hweight⟩ := List.mem_filter.mp (hpool _ hchosen)
      exact hfit _ hactive (of_decide_eq_true hweight) runner hrunner alloc halloc

/-- No runner needs a negative amount. -/
def NeedsNonneg (runnerDefs : List Runner) : Prop :=
  ∀ runner ∈ runnerDefs, 0 ≤ (perRunnerTotal runner).cpuM ∧ 0 ≤ (perRunnerTotal runner).memMi ∧
    0 ≤ (perRunnerTotal runner).gpu

/-- Some node uses more than it has. -/
def Overcommitted (nodes : List SimNode) : Prop :=
  ∃ (j : ℕ) (node : SimNode), nodes[j]? = some node ∧ ¬ node.Within

/-- A node that uses more than it has stays as it is, as no runner fits on it. -/
theorem overcommitted_of_drawn (hneeds : NeedsNonneg runnerDefs) (h : Overcommitted s.nodes)
    (hdrawn : Drawn runnerDefs daemonsets s s') : Overcommitted s'.nodes := by
  obtain ⟨j, node, hnode, hover⟩ := h
  obtain @⟨chosen, weight, runner, hchosen, hrunner, hmoves⟩ := hdrawn
  cases hmoves with
  | dropped _ => exact ⟨j, node, hnode, hover⟩
  | failed _ => exact ⟨j, node, hnode, hover⟩
  | @put i n hn hfits =>
    have hij : i ≠ j := by
      rintro rfl
      obtain rfl := Option.some.inj (hn.symm.trans hnode)
      obtain ⟨hcpu, hmem, hgpu⟩ := hneeds runner (mem_of_runnerByName hrunner).1
      obtain ⟨hcpu', hmem', hgpu'⟩ := hfits
      simp only [SimNode.remaining] at hcpu' hmem' hgpu'
      exact hover ⟨by omega, by omega, by omega⟩
    refine ⟨j, node, ?_, hover⟩
    simp [SimState.deploy, hij, hnode]
  | provisioned _ =>
    refine ⟨j, node, ?_, hover⟩
    simp only [SimState.deploy]
    rw [List.getElem?_append_left (List.getElem?_eq_some_iff.mp hnode).1]
    exact hnode

/-! ### The result -/

variable {targets : Counts}

/-- The number of passes that a simulation may take: those that place runners, those that give up a
type or drop a name, and the last one. -/
def passBound (runnerDefs : List Runner) (targets : Counts) : ℕ :=
  maxDeploy (activeTargets runnerDefs targets) +
    ((runnerDefs.map Runner.instanceType).dedup.length + runnerDefs.length) + 1

/-- What is asked of the result of a simulation: no more runners than there may be, each counted on
one node, and no node with more than it has. -/
structure SimResult.Sound (active : List (String × ℕ)) (result : SimResult) : Prop where
  placed_le : sumOf result.deployed ≤ maxDeploy active
  counted : (result.nodes.map SimNode.runnerCount).sum = sumOf result.deployed
  within : ∀ node ∈ result.nodes, node.Within

/-- The simulation ends in time, with a sound result. -/
def SimulatesSoundly (runnerDefs : List Runner) (targets : Counts)
    (daemonsets : List DaemonSetOverhead) (threshold : ℚ) (draws : ℕ → ℕ) : Prop :=
  ∃ result, runSimulation runnerDefs targets daemonsets threshold draws
    (passBound runnerDefs targets) = some result ∧
      result.Sound (activeTargets runnerDefs targets)

theorem nodup_activeTargets (runnerDefs : List Runner) (targets : Counts) :
    ((activeTargets runnerDefs targets).map Prod.fst).Nodup :=
  targets.nodup.sublist (List.filter_sublist.map Prod.fst)

theorem consistent_initialState (runnerDefs : List Runner) (active : List (String × ℕ)) :
    Consistent runnerDefs active (initialState active) := by
  refine ⟨Nat.zero_le _, rfl, ?_, ?_, fun _ hp => hp, List.nodup_nil, by simp [initialState]⟩
  · simp [initialState, sumOf, Function.comp_def]
  · simp [initialState, Function.comp_def]

theorem passesLeft_initialState_lt (runnerDefs : List Runner) (targets : Counts) :
    passesLeft runnerDefs (activeTargets runnerDefs targets)
      (initialState (activeTargets runnerDefs targets)) < passBound runnerDefs targets := by
  have hpool : (buildWeightedPool (activeTargets runnerDefs targets)).length ≤
      runnerDefs.length := by
    have hsub : ((buildWeightedPool (activeTargets runnerDefs targets)).map Prod.fst).Subperm
        (runnerDefs.map Runner.name) := by
      refine ((nodup_activeTargets runnerDefs targets).sublist
        (List.filter_sublist.map Prod.fst)).subperm fun name hname => ?_
      obtain ⟨p, hp, rfl⟩ := List.mem_map.mp hname
      obtain ⟨-, hsome⟩ := List.mem_filter.mp (List.mem_of_mem_filter hp)
      obtain ⟨runner, hrunner⟩ := Option.isSome_iff_exists.mp hsome
      obtain ⟨hmem, hrname⟩ := mem_of_runnerByName hrunner
      exact hrname ▸ List.mem_map_of_mem hmem
    simpa using hsub.length_le
  simp only [passesLeft, passBound, initialState, List.length_nil]
  omega

/-- If every runner that can be drawn fits on a new node, every simulation is sound. -/
theorem simulatesSoundly_of_fitsNewNode
    (hfit : FitsNewNode runnerDefs (activeTargets runnerDefs targets) daemonsets) (threshold : ℚ)
    (draws : ℕ → ℕ) : SimulatesSoundly runnerDefs targets daemonsets threshold draws := by
  rw [SimulatesSoundly, runSimulation]
  split
  case isTrue => exact ⟨_, rfl, by simp [sumOf], rfl, by simp⟩
  case isFalse =>
    split
    case isTrue => exact ⟨_, rfl, by simp [sumOf], rfl, by simp⟩
    case isFalse =>
      have hnodup := nodup_activeTargets runnerDefs targets
      have hstart := consistent_initialState runnerDefs (activeTargets runnerDefs targets)
      obtain ⟨s', hs'⟩ := @exists_passes runnerDefs daemonsets _ threshold _ draws _ 0 hnodup hstart
        (passesLeft_initialState_lt runnerDefs targets)
      obtain ⟨s₀, pool, ⟨hconsistent, hwithin⟩, rfl⟩ := of_passes
        (P := fun s => Consistent runnerDefs (activeTargets runnerDefs targets) s ∧
          ∀ node ∈ s.nodes, node.Within)
        (fun s s' h hless hdrawn => ⟨h.1.of_drawn hnodup hless hdrawn,
          within_of_drawn hfit h.1.pool_sub h.2 hdrawn⟩)
        ⟨hstart, by simp [initialState]⟩ hs'
      refine ⟨_, by rw [hs']; rfl, ?_, ?_, hwithin⟩
      · exact hconsistent.deployed_sum.trans_le hconsistent.count_le
      · exact hconsistent.nodes_count.trans hconsistent.deployed_sum.symm

theorem one_le_maxDeploy {p : String × ℕ} (hp : p ∈ active) (hpos : 0 < p.2) :
    1 ≤ maxDeploy active := by
  have hle : p.2 ≤ sumOf active := List.single_le_sum (by simp) _ (List.mem_map_of_mem hp)
  rw [maxDeploy]
  omega

/-- If some runner that can be drawn does not fit on a new node, a simulation that draws it first is
not sound. -/
theorem fitsNewNode_of_simulatesSoundly (hneeds : NeedsNonneg runnerDefs) (threshold : ℚ)
    (h : ∀ draws, SimulatesSoundly runnerDefs targets daemonsets threshold draws) :
    FitsNewNode runnerDefs (activeTargets runnerDefs targets) daemonsets := by
  rintro ⟨name, peak⟩ hactive hpeak runner hrunner alloc halloc
  by_contra hover
  have hpool : (name, peak) ∈ buildWeightedPool (activeTargets runnerDefs targets) :=
    List.mem_filter.mpr ⟨hactive, by simpa using hpeak⟩
  obtain ⟨j, hj, hget⟩ := List.mem_iff_getElem.mp hpool
  obtain ⟨result, hresult, hsound⟩ := h fun _ => j
  have hne : activeTargets runnerDefs targets ≠ [] := List.ne_nil_of_mem hactive
  rw [runSimulation, if_neg hne, if_neg (List.ne_nil_of_mem hpool)] at hresult
  obtain ⟨s', hs', rfl⟩ := Option.map_eq_some_iff.mp hresult
  -- The first pass provisions a node for the runner, which uses more than the node has.
  have hfirst : ∃ s₁, pass runnerDefs daemonsets (activeTargets runnerDefs targets) threshold j
      (initialState (activeTargets runnerDefs targets)) = .next s₁ ∧ Overcommitted s₁.nodes := by
    have hdraw : (initialState (activeTargets runnerDefs targets)).pool[
        j % (initialState (activeTargets runnerDefs targets)).pool.length]? =
          some (name, peak) := by
      rw [List.getElem?_eq_some_iff]
      simp only [initialState, Nat.mod_eq_of_lt hj]
      exact ⟨hj, hget⟩
    have hplace : placeRunner daemonsets (initialState (activeTargets runnerDefs targets)) name
        runner = .next ((initialState (activeTargets runnerDefs targets)).deploy name
          ([] ++ [⟨runner.instanceType, alloc, perRunnerTotal runner, 1⟩])) := by
      rw [placeRunner, if_neg (by simp [initialState]), provisionNode, halloc]
      rfl
    refine ⟨(initialState (activeTargets runnerDefs targets)).deploy name
      ([] ++ [⟨runner.instanceType, alloc, perRunnerTotal runner, 1⟩]), ?_, 0,
      ⟨runner.instanceType, alloc, perRunnerTotal runner, 1⟩, rfl, hover⟩
    have hmax : ¬ maxDeploy (activeTargets runnerDefs targets) ≤
        (initialState (activeTargets runnerDefs targets)).totalDeployed :=
      not_le.mpr (one_le_maxDeploy hactive hpeak)
    rw [pass, if_neg (by simp [initialState]), if_neg hmax, hdraw]
    simp only [hrunner]
    exact hplace
  obtain ⟨s₁, hpass, hs₁⟩ := hfirst
  rw [passBound, passes, hpass] at hs'
  obtain ⟨s₀, pool, hs₀, rfl⟩ := of_passes (P := fun s => Overcommitted s.nodes)
    (fun s s' h _ hdrawn => overcommitted_of_drawn hneeds h hdrawn) hs₁ hs'
  obtain ⟨k, node, hnode, hnot⟩ := hs₀
  exact hnot (hsound.within node (List.mem_of_getElem? hnode))

/-- Every simulation is sound if every runner that can be drawn fits on a new node of its type, and,
unless some runner needs a negative amount, only then. -/
theorem simulatesSoundly_iff (runnerDefs : List Runner) (targets : Counts)
    (daemonsets : List DaemonSetOverhead) (threshold : ℚ) :
    (FitsNewNode runnerDefs (activeTargets runnerDefs targets) daemonsets →
      ∀ draws, SimulatesSoundly runnerDefs targets daemonsets threshold draws) ∧
    (NeedsNonneg runnerDefs →
      (∀ draws, SimulatesSoundly runnerDefs targets daemonsets threshold draws) →
        FitsNewNode runnerDefs (activeTargets runnerDefs targets) daemonsets) :=
  ⟨fun hfit draws => simulatesSoundly_of_fitsNewNode hfit threshold draws,
    fun hneeds h => fitsNewNode_of_simulatesSoundly hneeds threshold h⟩

/-! ### Two runners -/

/-- Ten jobs at the peak. -/
def tenJobs : Counts := ⟨[("l-x86iavx512-94-192", 10)], by simp⟩

/-- A runner with so many CPUs, on nodes with 96. -/
def runnerWith (vcpu : ℤ) : Runner := ⟨"l-x86iavx512-94-192", "c7i.24xlarge", vcpu, 163840, 0⟩

theorem computeAllocatable_runnerWith (vcpu : ℤ) :
    computeAllocatable (runnerWith vcpu).instanceType [] = some ⟨95690, 173400, 0⟩ := by
  change computeAllocatable "c7i.24xlarge" [] = _
  decide +kernel

theorem simulatesSoundly_runnerWith_94 (draws : ℕ → ℕ) :
    SimulatesSoundly [runnerWith 94] tenJobs [] (3 / 20) draws := by
  refine (simulatesSoundly_iff _ _ _ _).1 ?_ draws
  intro p _ _ runner hrunner alloc halloc
  obtain rfl := List.mem_singleton.mp (mem_of_runnerByName hrunner).1
  obtain rfl := Option.some.inj ((computeAllocatable_runnerWith 94).symm.trans halloc)
  decide

/-- The runner asks for all the CPUs of the instance type, and is put on a new node unchecked. -/
theorem not_simulatesSoundly_runnerWith_96 :
    ¬ ∀ draws, SimulatesSoundly [runnerWith 96] tenJobs [] (3 / 20) draws := by
  intro h
  obtain ⟨result, hresult, hsound⟩ := h fun _ => 0
  have hover : (runSimulation [runnerWith 96] tenJobs [] (3 / 20) (fun _ => 0)
      (passBound [runnerWith 96] tenJobs)).map (fun result =>
        result.nodes.all fun node => decide node.Within) = some false := by decide +kernel
  rw [hresult] at hover
  have hwithin : result.nodes.all (fun node => decide node.Within) = true :=
    List.all_eq_true.mpr fun node hnode => decide_eq_true (hsound.within node hnode)
  rw [Option.map_some, hwithin] at hover
  cases hover

end CiInfra.Capacity

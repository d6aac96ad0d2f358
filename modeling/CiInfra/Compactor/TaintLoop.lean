import CiInfra.Compactor.Packing
import Mathlib.Data.Finset.Card
import Mathlib.Tactic.Tauto

/-!
# What the taint loop of one group establishes

`LoopInv` is the invariant of the loop after a prefix of the candidates. It bounds the
taints by the surplus and the new ones by the rate, leaves no tainted candidate undecided,
and keeps the spare requirement while anything is tainted.
-/

namespace CiInfra.Compactor

/-- The inputs of a group's loop: candidates are nodes of the group, names are distinct. -/
structure LoopContext.WellFormed (g : LoopContext) : Prop where
  nodup : (g.groupNodes.map NodeState.name).Nodup
  candidates_nodup : (g.candidates.map NodeState.name).Nodup
  candidates_sub : ∀ n ∈ g.candidates, n ∈ g.groupNodes
  surplus_pos : 0 < g.surplus
  maxNewTaints_pos : 0 < g.maxNewTaints

theorem eq_of_name_eq {nodes : List NodeState} (hnodup : (nodes.map NodeState.name).Nodup)
    {a b : NodeState} (ha : a ∈ nodes) (hb : b ∈ nodes) (h : a.name = b.name) : a = b :=
  List.inj_on_of_nodup_map hnodup ha hb h

/-- In a group with distinct names, a name belongs to a tainted node iff its node is tainted. -/
theorem name_mem_taintedNames {nodes : List NodeState}
    (hnodup : (nodes.map NodeState.name).Nodup) {n : NodeState} (hn : n ∈ nodes) :
    n.name ∈ taintedNames nodes ↔ n.isTainted = true := by
  simp only [taintedNames, List.mem_toFinset, List.mem_map, List.mem_filter]
  constructor
  · rintro ⟨m, ⟨hm, ht⟩, hname⟩
    rwa [← eq_of_name_eq hnodup hm hn hname]
  · intro ht
    exact ⟨n, ⟨hn, ht⟩, rfl⟩

theorem mem_taintedNames {nodes : List NodeState} {x : String} :
    x ∈ taintedNames nodes ↔ ∃ n ∈ nodes, n.isTainted = true ∧ n.name = x := by
  simp only [taintedNames, List.mem_toFinset, List.mem_map, List.mem_filter, and_assoc]

/-- Excluding a node from the spare count is counting it as tainted. -/
theorem countSpareNodes_exclude (nodes : List NodeState) (name : String) (toTaint : Finset String)
    (threshold : ℚ) :
    countSpareNodes nodes (some name) toTaint threshold =
      countSpareNodes nodes none (insert name toTaint) threshold := by
  unfold countSpareNodes spareNodes
  congr 1
  apply List.filter_congr
  intro n _
  by_cases h : n.name = name <;> simp [h]

/-- The invariant of the taint loop after the candidates `pre`. -/
structure LoopInv (g : LoopContext) (pre : List NodeState) (st : LoopState) : Prop where
  toTaint_sub : ∀ x ∈ st.toTaint, x ∈ pre.map NodeState.name
  toUntaint_sub : ∀ x ∈ st.toUntaint, ∃ n ∈ pre, n.isTainted = true ∧ n.name = x
  mandatory_sub : ∀ x ∈ st.mandatoryUntaint, x ∈ st.toUntaint
  rateLimited_sub : ∀ x ∈ st.rateLimited, ∃ n ∈ pre, n.isTainted = false ∧ n.name = x
  disjoint : ∀ x ∈ st.toTaint, x ∉ st.toUntaint
  rateLimited_disjoint : ∀ x ∈ st.rateLimited, x ∉ st.toTaint
  decided : ∀ n ∈ pre, n.isTainted = true → n.name ∈ st.toTaint ∨ n.name ∈ st.toUntaint
  taintCount_eq : st.taintCount = st.toTaint.card
  taintCount_le : st.taintCount ≤ g.surplus
  newTaintCount_eq : st.newTaintCount = (st.toTaint \ taintedNames g.groupNodes).card
  newTaintCount_le : st.newTaintCount ≤ g.maxNewTaints
  remaining_sublist : st.conditionallyRemaining.Sublist pre
  remaining_untainted : ∀ n ∈ st.conditionallyRemaining, n.name ∉ st.toTaint
  spare : st.toTaint = ∅ ∨ g.required ≤ 0 ∨
    g.required ≤ countSpareNodes g.groupNodes none st.toTaint g.threshold

theorem LoopInv.initial {g : LoopContext} (hg : g.WellFormed) :
    LoopInv g [] LoopState.initial where
  toTaint_sub := by simp [LoopState.initial, Decision.empty]
  toUntaint_sub := by simp [LoopState.initial, Decision.empty]
  mandatory_sub := by simp [LoopState.initial, Decision.empty]
  rateLimited_sub := by simp [LoopState.initial, Decision.empty]
  disjoint := by simp [LoopState.initial, Decision.empty]
  rateLimited_disjoint := by simp [LoopState.initial, Decision.empty]
  decided := by simp
  taintCount_eq := by simp [LoopState.initial, Decision.empty]
  taintCount_le := hg.surplus_pos.le
  newTaintCount_eq := by simp [LoopState.initial, Decision.empty]
  newTaintCount_le := hg.maxNewTaints_pos.le
  remaining_sublist := List.Sublist.slnil
  remaining_untainted := by simp [LoopState.initial]
  spare := Or.inl rfl

section Step

variable {g : LoopContext} {pre : List NodeState} {st : LoopState} {n : NodeState}

/-- The tests passed by a candidate that is tainted. -/
theorem of_verdict_tainted (h : verdict g st n = .tainted) :
    st.taintCount < g.surplus ∧
      (n.realPods = [] ∨
        podsFitOnNodes n.realPods (g.definitelyRemaining ++ st.conditionallyRemaining) = true) ∧
      (n.isTainted = false → st.newTaintCount < g.maxNewTaints) ∧
      (g.required ≤ 0 ∨
        g.required ≤ countSpareNodes g.groupNodes (some n.name) st.toTaint g.threshold) := by
  unfold verdict at h
  split at h
  · cases h
  split at h
  · cases h
  split at h
  · cases h
  split at h
  · cases h
  rename_i hcount hfit hrate hspare
  refine ⟨by omega, ?_, ?_, by omega⟩
  · by_contra hnot
    rw [not_or] at hnot
    exact hfit ⟨hnot.1, hnot.2⟩
  · intro ht
    by_contra hnot
    exact hrate ⟨ht, by omega⟩

/-- A candidate held back by the rate limit is untainted. -/
theorem of_verdict_skippedRateLimit (h : verdict g st n = .skippedRateLimit) :
    n.isTainted = false := by
  unfold verdict at h
  split at h
  · cases h
  split at h
  · cases h
  split at h
  · rename_i hrate
    exact hrate.1
  split at h <;> cases h

/-- A candidate that is not tainted keeps the loop's taints and, if it was tainted,
is to be untainted. -/
theorem record_of_ne_tainted (st : LoopState) {v : Verdict} (hv : v ≠ .tainted)
    (hrate : v = .skippedRateLimit → n.isTainted = false) :
    (st.record n v).toTaint = st.toTaint ∧
      (st.record n v).taintCount = st.taintCount ∧
      (st.record n v).newTaintCount = st.newTaintCount ∧
      (st.record n v).toUntaint =
        (if n.isTainted then insert n.name st.toUntaint else st.toUntaint) := by
  cases v with
  | pastSurplus => by_cases h : n.isTainted <;> simp [LoopState.record, h]
  | skippedFitSafety => simp [LoopState.record]
  | skippedRateLimit => simp [LoopState.record, hrate rfl]
  | skippedSpareCapacity => simp [LoopState.record]
  | tainted => exact absurd rfl hv

/-- An untainted verdict only extends the mandatory untaints by what is to be untainted. -/
theorem record_mandatory_sub {v : Verdict} (h : ∀ x ∈ st.mandatoryUntaint, x ∈ st.toUntaint) :
    ∀ x ∈ (st.record n v).mandatoryUntaint, x ∈ (st.record n v).toUntaint := by
  intro x hx
  cases v with
  | pastSurplus =>
    by_cases ht : n.isTainted
    · simp only [LoopState.record, ht, if_true, Finset.mem_insert] at hx ⊢
      exact hx.imp_right (h x)
    · simp only [LoopState.record, ht] at hx ⊢
      exact h x hx
  | skippedFitSafety =>
    simp only [LoopState.record] at hx ⊢
    split
    · exact Finset.mem_insert_of_mem (h x hx)
    · exact h x hx
  | skippedRateLimit => exact h x hx
  | skippedSpareCapacity =>
    simp only [LoopState.record] at hx ⊢
    split
    · exact Finset.mem_insert_of_mem (h x hx)
    · exact h x hx
  | tainted => exact h x hx

/-- Only the rate limit adds to the rate-limited set. -/
theorem mem_record_rateLimited {v : Verdict} {x : String}
    (hx : x ∈ (st.record n v).rateLimited) :
    x ∈ st.rateLimited ∨ v = .skippedRateLimit ∧ x = n.name := by
  cases v with
  | pastSurplus =>
    by_cases ht : n.isTainted <;> simp only [LoopState.record, ht, if_true] at hx <;>
      exact Or.inl hx
  | skippedFitSafety => exact Or.inl hx
  | skippedRateLimit =>
    rcases Finset.mem_insert.mp hx with h | h
    · exact Or.inr ⟨rfl, h⟩
    · exact Or.inl h
  | skippedSpareCapacity => exact Or.inl hx
  | tainted => exact Or.inl hx

/-- What remains grows by the candidate at most, and not by a tainted one. -/
theorem record_conditionallyRemaining (st : LoopState) (n : NodeState) (v : Verdict) :
    (st.record n v).conditionallyRemaining = st.conditionallyRemaining ∨
      v ≠ .tainted ∧
        (st.record n v).conditionallyRemaining = st.conditionallyRemaining ++ [n] := by
  cases v with
  | pastSurplus => left; by_cases ht : n.isTainted <;> simp [LoopState.record, ht]
  | skippedFitSafety => exact Or.inr ⟨by simp, rfl⟩
  | skippedRateLimit => exact Or.inr ⟨by simp, rfl⟩
  | skippedSpareCapacity => exact Or.inr ⟨by simp, rfl⟩
  | tainted => exact Or.inl rfl

/-- The invariant is kept by a candidate that is not tainted. -/
theorem LoopInv.step_skip (h : LoopInv g pre st) (hnew : n.name ∉ pre.map NodeState.name)
    (hv : verdict g st n ≠ .tainted) : LoopInv g (pre ++ [n]) (taintStep g st n) := by
  have hrate : verdict g st n = .skippedRateLimit → n.isTainted = false :=
    of_verdict_skippedRateLimit
  obtain ⟨htaint, hcount, hnewcount, huntaint⟩ := record_of_ne_tainted st hv hrate
  have hnot : n.name ∉ st.toTaint := fun hx => hnew (h.toTaint_sub _ hx)
  have hmem : ∀ x, x ∈ (taintStep g st n).toUntaint ↔
      x ∈ st.toUntaint ∨ n.isTainted = true ∧ x = n.name := by
    intro x
    simp only [taintStep, huntaint]
    by_cases ht : n.isTainted <;> simp [ht, or_comm]
  constructor
  · intro x hx
    rw [taintStep, htaint] at hx
    simp [h.toTaint_sub x hx]
  · intro x hx
    rcases (hmem x).mp hx with hx | ⟨ht, rfl⟩
    · obtain ⟨m, hm, hm'⟩ := h.toUntaint_sub x hx
      exact ⟨m, List.mem_append_left _ hm, hm'⟩
    · exact ⟨n, by simp, ht, rfl⟩
  · exact record_mandatory_sub h.mandatory_sub
  · intro x hx
    rcases mem_record_rateLimited hx with hx | ⟨hv', rfl⟩
    · obtain ⟨m, hm, hm'⟩ := h.rateLimited_sub x hx
      exact ⟨m, List.mem_append_left _ hm, hm'⟩
    · exact ⟨n, by simp, hrate hv', rfl⟩
  · intro x hx
    rw [taintStep, htaint] at hx
    rw [hmem, not_or]
    refine ⟨h.disjoint x hx, ?_⟩
    rintro ⟨_, rfl⟩
    exact hnot hx
  · intro x hx
    rw [taintStep, htaint]
    rcases mem_record_rateLimited hx with hx | ⟨_, rfl⟩
    · exact h.rateLimited_disjoint x hx
    · exact hnot
  · intro m hm ht
    rw [hmem, taintStep, htaint]
    rcases List.mem_append.mp hm with hm | hm
    · exact (h.decided m hm ht).imp_right Or.inl
    · rw [List.mem_singleton.mp hm] at ht ⊢
      exact Or.inr (Or.inr ⟨ht, rfl⟩)
  · rw [taintStep, hcount, htaint]
    exact h.taintCount_eq
  · rw [taintStep, hcount]
    exact h.taintCount_le
  · rw [taintStep, hnewcount, htaint]
    exact h.newTaintCount_eq
  · rw [taintStep, hnewcount]
    exact h.newTaintCount_le
  · rcases record_conditionallyRemaining st n (verdict g st n) with hr | ⟨_, hr⟩
    · rw [taintStep, hr]
      exact h.remaining_sublist.trans (List.sublist_append_left _ _)
    · rw [taintStep, hr]
      exact h.remaining_sublist.append (List.Sublist.refl _)
  · intro m hm
    rw [taintStep, htaint]
    rcases record_conditionallyRemaining st n (verdict g st n) with hr | ⟨_, hr⟩
    · rw [taintStep, hr] at hm
      exact h.remaining_untainted m hm
    · rw [taintStep, hr] at hm
      rcases List.mem_append.mp hm with hm | hm
      · exact h.remaining_untainted m hm
      · rwa [List.mem_singleton.mp hm]
  · rw [taintStep, htaint]
    exact h.spare

/-- The invariant is kept by a candidate that is tainted. -/
theorem LoopInv.step_taint (hg : g.WellFormed) (h : LoopInv g pre st) (hn : n ∈ g.groupNodes)
    (hnew : n.name ∉ pre.map NodeState.name) (hv : verdict g st n = .tainted) :
    LoopInv g (pre ++ [n]) (taintStep g st n) := by
  obtain ⟨hcount, _, hrate, hspare⟩ := of_verdict_tainted hv
  have hnot : n.name ∉ st.toTaint := fun hx => hnew (h.toTaint_sub _ hx)
  have hnotU : n.name ∉ st.toUntaint := fun hx => by
    obtain ⟨m, hm, _, hname⟩ := h.toUntaint_sub _ hx
    exact hnew (List.mem_map.mpr ⟨m, hm, hname⟩)
  have hstep : taintStep g st n = { st with
      toTaint := insert n.name st.toTaint
      taintCount := st.taintCount + 1
      newTaintCount := if n.isTainted then st.newTaintCount else st.newTaintCount + 1 } := by
    rw [taintStep, hv]
    rfl
  rw [hstep]
  constructor
  · intro x hx
    rcases Finset.mem_insert.mp hx with rfl | hx
    · simp
    · simp [h.toTaint_sub x hx]
  · intro x hx
    obtain ⟨m, hm, hm'⟩ := h.toUntaint_sub x hx
    exact ⟨m, List.mem_append_left _ hm, hm'⟩
  · exact h.mandatory_sub
  · intro x hx
    obtain ⟨m, hm, hm'⟩ := h.rateLimited_sub x hx
    exact ⟨m, List.mem_append_left _ hm, hm'⟩
  · intro x hx
    rcases Finset.mem_insert.mp hx with rfl | hx
    · exact hnotU
    · exact h.disjoint x hx
  · intro x hx
    have hne : x ≠ n.name := by
      rintro rfl
      obtain ⟨m, hm, _, hname⟩ := h.rateLimited_sub _ hx
      exact hnew (List.mem_map.mpr ⟨m, hm, hname⟩)
    simp only [Finset.mem_insert, hne, false_or]
    exact h.rateLimited_disjoint x hx
  · intro m hm ht
    rcases List.mem_append.mp hm with hm | hm
    · exact (h.decided m hm ht).imp_left (Finset.mem_insert_of_mem)
    · rw [List.mem_singleton.mp hm]
      exact Or.inl (Finset.mem_insert_self _ _)
  · simp only [Finset.card_insert_of_notMem hnot, h.taintCount_eq, Nat.cast_add, Nat.cast_one]
  · simp only
    omega
  · have hiff := name_mem_taintedNames hg.nodup hn
    by_cases ht : n.isTainted
    · rw [Finset.insert_sdiff_of_mem _ (hiff.mpr ht)]
      simp [ht, h.newTaintCount_eq]
    · rw [Finset.insert_sdiff_of_notMem _ (fun hx => ht (hiff.mp hx)),
        Finset.card_insert_of_notMem (fun hx => hnot (Finset.mem_sdiff.mp hx).1)]
      simp [ht, h.newTaintCount_eq]
  · have := h.newTaintCount_le
    by_cases ht : n.isTainted
    · simpa [ht] using this
    · have := hrate (by simpa using ht)
      simp only [ht]
      omega
  · exact h.remaining_sublist.trans (List.sublist_append_left _ _)
  · intro m hm
    have hne : m.name ≠ n.name := fun hname =>
      hnew (List.mem_map.mpr ⟨m, h.remaining_sublist.subset hm, hname⟩)
    simp only [Finset.mem_insert, hne, false_or]
    exact h.remaining_untainted m hm
  · rw [countSpareNodes_exclude] at hspare
    exact Or.inr hspare

/-- One iteration keeps the invariant. -/
theorem LoopInv.step (hg : g.WellFormed) (h : LoopInv g pre st) (hn : n ∈ g.groupNodes)
    (hnew : n.name ∉ pre.map NodeState.name) : LoopInv g (pre ++ [n]) (taintStep g st n) := by
  by_cases hv : verdict g st n = .tainted
  · exact h.step_taint hg hn hnew hv
  · exact h.step_skip hnew hv

end Step

/-- The state of the loop after the candidates `pre`. -/
def loopAfter (g : LoopContext) (pre : List NodeState) : LoopState :=
  pre.foldl (taintStep g) LoopState.initial

theorem loopAfter_append_singleton (g : LoopContext) (pre : List NodeState) (n : NodeState) :
    loopAfter g (pre ++ [n]) = taintStep g (loopAfter g pre) n := by
  simp [loopAfter, List.foldl_append]

theorem taintLoop_eq (g : LoopContext) : taintLoop g = loopAfter g g.candidates := rfl

/-- The invariant holds after every prefix of the candidates. -/
theorem loopInv_loopAfter {g : LoopContext} (hg : g.WellFormed) {pre post : List NodeState}
    (h : g.candidates = pre ++ post) : LoopInv g pre (loopAfter g pre) := by
  induction pre using List.reverseRecOn generalizing post with
  | nil => exact LoopInv.initial hg
  | append_singleton pre n ih =>
    have h' : g.candidates = pre ++ (n :: post) := by simpa using h
    have hnodup := hg.candidates_nodup
    rw [h, List.map_append, List.map_append] at hnodup
    have hnew : n.name ∉ pre.map NodeState.name := by
      have := (List.nodup_append.mp (List.nodup_append.mp hnodup).1).2.2
      intro hmem
      exact this _ hmem _ (by simp) rfl
    rw [loopAfter_append_singleton]
    exact (ih h').step hg (hg.candidates_sub n (by simp [h'])) hnew

/-- The invariant of the whole loop. -/
theorem loopInv_taintLoop {g : LoopContext} (hg : g.WellFormed) :
    LoopInv g g.candidates (taintLoop g) :=
  loopInv_loopAfter hg (List.append_nil g.candidates).symm

/-- Tainted are exactly the nodes for which the loop reached its tainting branch. -/
theorem mem_toTaint_loopAfter {g : LoopContext} {l : List NodeState} {x : String} :
    x ∈ (loopAfter g l).toTaint ↔ ∃ pre n post, l = pre ++ n :: post ∧ n.name = x ∧
      verdict g (loopAfter g pre) n = .tainted := by
  induction l using List.reverseRecOn with
  | nil => simp [loopAfter, LoopState.initial, Decision.empty]
  | append_singleton l n ih =>
    rw [loopAfter_append_singleton]
    have hstep : x ∈ (taintStep g (loopAfter g l) n).toTaint ↔
        x ∈ (loopAfter g l).toTaint ∨
          n.name = x ∧ verdict g (loopAfter g l) n = .tainted := by
      by_cases hv : verdict g (loopAfter g l) n = .tainted
      · rw [taintStep, hv]
        simp only [LoopState.record, Finset.mem_insert, and_true, eq_comm (a := x)]
        exact or_comm
      · rw [taintStep, (record_of_ne_tainted _ hv of_verdict_skippedRateLimit).1]
        simp [hv]
    rw [hstep, ih]
    constructor
    · rintro (⟨pre, n', post, rfl, hname, hv⟩ | ⟨hname, hv⟩)
      · exact ⟨pre, n', post ++ [n], by simp, hname, hv⟩
      · exact ⟨l, n, [], rfl, hname, hv⟩
    · rintro ⟨pre, n', post, heq, hname, hv⟩
      rcases List.eq_nil_or_concat post with rfl | ⟨post', a, rfl⟩
      · obtain ⟨hl, hn⟩ := List.append_inj' heq rfl
        rw [List.singleton_inj.mp hn, hl]
        exact Or.inr ⟨hname, hv⟩
      · have heq' : l ++ [n] = (pre ++ n' :: post') ++ [a] := by simpa using heq
        obtain ⟨hl, _⟩ := List.append_inj' heq' rfl
        exact Or.inl ⟨pre, n', post', hl, hname, hv⟩

/-- What is tainted stays tainted. -/
theorem toTaint_loopAfter_subset {g : LoopContext} {pre post : List NodeState}
    (h : g.candidates = pre ++ post) : (loopAfter g pre).toTaint ⊆ (taintLoop g).toTaint := by
  intro x hx
  obtain ⟨pre', n, post', rfl, hname, hv⟩ := mem_toTaint_loopAfter.mp hx
  rw [taintLoop_eq, mem_toTaint_loopAfter]
  exact ⟨pre', n, post' ++ post, by simp [h], hname, hv⟩

/-- What a longer run taints was tainted before, or is among the further nodes. -/
theorem mem_toTaint_append {g : LoopContext} {pre rest : List NodeState} {x : String}
    (hx : x ∈ (loopAfter g (pre ++ rest)).toTaint) :
    x ∈ (loopAfter g pre).toTaint ∨ x ∈ rest.map NodeState.name := by
  induction rest using List.reverseRecOn with
  | nil => exact Or.inl (by simpa using hx)
  | append_singleton rest n ih =>
    rw [← List.append_assoc, loopAfter_append_singleton] at hx
    by_cases hv : verdict g (loopAfter g (pre ++ rest)) n = .tainted
    · rw [taintStep, hv] at hx
      rcases Finset.mem_insert.mp hx with rfl | hx
      · exact Or.inr (by simp)
      · exact (ih hx).imp_right fun h => by simp [h]
    · rw [taintStep, (record_of_ne_tainted _ hv of_verdict_skippedRateLimit).1] at hx
      exact (ih hx).imp_right fun h => by simp [h]

/-- Candidates have distinct names, so each is tainted when the loop comes to it or never. -/
theorem name_mem_taintLoop_iff {g : LoopContext} (hg : g.WellFormed) {pre post : List NodeState}
    {n : NodeState} (h : g.candidates = pre ++ n :: post) :
    n.name ∈ (taintLoop g).toTaint ↔ verdict g (loopAfter g pre) n = .tainted := by
  have hnodup := hg.candidates_nodup
  rw [h, List.map_append, List.map_cons] at hnodup
  have hdisjoint := List.nodup_append.mp hnodup
  constructor
  · intro hx
    rw [taintLoop_eq, h, List.append_cons] at hx
    have hx := (mem_toTaint_append hx).resolve_right (List.nodup_cons.mp hdisjoint.2.1).1
    by_contra hv
    rw [loopAfter_append_singleton, taintStep,
      (record_of_ne_tainted _ hv of_verdict_skippedRateLimit).1] at hx
    exact hdisjoint.2.2 _ ((loopInv_loopAfter hg h).toTaint_sub _ hx) _ List.mem_cons_self rfl
  · intro hv
    rw [taintLoop_eq, mem_toTaint_loopAfter]
    exact ⟨pre, n, post, h, rfl, hv⟩

/-! ### Recovery -/

/-- Move nodes from the taints to the mandatory untaints. -/
def Decision.recover (d : Decision) (nodes : List NodeState) : Decision :=
  { d with
    toUntaint := d.toUntaint ∪ (nodes.map NodeState.name).toFinset
    mandatoryUntaint := d.mandatoryUntaint ∪ (nodes.map NodeState.name).toFinset
    toTaint := d.toTaint \ (nodes.map NodeState.name).toFinset }

/-- Recovery moves an initial part of the recoverable nodes, none if the requirement is met. -/
theorem exists_recoverSpare (required spare : ℤ) (d : Decision) (nodes : List NodeState) :
    ∃ moved, moved.Sublist nodes ∧ recoverSpare required spare d nodes = d.recover moved ∧
      (required ≤ spare → moved = []) := by
  induction nodes generalizing spare d with
  | nil => exact ⟨[], List.Sublist.slnil, by simp [recoverSpare, Decision.recover], fun _ => rfl⟩
  | cons n rest ih =>
    by_cases h : required ≤ spare
    · exact ⟨[], List.nil_sublist _, by simp [recoverSpare, h, Decision.recover], fun _ => rfl⟩
    · obtain ⟨moved, hsub, heq, _⟩ := ih (spare + 1)
        { d with
          toUntaint := insert n.name d.toUntaint
          mandatoryUntaint := insert n.name d.mandatoryUntaint
          toTaint := d.toTaint.erase n.name }
      refine ⟨n :: moved, hsub.cons_cons n, ?_, fun h' => absurd h' h⟩
      rw [recoverSpare, if_neg h, heq]
      simp only [Decision.recover, List.map_cons, List.toFinset_cons, Decision.mk.injEq, and_true]
      refine ⟨?_, ?_, ?_⟩
      · ext x
        simp only [Finset.mem_sdiff, Finset.mem_erase, Finset.mem_insert]
        tauto
      · rw [Finset.insert_union, Finset.union_insert]
      · rw [Finset.insert_union, Finset.union_insert]

/-- Recovery moves lightly used tainted nodes of the group that were not to be untainted. -/
theorem exists_spareRecovery (g : LoopContext) (d : Decision) :
    ∃ moved : List NodeState, spareRecovery g d = d.recover moved ∧
      (∀ n ∈ moved, n ∈ g.groupNodes ∧ n.isTainted = true ∧ n.name ∉ d.toUntaint ∧
        n.utilization ≤ g.threshold) ∧
      (g.required ≤ 0 ∨ g.required ≤ countSpareNodes g.groupNodes none d.toTaint g.threshold →
        moved = []) := by
  unfold spareRecovery
  split
  · rename_i hreq
    obtain ⟨moved, hsub, heq, hnil⟩ := exists_recoverSpare g.required
      (countSpareNodes g.groupNodes none d.toTaint g.threshold) d (recoverable g d)
    refine ⟨moved, heq, fun n hn => ?_, fun h => hnil (h.resolve_left (by omega))⟩
    have hn := (List.perm_insertionSort _ _).mem_iff.mp (hsub.subset hn)
    simpa only [List.mem_filter, Bool.and_eq_true, decide_eq_true_eq, and_assoc] using hn
  · exact ⟨[], by simp [Decision.recover], by simp, fun _ => rfl⟩

end CiInfra.Compactor

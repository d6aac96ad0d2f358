import CiInfra.Compactor.TaintFloor

/-!
# The process

The process reconciles until it is told to stop, and then cleans up. In a dry run the cycles
write nothing; the cleanup does not know about dry runs.
-/

namespace CiInfra.Compactor

open Kube Interaction Interaction.Program VersionedStore

/-- Sleep until the next cycle in steps of a tenth of a second, or until told to stop. -/
def waitInterval : ℕ → Api Unit
  | 0 => .done ()
  | steps + 1 =>
    .call .shutdownRequested fun
      | true => .done ()
      | false => waitInterval steps

/-- Reconcile until told to stop, for at most so many cycles; tells whether it was. What
goes wrong in a cycle is logged, and what the cycle remembered is kept. -/
def mainLoop (cfg : Config) (orders : ℕ → Orders) : ℕ → Memory → Api Bool
  | 0, _ => .done false
  | cycles + 1, mem =>
    .call .shutdownRequested fun
      | true => .done true
      | false =>
        (reconcile cfg (orders cycles) mem).bind fun (_, mem) =>
          (waitInterval (cfg.interval * 10).toNat).bind fun _ =>
            mainLoop cfg orders cycles mem

/-- Clean up all compactor taints and reservations; failures are logged. -/
def cleanup (cfg : Config) : Api Unit :=
  (cleanupStaleTaints cfg).bind fun _ => cleanupReservations.bind fun _ => .done ()

/-- What the process starts with: empty dictionaries. -/
def Memory.initial : Memory := ⟨fun _ => none, some fun _ => none, some fun _ => []⟩

/-- The process for at most so many cycles; its exit status once it has stopped. -/
def main (cfg : Config) (orders : ℕ → Orders) (cycles : ℕ) : Api (Option ℕ) :=
  (mainLoop cfg orders cycles .initial).bind fun
    | true => (cleanup cfg).bind fun _ => .done (some 0)
    | false => .done none

/-! ### Dry runs -/

section DryRun

variable {cfg : Config} {t : List (Event Op Op.Res)}

/-- In a dry run nothing is acted on. -/
theorem onlyCalls_act (orders : Orders) (mem : Memory) (states : NodeMap) (plan : CyclePlan)
    (hdry : cfg.dryRun = true) : (act cfg orders mem states plan).OnlyCalls Op.Idle := by
  have huntaint : (untaintNodes cfg states (orders.untaint.toList plan.desiredUntaint)).OnlyCalls
      Op.Idle := by
    rw [untaintNodes, hdry]
    refine onlyCalls_sweep ?_ ?_ _
    · exact fun _ _ => trivial
    · exact fun _ _ => trivial
  have htaint : (taintNodes cfg states mem.taintTimes
      (orders.taint.toList plan.desiredTaint)).OnlyCalls Op.Idle := by
    rw [taintNodes, hdry]
    refine onlyCalls_sweep ?_ ?_ _
    · exact fun _ _ => trivial
    · exact fun _ _ => ⟨trivial, fun _ => trivial⟩
  have hreserve : (reconcileReservations states.values plan.reserved cfg.dryRun).OnlyCalls
      Op.Idle := by
    have hreserve : ∀ name, (applyReservation name true).OnlyCalls Op.Idle := fun _ => trivial
    have hrelease : ∀ name, (removeReservation name true).OnlyCalls Op.Idle := fun _ => trivial
    rw [hdry]
    refine (onlyCalls_collectNames hreserve _).bind fun r => ?_
    cases r with
    | error failure => trivial
    | ok added =>
      refine (onlyCalls_collectNames hrelease _).bind fun r => ?_
      cases r <;> trivial
  refine huntaint.bind fun _ => htaint.bind fun taintTimes => ?_
  dsimp only
  split
  · exact hreserve.bind fun _ => trivial
  · trivial

theorem onlyCalls_reconcile (orders : Orders) (mem : Memory) (hdry : cfg.dryRun = true) :
    (reconcile cfg orders mem).OnlyCalls Op.Idle := by
  refine (onlyCalls_observe cfg).bind fun r => ?_
  rcases r with failure | ⟨states, pending⟩
  · trivial
  dsimp only
  split
  · trivial
  · exact (onlyCalls_planCycle ..).bind fun plan => onlyCalls_act _ _ _ _ hdry

theorem onlyCalls_waitInterval (steps : ℕ) : (waitInterval steps).OnlyCalls Op.Idle := by
  induction steps with
  | zero => trivial
  | succ steps ih =>
    refine ⟨trivial, fun stop => ?_⟩
    cases stop with
    | true => trivial
    | false => exact ih

/-- The cycles of a dry run neither patch a node nor read one. -/
theorem onlyCalls_mainLoop (orders : ℕ → Orders) (hdry : cfg.dryRun = true) (cycles : ℕ)
    (mem : Memory) : (mainLoop cfg orders cycles mem).OnlyCalls Op.Idle := by
  induction cycles generalizing mem with
  | zero => trivial
  | succ cycles ih =>
    refine ⟨trivial, fun stop => ?_⟩
    cases stop with
    | true => trivial
    | false =>
      exact (onlyCalls_reconcile _ _ hdry).bind fun _ =>
        (onlyCalls_waitInterval _).bind fun _ => ih _

/-- The loop is left only when the process was told to stop. -/
theorem shutdownRequested_of_mainLoop {orders : ℕ → Orders} {cycles : ℕ} {mem : Memory}
    (ht : Trace (mainLoop cfg orders cycles mem) t (.done true)) :
    ⟨.shutdownRequested, true⟩ ∈ t := by
  induction cycles generalizing mem t with
  | zero => simp [mainLoop] at ht
  | succ cycles ih =>
    obtain ⟨stop, t₁, rfl, ht₁⟩ := trace_call_done_iff.mp ht
    cases stop with
    | true => exact List.mem_cons_self
    | false =>
      obtain ⟨_, _, t₂, rfl, _, ht₂⟩ := trace_bind_done_iff.mp ht₁
      obtain ⟨_, _, t₃, rfl, _, ht₃⟩ := trace_bind_done_iff.mp ht₂
      simp [ih ht₃]

/-- Nothing in this listing is to be cleaned up: no node carries our taint or our marker. -/
def NothingToCleanUp (cfg : Config) (e : Event Op Op.Res) : Prop :=
  ∀ nodes, e = ⟨.listNodes, .ok nodes⟩ →
    ∀ n ∈ nodes, carriesTaint cfg.taintKey n = false ∧ bearsMarker n = false

/-- Where nothing is to be cleaned up, the cleanup lists the nodes twice, and that is all. -/
theorem onlyCallsWhile_cleanup (cfg : Config) :
    (cleanup cfg).OnlyCallsWhile (NothingToCleanUp cfg) Op.Idle := by
  have htaints : (cleanupStaleTaints cfg).OnlyCallsWhile (NothingToCleanUp cfg) Op.Idle := by
    refine ⟨trivial, fun r hr => ?_⟩
    cases r with
    | error failure => trivial
    | ok nodes =>
      have hnil : nodes.filter (carriesTaint cfg.taintKey) = [] := by
        simpa using fun n hn => (hr nodes rfl n hn).1
      dsimp only
      rw [hnil]
      trivial
  have hreservations : cleanupReservations.OnlyCallsWhile (NothingToCleanUp cfg) Op.Idle := by
    refine ⟨trivial, fun r hr => ?_⟩
    cases r with
    | error failure => trivial
    | ok nodes =>
      have hnil : nodes.filter bearsMarker = [] := by
        simpa using fun n hn => (hr nodes rfl n hn).2
      dsimp only
      rw [hnil]
      trivial
  exact htaints.bind fun _ => hreservations.bind fun _ => trivial

/-- **Dry runs do not write** as long as there is nothing to clean up at shutdown: whatever
the calls are answered, and wherever the run is cut off, it has issued no patch if no listing
made after the process was told to stop shows a node with our taint or our marker. -/
theorem main_issues_no_patch {orders : ℕ → Orders} {cycles : ℕ} {q : Api (Option ℕ)}
    (hdry : cfg.dryRun = true) (ht : Trace (main cfg orders cycles) t q)
    (hclean : ∀ before e after, t = before ++ e :: after →
      ⟨.shutdownRequested, true⟩ ∈ before → NothingToCleanUp cfg e) :
    ∀ e ∈ t, ∀ name patch, e.1 ≠ .patchNode name patch := by
  have hidle : ∀ op : Op, op.Idle → ∀ name patch, op ≠ .patchNode name patch := by
    rintro op hop name patch rfl
    exact hop
  suffices h : ∀ e ∈ t, e.1.Idle from fun e he => hidle e.1 (h e he)
  rcases ht.bind_cases with ⟨p', hloop, rfl⟩ | ⟨stopped, t₁, t₂, rfl, hloop, hrest⟩
  · exact (onlyCalls_mainLoop orders hdry cycles _).of_trace hloop
  have h₁ := (onlyCalls_mainLoop orders hdry cycles _).of_trace hloop
  cases stopped with
  | false =>
    cases hrest
    simpa using h₁
  | true =>
    have hanswers : ∀ e ∈ t₂, NothingToCleanUp cfg e := by
      intro e he
      obtain ⟨a, b, rfl⟩ := List.append_of_mem he
      exact hclean (t₁ ++ a) e b (by simp)
        (List.mem_append_left _ (shutdownRequested_of_mainLoop hloop))
    have hcleanup : ((cleanup cfg).bind fun _ => .done (some 0)).OnlyCallsWhile
        (NothingToCleanUp cfg) Op.Idle := (onlyCallsWhile_cleanup cfg).bind fun _ => trivial
    have h₂ := hcleanup.of_trace hrest hanswers
    exact fun e he => (List.mem_append.mp he).elim (h₁ e) (h₂ e)

end DryRun

/-- The bare compactor, told to write nothing. -/
def dryRunConfig : Config := { bareConfig with dryRun := true }

/-- The calls and answers of a process that is stopped before its first cycle on an untainted
node. -/
def stoppedEvents : List (Event Op Op.Res) :=
  [⟨.shutdownRequested, true⟩, ⟨.listNodes, .ok [freshNode "n1"]⟩,
    ⟨.listNodes, .ok [freshNode "n1"]⟩]

/-- With nothing to clean up, that process lists the nodes and issues no patch. -/
theorem stoppedEvents_no_patch :
    ⟨.listNodes, .ok [freshNode "n1"]⟩ ∈ stoppedEvents ∧
      ∀ e ∈ stoppedEvents, ∀ name patch, e.1 ≠ .patchNode name patch := by
  have ht : Trace (main dryRunConfig (fun _ => sortedOrders) 1) stoppedEvents (.done (some 0)) := by
    rw [main, mainLoop, stoppedEvents]
    refine Trace.cons _ ?_
    refine Trace.cons _ ?_
    refine Trace.cons _ ?_
    exact Trace.nil _
  refine ⟨by simp [stoppedEvents],
    main_issues_no_patch rfl ht fun before e after h _ nodes he n hn => ?_⟩
  have hmem : e ∈ stoppedEvents := by simp [h]
  simp only [stoppedEvents, he, List.mem_cons, List.not_mem_nil, or_false] at hmem
  rcases hmem with hmem | hmem | hmem
  · cases hmem
  · cases hmem
    rw [List.mem_singleton.mp hn]
    exact ⟨rfl, rfl⟩
  · cases hmem
    rw [List.mem_singleton.mp hn]
    exact ⟨rfl, rfl⟩

/-- The calls and answers of a process that is stopped before its first cycle on a node that
an earlier run has tainted. -/
def staleEvents : List (Event Op Op.Res) :=
  [⟨.shutdownRequested, true⟩, ⟨.listNodes, .ok [staleNode "n1"]⟩,
    ⟨.getNode "n1", .ok (staleNode "n1")⟩,
    ⟨.patchNode "n1" (removeTaintPatch dryRunConfig.taintKey (staleNode "n1")), .ok ()⟩,
    ⟨.listNodes, .ok [freshNode "n1"]⟩]

/-- Although it is a dry run, that process patches the node when it cleans up. -/
theorem staleEvents_patch :
    dryRunConfig.dryRun = true ∧
      Trace (main dryRunConfig (fun _ => sortedOrders) 1) staleEvents (.done (some 0)) ∧
      ¬ ∀ e ∈ staleEvents, ∀ name patch, e.1 ≠ .patchNode name patch := by
  refine ⟨rfl, ?_, fun h => ?_⟩
  · rw [main, mainLoop, staleEvents]
    refine Trace.cons _ ?_
    refine Trace.cons _ ?_
    refine Trace.cons _ ?_
    refine Trace.cons _ ?_
    refine Trace.cons _ ?_
    exact Trace.nil _
  · exact h ⟨.patchNode "n1" (removeTaintPatch dryRunConfig.taintKey (staleNode "n1")), .ok ()⟩
      (by simp [staleEvents]) _ _ rfl

end CiInfra.Compactor

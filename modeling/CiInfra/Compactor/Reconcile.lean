import CiInfra.Compactor.Cleanup
import CiInfra.Compactor.Discovery
import CiInfra.Compactor.Phantom
import CiInfra.Compactor.Reservations
import CiInfra.Compactor.TaintDecision

/-!
# The reconciliation cycle

A cycle observes the cluster, decides on taints and untaints, lets the cooldowns edit the
decision, and carries it out. What must survive the cycle is kept in `Memory`.
-/

namespace CiInfra.Compactor

open Kube Interaction Interaction.Program VersionedStore

/-- An order in which sets may be iterated; the language leaves it open. -/
structure SetOrder where
  toList : Finset String → List String
  nodup : ∀ s, (toList s).Nodup
  mem_toList : ∀ s x, x ∈ toList s ↔ x ∈ s

/-- The order of the names, by insertion, so that runs in this order can be computed. -/
def SetOrder.sorted : SetOrder where
  toList s := Quot.liftOn s.val (List.insertionSort (· ≤ ·)) fun l l' h =>
    ((l.perm_insertionSort _).trans (h.trans (l'.perm_insertionSort _).symm)).eq_of_pairwise'
      (l.pairwise_insertionSort _) (l'.pairwise_insertionSort _)
  nodup s := by
    obtain ⟨⟨l⟩, hnodup⟩ := s
    exact (l.perm_insertionSort _).nodup_iff.mpr hnodup
  mem_toList s x := by
    obtain ⟨⟨l⟩, hnodup⟩ := s
    exact (l.perm_insertionSort _).mem_iff

/-- The iteration orders of the sets that a cycle loops over. -/
structure Orders where
  burst : SetOrder
  fleetCooldown : SetOrder
  untaint : SetOrder
  taint : SetOrder

/-- The mutable dictionaries handed to every cycle; the last two may be missing. -/
structure Memory where
  taintTimes : String → Option ℚ
  fleetCooldownTimes : Option (String → Option ℚ)
  peakHistory : Option PeakHistory

/-- Group nodes by fleet (node-fleet label), falling back to nodepool. -/
def fleetGroupKey (n : NodeState) : String :=
  ((n.labels labelNodeFleet).filter (· ≠ "")).getD n.nodepool

/-! ### Observing -/

/-- The node states of the managed nodes, phantom load included, and the pending pods. -/
def observe (cfg : Config) : Api (Except Failure (NodeMap × List Pod)) :=
  Api.tryBind (discoverManagedNodes cfg) fun managed =>
    Api.tryBind (buildNodeStates cfg managed) fun (states, pending) =>
      if states.values.isEmpty || pending.isEmpty then .done (.ok (states, pending))
      else
        .call .wallClock fun now =>
          .done (.ok (applyPendingPhantomLoad states pending now, pending))

/-! ### Deciding -/

/-- Record the fleet cooldown for fleets that had burst untaints. -/
def recordBursts (states : NodeMap) : Option (String → Option ℚ) → List String →
    Api (Option (String → Option ℚ))
  | none, _ => .done none
  | some times, [] => .done (some times)
  | some times, name :: rest =>
    match states.get? name with
    | none => recordBursts states (some times) rest
    | some n =>
      .call .wallClock fun now =>
        recordBursts states (some (Function.update times (fleetGroupKey n) (some now))) rest

/-- Drop one node from the desired taints if its fleet is cooling down. The cooldown is
halved while more than half of the fleet is surplus. -/
def fleetCooldownStep (cfg : Config) (states : NodeMap) (times : String → Option ℚ) (now : ℚ)
    (desired : Finset String) (name : String) : Finset String :=
  match states.get? name with
  | none => desired
  | some n =>
    match times (fleetGroupKey n) with
    | none => desired
    | some lastBurst =>
      let fleetNodes := states.values.filter fun m => fleetGroupKey m = fleetGroupKey n
      let surplusCount := (fleetNodes.filter fun m => m.name ∈ desired || m.isTainted).length
      let effective :=
        if (fleetNodes.length : ℚ) * (1 / 2) < surplusCount then cfg.fleetCooldown / 2
        else cfg.fleetCooldown
      if now - lastBurst < (effective : ℚ) then desired.erase name else desired

/-- Fleet cooldown: block new taints in fleets that recently had a burst untaint. -/
def fleetCooldown (cfg : Config) (states : NodeMap) (times? : Option (String → Option ℚ))
    (now : ℚ) (order : SetOrder) (desired : Finset String) : Finset String :=
  match times? with
  | none => desired
  | some times =>
    if 0 < cfg.fleetCooldown then
      (order.toList desired).foldl (fleetCooldownStep cfg states times now) desired
    else desired

/-- The untaints held back: those not exempt of nodes that were tainted recently. A node
without a taint time counts as tainted at time 0. -/
def cooldownBlocked (cfg : Config) (taintTimes : String → Option ℚ) (now : ℚ)
    (desiredUntaint exempt : Finset String) : Finset String :=
  (desiredUntaint \ exempt).filter fun name =>
    now - (taintTimes name).getD 0 < (cfg.taintCooldown : ℚ)

/-- What a cycle has decided. -/
structure CyclePlan where
  /-- The groups with the `min_needed` that the decision used. -/
  groups : List GroupPlan
  reserved : Finset String
  desiredTaint : Finset String
  desiredUntaint : Finset String
  cooldownBlocked : Finset String
  fleetCooldownTimes : Option (String → Option ℚ)
  peakHistory : Option PeakHistory

/-- The nodes reserved in any pool. -/
def allReserved (cfg : Config) (states : NodeMap) (now : ℚ) : Finset String :=
  if 0 < cfg.capacityReservationNodes then
    ((selectReservedNodes (Grouping.groupBy NodeState.nodepool states.values) cfg now).flatMap
      fun pool => pool.2.map NodeState.name).toFinset
  else ∅

/-- Decide on the changes: taints and untaints by group, the burst merge, the fleet
cooldown and the taint cooldown. The selection of the reserved nodes and the decision, which
follow one another at once, share a reading of the wall clock. -/
def planCycle (cfg : Config) (orders : Orders) (mem : Memory) (states : NodeMap)
    (pending : List Pod) : Api CyclePlan :=
  let burst := (checkPendingPods cfg states pending).1
  (recordBursts states mem.fleetCooldownTimes (orders.burst.toList burst)).bind fun fleetTimes =>
    .call .wallClock fun now =>
      .call .monotonicClock fun mono =>
        let reserved := allReserved cfg states now
        let (decision, peakHistory) :=
          computeTaints states cfg reserved fleetGroupKey mem.peakHistory pending now mono
        .call .wallClock fun nowFleet =>
          let desiredUntaint := decision.toUntaint ∪ burst
          let desiredTaint := fleetCooldown cfg states fleetTimes nowFleet orders.fleetCooldown
            (decision.toTaint \ burst)
          .call .wallClock fun nowCooldown =>
            let blocked := cooldownBlocked cfg mem.taintTimes nowCooldown desiredUntaint
              (burst ∪ decision.mandatoryUntaint)
            .done
              { groups := (groupPlans states cfg fleetGroupKey mem.peakHistory pending now mono).1
                reserved := reserved
                desiredTaint := desiredTaint
                desiredUntaint := desiredUntaint \ blocked
                cooldownBlocked := blocked
                fleetCooldownTimes := fleetTimes
                peakHistory := peakHistory }

/-! ### Acting -/

/-- Untaint the tainted ones of the named nodes. -/
def untaintNodes (cfg : Config) (states : NodeMap) (names : List String) : Api Unit :=
  sweep (removeTaint · cfg.taintKey cfg.dryRun) (fun _ _ => .done ()) ()
    (names.filter fun name => (states.get? name).any NodeState.isTainted)

/-- Taint the untainted ones of the named nodes, and record when. -/
def taintNodes (cfg : Config) (states : NodeMap) (taintTimes : String → Option ℚ)
    (names : List String) : Api (String → Option ℚ) :=
  sweep (applyTaint · cfg.taintKey cfg.dryRun)
    (fun name times => .call .wallClock fun now =>
      .done (Function.update times name (some now))) taintTimes
    (names.filter fun name => (states.get? name).any fun n => !n.isTainted)

/-- Carry out what was decided. -/
def act (cfg : Config) (orders : Orders) (mem : Memory) (states : NodeMap) (plan : CyclePlan) :
    Api (Except Failure Unit × Memory) :=
  (untaintNodes cfg states (orders.untaint.toList plan.desiredUntaint)).bind fun _ =>
    (taintNodes cfg states mem.taintTimes (orders.taint.toList plan.desiredTaint)).bind
      fun taintTimes =>
        let mem := ⟨taintTimes, plan.fleetCooldownTimes, plan.peakHistory⟩
        if 0 < cfg.capacityReservationNodes then
          (reconcileReservations states.values plan.reserved cfg.dryRun).bind fun r =>
            .done (r.map fun _ => (), mem)
        else .done (.ok (), mem)

/-- Single reconciliation cycle. -/
def reconcile (cfg : Config) (orders : Orders) (mem : Memory) :
    Api (Except Failure Unit × Memory) :=
  (observe cfg).bind fun
    | .error failure => .done (.error failure, mem)
    | .ok (states, pending) =>
      if states.values.isEmpty then .done (.ok (), mem)
      else
        (planCycle cfg orders mem states pending).bind fun plan =>
          act cfg orders mem states plan

end CiInfra.Compactor

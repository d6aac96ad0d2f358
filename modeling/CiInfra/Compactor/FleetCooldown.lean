import CiInfra.Compactor.SpareCapacity

/-!
# The fleet cooldown

After a burst untaint a fleet is not tainted again for a while. The cooldown goes over the desired
taints one by one and drops nodes as it goes, while it decides on every node by what the fleet
still has among them. It never changes its mind about a fleet: what it drops makes the fleet's
cooldown longer, not shorter. So it drops all nodes of a fleet or none, in whatever order it goes.
-/

namespace CiInfra.Compactor

open Kube Interaction Interaction.Program

/-! ### One fleet -/

/-- The nodes of a fleet. -/
def fleetNodes (states : NodeMap) (fleet : String) : List NodeState :=
  states.values.filter fun m => fleetGroupKey m = fleet

/-- The nodes of a fleet that are tainted or to be tainted. -/
def surplusNodes (states : NodeMap) (desired : Finset String) (fleet : String) : List NodeState :=
  (fleetNodes states fleet).filter fun m => m.name ∈ desired || m.isTainted

/-- The cooldown of a fleet, halved while more than half of it is surplus. -/
def effectiveCooldown (cfg : Config) (states : NodeMap) (desired : Finset String)
    (fleet : String) : ℤ :=
  if ((fleetNodes states fleet).length : ℚ) * (1 / 2) <
      (surplusNodes states desired fleet).length then cfg.fleetCooldown / 2
  else cfg.fleetCooldown

/-- The fleet is cooling down. -/
def IsCooling (cfg : Config) (states : NodeMap) (times : String → Option ℚ) (now : ℚ)
    (desired : Finset String) (fleet : String) : Prop :=
  ∃ lastBurst ∈ times fleet, now - lastBurst < (effectiveCooldown cfg states desired fleet : ℚ)

instance (cfg : Config) (states : NodeMap) (times : String → Option ℚ) (now : ℚ)
    (desired : Finset String) (fleet : String) :
    Decidable (IsCooling cfg states times now desired fleet) :=
  inferInstanceAs (Decidable (∃ lastBurst ∈ times fleet, _))

/-- The node belongs to a fleet that is cooling down. -/
def IsHeld (cfg : Config) (states : NodeMap) (times : String → Option ℚ) (now : ℚ)
    (desired : Finset String) (name : String) : Prop :=
  ∃ n ∈ states.get? name, IsCooling cfg states times now desired (fleetGroupKey n)

instance (cfg : Config) (states : NodeMap) (times : String → Option ℚ) (now : ℚ)
    (desired : Finset String) (name : String) :
    Decidable (IsHeld cfg states times now desired name) :=
  inferInstanceAs (Decidable (∃ n ∈ states.get? name, _))

section Fleet

variable {cfg : Config} {states : NodeMap} {times : String → Option ℚ} {now : ℚ}
  {desired kept : Finset String} {fleet : String}

theorem fleetCooldownStep_eq (desired : Finset String) (name : String) :
    fleetCooldownStep cfg states times now desired name =
      if IsHeld cfg states times now desired name then desired.erase name else desired := by
  unfold fleetCooldownStep
  split
  · rename_i hnone
    simp [IsHeld, hnone]
  rename_i n hsome
  split
  · rename_i htime
    simp [IsHeld, IsCooling, hsome, htime]
  · rename_i lastBurst htime
    simp [IsHeld, IsCooling, hsome, htime, effectiveCooldown, fleetNodes, surplusNodes]

/-- Fewer desired taints never shorten a cooldown. -/
theorem effectiveCooldown_anti (hcooldown : 0 < cfg.fleetCooldown) (hsub : kept ⊆ desired)
    (fleet : String) :
    effectiveCooldown cfg states desired fleet ≤ effectiveCooldown cfg states kept fleet := by
  have hle : (surplusNodes states kept fleet).length ≤
      (surplusNodes states desired fleet).length := by
    unfold surplusNodes
    rw [← List.countP_eq_length_filter, ← List.countP_eq_length_filter]
    refine List.countP_mono_left fun m _ hm => ?_
    simp only [Bool.or_eq_true, decide_eq_true_eq] at hm ⊢
    exact hm.imp_left fun h => hsub h
  have hcast : ((surplusNodes states kept fleet).length : ℚ) ≤
      (surplusNodes states desired fleet).length := Nat.cast_le.mpr hle
  unfold effectiveCooldown
  split
  · split <;> omega
  · rename_i hnot
    rw [if_neg fun h => hnot (h.trans_le hcast)]

/-- A fleet that is cooling down still is when fewer of its nodes are to be tainted. -/
theorem IsCooling.anti (h : IsCooling cfg states times now desired fleet)
    (hcooldown : 0 < cfg.fleetCooldown) (hsub : kept ⊆ desired) :
    IsCooling cfg states times now kept fleet := by
  obtain ⟨lastBurst, htime, hlt⟩ := h
  exact ⟨lastBurst, htime, hlt.trans_le
    (Int.cast_le.mpr (effectiveCooldown_anti hcooldown hsub fleet))⟩

/-- Whether a fleet is cooling down depends on its own nodes only. -/
theorem isCooling_congr
    (h : ∀ n ∈ states.values, fleetGroupKey n = fleet → (n.name ∈ kept ↔ n.name ∈ desired)) :
    IsCooling cfg states times now kept fleet ↔ IsCooling cfg states times now desired fleet := by
  have hsurplus : surplusNodes states kept fleet = surplusNodes states desired fleet := by
    refine List.filter_congr fun m hm => ?_
    obtain ⟨hmem, hfleet⟩ := List.mem_filter.mp hm
    have hiff := h m hmem (of_decide_eq_true hfleet)
    rw [decide_eq_decide.mpr hiff]
  unfold IsCooling effectiveCooldown
  rw [hsurplus]

/-- After the names `pre` the desired taints without the held ones among these are left. -/
theorem foldl_fleetCooldownStep (hcooldown : 0 < cfg.fleetCooldown) {pre post : List String}
    (hnodup : (pre ++ post).Nodup) :
    pre.foldl (fleetCooldownStep cfg states times now) desired =
      desired.filter fun x => ¬ (x ∈ pre ∧ IsHeld cfg states times now desired x) := by
  induction pre using List.reverseRecOn generalizing post with
  | nil => simp
  | append_singleton pre name ih =>
    rw [List.append_assoc] at hnodup
    have hkept := ih hnodup
    generalize hd : pre.foldl (fleetCooldownStep cfg states times now) desired = kept at hkept
    rw [List.foldl_append, hd, List.foldl_cons, List.foldl_nil, fleetCooldownStep_eq]
    have hsub : kept ⊆ desired := hkept ▸ Finset.filter_subset _ _
    -- as long as the fleet is not held, none of its nodes has been dropped
    have hheld : IsHeld cfg states times now kept name ↔
        IsHeld cfg states times now desired name := by
      refine exists_congr fun n => and_congr_right fun hn => ⟨fun h => ?_, fun h =>
        h.anti hcooldown hsub⟩
      by_contra hcool
      refine hcool ((isCooling_congr fun m hm hfleet => ?_).mp h)
      rw [hkept, Finset.mem_filter, and_iff_left_iff_imp]
      rintro - ⟨-, m', hm', hcooling⟩
      rw [NodeMap.get?_eq_some_iff.mpr ⟨hm, rfl⟩] at hm'
      obtain rfl := Option.some.inj hm'
      exact hcool (hfleet ▸ hcooling)
    ext x
    by_cases h : IsHeld cfg states times now desired name
    · rw [if_pos (hheld.mpr h), Finset.mem_erase, hkept]
      by_cases hx : x = name
      · simp [hx, h]
      · simp [hx]
    · rw [if_neg fun h' => h (hheld.mp h'), hkept]
      by_cases hx : x = name
      · simp [hx, h]
      · simp [hx]

/-- The fleet cooldown drops the nodes of the fleets that are cooling down, in whatever order it
goes over them. -/
theorem fleetCooldown_eq (hcooldown : 0 < cfg.fleetCooldown) (order : SetOrder) :
    fleetCooldown cfg states (some times) now order desired =
      desired.filter fun x => ¬ IsHeld cfg states times now desired x := by
  have hnodup : (order.toList desired ++ []).Nodup := by simpa using order.nodup desired
  rw [fleetCooldown, if_pos hcooldown, foldl_fleetCooldownStep hcooldown hnodup]
  refine Finset.filter_congr fun x hx => not_congr (and_iff_right ?_)
  exact (order.mem_toList _ _).mpr hx

end Fleet

/-! ### Runs of cycles -/

/-- When the fleet was last untainted in a burst. -/
def lastBurst (log : List (String × ℚ)) (fleet : String) : Option ℚ :=
  (log.filter fun burst => burst.1 = fleet).getLast?.map Prod.snd

theorem lastBurst_append_singleton (log : List (String × ℚ)) (fleet : String) (now : ℚ) :
    lastBurst (log ++ [(fleet, now)]) = Function.update (lastBurst log) fleet (some now) := by
  funext x
  by_cases hx : x = fleet
  · subst hx
    simp [lastBurst]
  · have hne : fleet ≠ x := fun h => hx h.symm
    simp [lastBurst, hx, hne]

/-- The fleets of the named nodes. -/
def burstFleets (states : NodeMap) (names : List String) : List String :=
  names.filterMap fun name => (states.get? name).map fleetGroupKey

/-- A reading of the wall clock. -/
def wallReading (now : ℚ) : Event Op Op.Res := ⟨.wallClock, now⟩

theorem wallReading_injective : Function.Injective wallReading :=
  fun _ _ h => eq_of_heq (Sigma.mk.inj h).2

/-- Recording the bursts reads the clock once for every node that is known. -/
theorem trace_recordBursts {states : NodeMap} {names : List String} {log : List (String × ℚ)}
    {t : List (Event Op Op.Res)} {r : Option (String → Option ℚ)}
    (ht : Trace (recordBursts states (some (lastBurst log)) names) t (.done r)) :
    ∃ readings : List ℚ, readings.length = (burstFleets states names).length ∧
      t = readings.map wallReading ∧
      r = some (lastBurst (log ++ (burstFleets states names).zip readings)) := by
  induction names generalizing log t with
  | nil =>
    obtain ⟨rfl, hr⟩ := trace_done_iff.mp ht
    obtain rfl := Program.done.inj hr
    exact ⟨[], rfl, rfl, by simp [burstFleets]⟩
  | cons name rest ih =>
    rw [recordBursts] at ht
    split at ht
    · rename_i hget
      obtain ⟨readings, hlen, ht, hr⟩ := ih ht
      have hfleets : burstFleets states (name :: rest) = burstFleets states rest := by
        simp [burstFleets, hget]
      rw [hfleets]
      exact ⟨readings, hlen, ht, hr⟩
    · rename_i n hget
      obtain ⟨now, t', rfl, ht'⟩ := trace_call_done_iff.mp ht
      have hlog := lastBurst_append_singleton log (fleetGroupKey n) (now : ℚ)
      obtain ⟨readings, hlen, rfl, rfl⟩ := ih (hlog ▸ ht')
      have hfleets : burstFleets states (name :: rest) =
          fleetGroupKey n :: burstFleets states rest := by
        simp [burstFleets, hget]
      rw [hfleets]
      refine ⟨(now : ℚ) :: readings, congrArg Nat.succ hlen, rfl, ?_⟩
      rw [List.append_assoc]
      rfl

section Runs

variable {cfg : Config} {orders : Orders} {mem mem' : Memory} {states : NodeMap}
  {pending : List Pod} {log bursts : List (String × ℚ)} {nowFleet : ℚ} {plan : CyclePlan}
  {t : List (Event Op Op.Res)} {r : Except Failure Unit}

/-- A cycle plans this, where it untaints the fleets in these bursts and then reads this time for
the fleet cooldown. -/
def Plans (cfg : Config) (orders : Orders) (mem : Memory) (states : NodeMap) (pending : List Pod)
    (bursts : List (String × ℚ)) (nowFleet : ℚ) (plan : CyclePlan) : Prop :=
  let fleets := burstFleets states (orders.burst.toList (checkPendingPods cfg states pending).1)
  ∃ (readings : List ℚ) (now mono nowCooldown : ℚ), readings.length = fleets.length ∧
    bursts = fleets.zip readings ∧
    Trace (planCycle cfg orders mem states pending)
      (readings.map wallReading ++ [wallReading now, ⟨.monotonicClock, mono⟩,
        wallReading nowFleet, wallReading nowCooldown]) (.done plan)

/-- The cycles of one process: the log of the bursts so far, and what it remembers. -/
inductive Cycles (cfg : Config) : List (String × ℚ) → Memory → Prop
  | start : Cycles cfg [] .initial
  | cycle {orders : Orders} {mem mem' : Memory} {states : NodeMap} {pending : List Pod}
      {log bursts : List (String × ℚ)} {nowFleet : ℚ} {plan : CyclePlan}
      {t : List (Event Op Op.Res)} {r : Except Failure Unit} :
      Cycles cfg log mem → Plans cfg orders mem states pending bursts nowFleet plan →
      Trace (act cfg orders mem states plan) t (.done (r, mem')) → Cycles cfg (log ++ bursts) mem'

/-- Every trace of the planning is of this form. -/
theorem exists_plans (hmem : mem.fleetCooldownTimes = some (lastBurst log))
    (ht : Trace (planCycle cfg orders mem states pending) t (.done plan)) :
    ∃ bursts nowFleet, Plans cfg orders mem states pending bursts nowFleet plan := by
  obtain ⟨times, t₁, t₂, heq, h₁, h₂⟩ := trace_bind_done_iff.mp ht
  rw [hmem] at h₁
  obtain ⟨readings, hlen, rfl, -⟩ := trace_recordBursts h₁
  obtain ⟨now, t₃, rfl, h₃⟩ := trace_call_done_iff.mp h₂
  obtain ⟨mono, t₄, rfl, h₄⟩ := trace_call_done_iff.mp h₃
  obtain ⟨nowFleet, t₅, rfl, h₅⟩ := trace_call_done_iff.mp h₄
  obtain ⟨nowCooldown, t₆, rfl, h₆⟩ := trace_call_done_iff.mp h₅
  obtain ⟨rfl, -⟩ := trace_done_iff.mp h₆
  exact ⟨_, nowFleet, readings, now, mono, nowCooldown, hlen, rfl, heq ▸ ht⟩

/-- The plan remembers the bursts, and its taints are what the fleet cooldown has left. -/
theorem Plans.spec (h : Plans cfg orders mem states pending bursts nowFleet plan)
    (hmem : mem.fleetCooldownTimes = some (lastBurst log)) :
    plan.fleetCooldownTimes = some (lastBurst (log ++ bursts)) ∧
      ∃ desired, plan.desiredTaint = fleetCooldown cfg states (some (lastBurst (log ++ bursts)))
        nowFleet orders.fleetCooldown desired := by
  obtain ⟨readings, now, mono, nowCooldown, hlen, rfl, ht⟩ := h
  obtain ⟨times, t₁, t₂, heq, h₁, h₂⟩ := trace_bind_done_iff.mp ht
  rw [hmem] at h₁
  obtain ⟨readings', hlen', rfl, rfl⟩ := trace_recordBursts h₁
  obtain ⟨hreadings, rfl⟩ := List.append_inj heq (by simp [hlen, hlen'])
  obtain rfl := List.map_injective_iff.mpr wallReading_injective hreadings
  obtain ⟨_, _, hcons, h₃⟩ := trace_call_done_iff.mp h₂
  obtain ⟨-, rfl⟩ := List.cons.inj hcons
  obtain ⟨_, _, hcons, h₄⟩ := trace_call_done_iff.mp h₃
  obtain ⟨-, rfl⟩ := List.cons.inj hcons
  obtain ⟨_, _, hcons, h₅⟩ := trace_call_done_iff.mp h₄
  obtain ⟨hevent, rfl⟩ := List.cons.inj hcons
  obtain rfl := wallReading_injective hevent
  obtain ⟨_, _, -, h₆⟩ := trace_call_done_iff.mp h₅
  obtain ⟨-, hplan⟩ := trace_done_iff.mp h₆
  obtain rfl := Program.done.inj hplan
  exact ⟨rfl, _, rfl⟩

/-- Acting on a plan keeps its record of the bursts. -/
theorem fleetCooldownTimes_act :
    (act cfg orders mem states plan).AllReturn fun r =>
      r.2.fleetCooldownTimes = plan.fleetCooldownTimes := by
  refine AllReturn.bind _ fun _ => AllReturn.bind _ fun taintTimes => ?_
  dsimp only
  split
  · exact AllReturn.bind _ fun r => rfl
  · rfl

/-- A process remembers its last bursts. -/
theorem Cycles.fleetCooldownTimes_eq (h : Cycles cfg log mem) :
    mem.fleetCooldownTimes = some (lastBurst log) := by
  induction h with
  | start => rfl
  | cycle _ hplans hact ih =>
    rw [fleetCooldownTimes_act.of_trace hact]
    exact (hplans.spec ih).1

/-- Every cycle carries such a run on, whatever its calls are answered. -/
theorem Cycles.reconcile (h : Cycles cfg log mem)
    (ht : Trace (reconcile cfg orders mem) t (.done (r, mem'))) :
    ∃ bursts, Cycles cfg (log ++ bursts) mem' := by
  obtain ⟨observed, t₁, t₂, rfl, -, h₂⟩ := trace_bind_done_iff.mp ht
  rcases observed with failure | ⟨states, pending⟩
  · obtain ⟨-, hdone⟩ := trace_done_iff.mp h₂
    obtain ⟨-, rfl⟩ := Prod.mk.inj (Program.done.inj hdone)
    exact ⟨[], by simpa using h⟩
  dsimp only at h₂
  split at h₂
  · obtain ⟨-, hdone⟩ := trace_done_iff.mp h₂
    obtain ⟨-, rfl⟩ := Prod.mk.inj (Program.done.inj hdone)
    exact ⟨[], by simpa using h⟩
  · obtain ⟨plan, t₃, t₄, rfl, hplan, hact⟩ := trace_bind_done_iff.mp h₂
    obtain ⟨bursts, nowFleet, hplans⟩ := exists_plans h.fleetCooldownTimes_eq hplan
    exact ⟨bursts, .cycle h hplans hact⟩

/-- In a fleet whose taints the cooldown leaves, at least half of the cooldown has passed. -/
theorem le_elapsed_of_mem_fleetCooldown {times : String → Option ℚ} {now lastBurst : ℚ}
    {order : SetOrder} {desired : Finset String} {n : NodeState}
    (hcooldown : 0 < cfg.fleetCooldown) (hn : n ∈ states.values)
    (htime : times (fleetGroupKey n) = some lastBurst)
    (hmem : n.name ∈ fleetCooldown cfg states (some times) now order desired) :
    ((cfg.fleetCooldown / 2 : ℤ) : ℚ) ≤ now - lastBurst := by
  rw [fleetCooldown_eq hcooldown, Finset.mem_filter] at hmem
  by_contra hlt
  refine hmem.2 ⟨n, NodeMap.get?_eq_some_iff.mpr ⟨hn, rfl⟩, lastBurst, htime, ?_⟩
  refine (not_le.mp hlt).trans_le (Int.cast_le.mpr ?_)
  unfold effectiveCooldown
  split <;> omega

end Runs

/-- The cooldown drops the nodes of a fleet from the desired taints all together or not at all,
and which it drops does not depend on the order it goes in. Over any run of cycles, a cycle
taints a node only if half of the cooldown has passed since the last burst of its fleet, which
may be in that cycle, when it reads the clock before it taints, unless the clock has been turned
back; with a positive cooldown also then. -/
theorem fleetCooldown_allOrNone (cfg : Config) :
    (∀ states times? now desired, ∃ kept, (∀ order, fleetCooldown cfg states times? now order
        desired = kept) ∧
      ∀ fleet, (∀ n ∈ fleetNodes states fleet, n.name ∈ desired → n.name ∉ kept) ∨
        ∀ n ∈ fleetNodes states fleet, n.name ∈ desired → n.name ∈ kept) ∧
    ∀ orders log mem states pending bursts nowFleet plan, Cycles cfg log mem →
      Plans cfg orders mem states pending bursts nowFleet plan →
        ∀ t q, Trace (act cfg orders mem states plan) t q →
          ∀ n ∈ states.values, n.name ∈ taintedIn t →
            ∀ last ∈ lastBurst (log ++ bursts) (fleetGroupKey n),
              last ≤ nowFleet ∨ 0 < cfg.fleetCooldown →
                ((cfg.fleetCooldown / 2 : ℤ) : ℚ) ≤ nowFleet - last := by
  constructor
  · intro states times? now desired
    by_cases hcooldown : 0 < cfg.fleetCooldown
    · cases times? with
      | none => exact ⟨desired, fun _ => rfl, fun _ => Or.inr fun _ _ h => h⟩
      | some times =>
        refine ⟨_, fleetCooldown_eq hcooldown, fun fleet => ?_⟩
        have hget : ∀ n ∈ fleetNodes states fleet,
            states.get? n.name = some n ∧ fleetGroupKey n = fleet := by
          intro n hn
          obtain ⟨hn, hfleet⟩ := List.mem_filter.mp hn
          exact ⟨NodeMap.get?_eq_some_iff.mpr ⟨hn, rfl⟩, of_decide_eq_true hfleet⟩
        by_cases hcooling : IsCooling cfg states times now desired fleet
        · refine Or.inl fun n hn _ hkept => (Finset.mem_filter.mp hkept).2 ⟨n, (hget n hn).1, ?_⟩
          rw [(hget n hn).2]
          exact hcooling
        · refine Or.inr fun n hn hdesired => Finset.mem_filter.mpr ⟨hdesired, ?_⟩
          rintro ⟨m, hm, hcooling'⟩
          rw [(hget n hn).1] at hm
          obtain rfl := Option.some.inj hm
          rw [(hget n hn).2] at hcooling'
          exact hcooling hcooling'
    · refine ⟨desired, fun order => ?_, fun _ => Or.inr fun _ _ h => h⟩
      cases times? with
      | none => rfl
      | some times => exact if_neg hcooldown
  · intro orders log mem states pending bursts nowFleet plan hcycles hplans t q ht n hn hmem last
      hlast hclock
    obtain ⟨-, desired, hdesired⟩ := hplans.spec hcycles.fleetCooldownTimes_eq
    by_cases hcooldown : 0 < cfg.fleetCooldown
    · obtain ⟨e, he, ops, hop⟩ := mem_taintedIn.mp hmem
      have hwanted := (onlyCalls_act_taints orders mem plan).of_trace ht e he n.name ops hop
      rw [hdesired] at hwanted
      exact le_elapsed_of_mem_fleetCooldown hcooldown hn hlast hwanted
    · have hle : last ≤ nowFleet := hclock.resolve_right hcooldown
      have hhalf : ((cfg.fleetCooldown / 2 : ℤ) : ℚ) ≤ 0 := by
        have : cfg.fleetCooldown / 2 ≤ 0 := by omega
        exact_mod_cast this
      linarith

/-- The bare compactor with a fleet cooldown of a quarter of an hour. -/
def cooldownConfig : Config := { bareConfig with fleetCooldown := 900 }

/-- A tainted idle node and a busy one. -/
def burstNodes : NodeMap where
  values := [makeNode "n1" 0 false [9], makeNode "n2" 0 true []]
  nodup := by decide

/-- The two nodes some time later, both untainted and one of them still idle. -/
def calmNodes : NodeMap where
  values := [makeNode "n1" 0 false [9], makeNode "n2" 0 false []]
  nodup := by decide

/-- What the first cycle plans for them a quarter of an hour on, when a pod is waiting for the
tainted node. -/
def burstPlan : CyclePlan :=
  ((planCycle cooldownConfig sortedOrders .initial burstNodes [fiveCorePod ""]).run serve
    { loadedNodes with clock := fun _ => (900, 900) }).1

/-- What is remembered of that cycle. -/
def burstMemory : Memory :=
  ((act cooldownConfig sortedOrders .initial burstNodes burstPlan).run serve loadedNodes).1.2

/-- What a cycle on them then plans at the end of the hour. -/
def calmPlan : CyclePlan :=
  ((planCycle cooldownConfig sortedOrders burstMemory calmNodes []).run serve
    { loadedNodes with clock := fun _ => (3600, 3600) }).1

/-- The calls of that cycle. -/
def calmCalls : List (Event Op Op.Res) :=
  ((act cooldownConfig sortedOrders burstMemory calmNodes calmPlan).exchanges serve
    loadedNodes).map fun x => ⟨x.op, x.res⟩

/-- The first cycle untaints the fleet in a burst, and the second one taints one of its nodes,
after half of the cooldown. -/
theorem fleetCooldown_allOrNone_burstNodes :
    (∃ kept, ∀ order, fleetCooldown cooldownConfig calmNodes burstPlan.fleetCooldownTimes 1000
      order {"n2"} = kept) ∧
    ∃ log bursts nowFleet, Cycles cooldownConfig log burstMemory ∧
      lastBurst (log ++ bursts) "test-pool" = some 900 ∧
      Plans cooldownConfig sortedOrders burstMemory calmNodes [] bursts nowFleet calmPlan ∧
      "n2" ∈ taintedIn calmCalls ∧ (450 : ℚ) ≤ nowFleet - 900 := by
  have h := fleetCooldown_allOrNone cooldownConfig
  refine ⟨(h.1 calmNodes burstPlan.fleetCooldownTimes 1000 {"n2"}).imp fun _ h => h.1, ?_⟩
  have hstart : Cycles cooldownConfig [] .initial := .start
  obtain ⟨log, now, hburst⟩ : ∃ bursts nowFleet, Plans cooldownConfig sortedOrders .initial
      burstNodes [fiveCorePod ""] bursts nowFleet burstPlan :=
    exists_plans hstart.fleetCooldownTimes_eq (trace_exchanges _ _)
  have hcycles : Cycles cooldownConfig ([] ++ log) burstMemory :=
    hstart.cycle hburst (trace_exchanges _ _)
  obtain ⟨bursts, nowFleet, hplans⟩ : ∃ bursts nowFleet, Plans cooldownConfig sortedOrders
      burstMemory calmNodes [] bursts nowFleet calmPlan :=
    exists_plans hcycles.fleetCooldownTimes_eq (trace_exchanges _ _)
  have hlast : lastBurst ([] ++ log ++ bursts) "test-pool" = some 900 := by
    have htimes : calmPlan.fleetCooldownTimes.bind (fun times => times "test-pool") = some 900 := by
      decide +kernel
    rwa [(hplans.spec hcycles.fleetCooldownTimes_eq).1] at htimes
  have hmem : "n2" ∈ taintedIn calmCalls := by decide +kernel
  refine ⟨_, bursts, nowFleet, hcycles, hlast, hplans, hmem, ?_⟩
  exact h.2 _ _ _ _ _ _ _ _ hcycles hplans _ _ (trace_exchanges _ _)
    (makeNode "n2" 0 false []) (by simp [calmNodes]) hmem 900 hlast (Or.inr (by decide))

end CiInfra.Compactor

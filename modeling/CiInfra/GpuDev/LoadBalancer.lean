import Mathlib.Algebra.Order.Ring.Rat
import Mathlib.Data.Finset.Basic
import Mathlib.Data.Rat.Floor

/-!
# The rules of the load balancer

The pod of a reservation is reached by a listener rule and a target group, and a record names both
so that they can be deleted with the reservation. A rule needs a priority that no other rule has,
which is searched from one on that depends on the clock. The calls to AWS may fail, with or without
having been carried out. When is nothing left behind, and when is a priority found?
-/

namespace CiInfra.GpuDev.LoadBalancer

/-- How a call ends. One that raises may have been carried out. -/
inductive Answer
  | served
  | raised (carriedOut : Bool)
  deriving DecidableEq

/-- The call has its effect. -/
def Answer.takesEffect : Answer → Bool
  | .served => true
  | .raised carriedOut => carriedOut

/-! ### Deleting -/

/-- A record: what `mapping.get` gives. -/
structure Mapping where
  jupyterRuleArn : Option String
  jupyterTargetGroupArn : Option String

/-- What exists. There are records if a table is configured. -/
structure State where
  rules : Finset String
  targetGroups : Finset String
  mappings : Option (String → Option Mapping)

/-- The record of a reservation. -/
def State.mapping (s : State) (reservationId : String) : Option Mapping :=
  s.mappings.bind fun mappings => mappings reservationId

/-- A name that is not empty. -/
def named (arn : Option String) : Option String := arn.filter (· ≠ "")

/-- What a call leaves of what exists, when it is to delete what is named. An error is logged. -/
def deleteNamed (existing : Finset String) (arn : Option String) (answer : Answer) :
    Finset String :=
  match named arn with
  | some arn => if answer.takesEffect then existing.erase arn else existing
  | none => existing

/-- A call of `delete_alb_mapping`, and how the calls that it makes end. -/
structure Deletion where
  state : State
  reservationId : String
  getItem : Answer
  deleteRule : Answer
  deleteTargetGroup : Answer
  deleteItem : Answer

/-- `delete_alb_mapping`. -/
def Deletion.deleteAlbMapping (d : Deletion) : Bool × State :=
  match d.state.mappings with
  | none => (true, d.state)
  | some mappings =>
    match d.getItem with
    | .raised _ => (false, d.state)
    | .served =>
      match mappings d.reservationId with
      | none => (true, d.state)
      | some mapping =>
        let remaining := fun id => if id = d.reservationId then none else mappings id
        (d.deleteItem = .served,
          { rules := deleteNamed d.state.rules mapping.jupyterRuleArn d.deleteRule
            targetGroups := deleteNamed d.state.targetGroups mapping.jupyterTargetGroupArn
              d.deleteTargetGroup
            mappings := some (if d.deleteItem.takesEffect then remaining else mappings) })

/-- None of what a record names exists. -/
def State.Without (s : State) (mapping : Mapping) : Prop :=
  (∀ arn ∈ named mapping.jupyterRuleArn, arn ∉ s.rules) ∧
    ∀ arn ∈ named mapping.jupyterTargetGroupArn, arn ∉ s.targetGroups

/-- The record goes, and the answer is positive, only if nothing that the record names is left. -/
def Deletion.KeepsPointer (d : Deletion) : Prop :=
  ∀ mapping, d.state.mapping d.reservationId = some mapping →
    d.deleteAlbMapping.2.mapping d.reservationId = none ∨ d.deleteAlbMapping.1 = true →
    d.deleteAlbMapping.2.Without mapping

/-- If the record is read and deleted, what it names has been deleted, or had gone before. -/
def Deletion.Clears (d : Deletion) : Prop :=
  ∀ mapping, d.state.mapping d.reservationId = some mapping →
    d.getItem = .served → d.deleteItem.takesEffect = true →
    (∀ arn ∈ named mapping.jupyterRuleArn,
      arn ∈ d.state.rules → d.deleteRule.takesEffect = true) ∧
    ∀ arn ∈ named mapping.jupyterTargetGroupArn,
      arn ∈ d.state.targetGroups → d.deleteTargetGroup.takesEffect = true

theorem notMem_deleteNamed_iff {existing : Finset String} {arn : Option String} {answer : Answer} :
    (∀ a ∈ named arn, a ∉ deleteNamed existing arn answer) ↔
      ∀ a ∈ named arn, a ∈ existing → answer.takesEffect = true := by
  unfold deleteNamed
  cases named arn with
  | none => simp
  | some a =>
    cases answer.takesEffect with
    | true => simp
    | false => simp

theorem Answer.takesEffect_of_served {a : Answer} (h : a = .served) : a.takesEffect = true := by
  rw [h]
  rfl

theorem Deletion.keepsPointer_iff (d : Deletion) : d.KeepsPointer ↔ d.Clears := by
  refine forall_congr' fun mapping => forall_congr' fun hmapping => ?_
  obtain ⟨mappings, hmappings, hfound⟩ := Option.bind_eq_some_iff.mp hmapping
  unfold deleteAlbMapping
  simp only [hmappings, hfound]
  cases hget : d.getItem with
  | raised carriedOut => simp [hmapping]
  | served =>
    have hgone : State.mapping
        { rules := deleteNamed d.state.rules mapping.jupyterRuleArn d.deleteRule
          targetGroups := deleteNamed d.state.targetGroups mapping.jupyterTargetGroupArn
            d.deleteTargetGroup
          mappings := some (if d.deleteItem.takesEffect then
            fun id => if id = d.reservationId then none else mappings id else mappings) }
        d.reservationId = none ↔ d.deleteItem.takesEffect = true := by
      cases heffect : d.deleteItem.takesEffect with
      | true => simp [State.mapping]
      | false => simp [State.mapping, hfound]
    simp only [hgone, decide_eq_true_eq, State.Without, notMem_deleteNamed_iff, true_imp_iff]
    rw [or_iff_left_of_imp Answer.takesEffect_of_served]

/-! ### Creating -/

/-- The rules of the listener: their priorities and their names. -/
structure Listener where
  rules : List (ℤ × String)
  inRange : ∀ rule ∈ rules, 1 ≤ rule.1 ∧ rule.1 ≤ 50000

/-- A rule has the priority. -/
def Listener.IsUsed (l : Listener) (priority : ℤ) : Prop := priority ∈ l.rules.map Prod.fst

instance (l : Listener) : DecidablePred l.IsUsed :=
  fun _ => inferInstanceAs (Decidable (_ ∈ _))

theorem Listener.IsUsed.inRange {l : Listener} {priority : ℤ} (h : l.IsUsed priority) :
    1 ≤ priority ∧ priority ≤ 50000 := by
  obtain ⟨rule, hrule, rfl⟩ := List.mem_map.mp h
  exact l.inRange rule hrule

/-- What a search for a priority leads to: what is returned, the priorities that were asked for, and
the rules in the end. -/
structure Outcome where
  result : Option String
  asked : List ℤ
  rules : List (ℤ × String)

/-- A call of `create_alb_listener_rule`: how the requests that it makes end, one after the other,
and the name of a rule that is created. -/
structure Creation where
  listener : Listener
  answers : ℕ → Answer
  arn : String
  priority : Option ℤ
  time : ℚ

namespace Creation

variable (c : Creation)

/-- A request. A priority out of range and one that is in use are refused with errors of their own,
and with the latter the next priority is tried. -/
def tryPriority (n : ℕ) (priority : ℤ) : Outcome :=
  match c.answers n with
  | .raised carriedOut =>
    { result := none
      asked := [priority]
      rules :=
        if carriedOut ∧ 1 ≤ priority ∧ priority ≤ 50000 ∧ ¬ c.listener.IsUsed priority then
          (priority, c.arn) :: c.listener.rules
        else c.listener.rules }
  | .served =>
    if hused : c.listener.IsUsed priority then
      let retried := tryPriority (n + 1) (priority + 1)
      { retried with asked := priority :: retried.asked }
    else if 1 ≤ priority ∧ priority ≤ 50000 then
      { result := some c.arn
        asked := [priority]
        rules := (priority, c.arn) :: c.listener.rules }
    else { result := none, asked := [priority], rules := c.listener.rules }
  termination_by (50001 - priority).toNat
  decreasing_by
    have hrange := hused.inRange
    omega

/-- The priority that is asked for first. -/
def start : ℤ := c.priority.getD (⌊c.time⌋ % 50000)

/-- `create_alb_listener_rule`, where the load balancer is configured. -/
def createAlbListenerRule : Outcome := c.tryPriority 0 c.start

/-- Only priorities in range are asked for, and a rule is created if one of them is free. -/
structure FindsPriority : Prop where
  inRange : ∀ priority ∈ c.createAlbListenerRule.asked, 1 ≤ priority ∧ priority ≤ 50000
  creates : (∃ priority, 1 ≤ priority ∧ priority ≤ 50000 ∧ ¬ c.listener.IsUsed priority) →
    ∃ priority, ¬ c.listener.IsUsed priority ∧
      c.createAlbListenerRule.rules = (priority, c.arn) :: c.listener.rules ∧
      c.createAlbListenerRule.result = some c.arn

/-- A priority from the first one on is free and in range, and no request up to it fails in another
way. -/
def ReachesFree : Prop :=
  ∃ k : ℕ, c.start + k ≤ 50000 ∧ ¬ c.listener.IsUsed (c.start + k) ∧
    ∀ i ≤ k, c.answers i = .served

/-- All priorities are in use, and a request fails in another way before the range is left. -/
def StopsShort : Prop :=
  (∀ priority, 1 ≤ priority → priority ≤ 50000 → c.listener.IsUsed priority) ∧
    ∃ k : ℕ, c.start + k ≤ 50000 ∧ c.answers k ≠ .served

/-- After some requests for priorities in use, a request creates a rule, or fails. -/
theorem tryPriority_cases (n : ℕ) (priority : ℤ) : ∃ k : ℕ,
    (∀ i < k, c.listener.IsUsed (priority + i) ∧ c.answers (n + i) = .served) ∧
    (∀ p, p ∈ (c.tryPriority n priority).asked ↔ priority ≤ p ∧ p ≤ priority + k) ∧
    (c.answers (n + k) = .served ∧ ¬ c.listener.IsUsed (priority + k) ∧
        (1 ≤ priority + k ∧ priority + k ≤ 50000) ∧
        (c.tryPriority n priority).rules = (priority + k, c.arn) :: c.listener.rules ∧
        (c.tryPriority n priority).result = some c.arn ∨
      (c.tryPriority n priority).result = none ∧ (c.answers (n + k) ≠ .served ∨
        c.answers (n + k) = .served ∧ ¬ (1 ≤ priority + k ∧ priority + k ≤ 50000))) := by
  have hsingle : ∀ p q : ℤ, p ∈ [q] ↔ q ≤ p ∧ p ≤ q + (0 : ℕ) := by
    intro p q
    rw [List.mem_singleton]
    omega
  induction n, priority using tryPriority.induct c with
  | case1 n priority carriedOut hanswer =>
    refine ⟨0, by simp, fun p => ?_, Or.inr ⟨?_, Or.inl ?_⟩⟩
    · rw [tryPriority, hanswer]
      exact hsingle p priority
    · rw [tryPriority, hanswer]
    · rw [Nat.add_zero, hanswer]
      simp
  | case2 n priority hanswer hused ih =>
    obtain ⟨k, hbefore, hasked, hend⟩ := ih
    have hstep : c.tryPriority n priority =
        { c.tryPriority (n + 1) (priority + 1) with
          asked := priority :: (c.tryPriority (n + 1) (priority + 1)).asked } := by
      rw [tryPriority, hanswer]
      simp only [hused, dif_pos]
    have hshift : priority + 1 + (k : ℤ) = priority + ((k + 1 : ℕ) : ℤ) := by
      push_cast
      ring
    have hnumber : n + 1 + k = n + (k + 1) := by omega
    rw [hshift, hnumber] at hend
    refine ⟨k + 1, fun i hi => ?_, fun p => ?_, ?_⟩
    · cases i with
      | zero => simpa using ⟨hused, hanswer⟩
      | succ i =>
        have hi' := hbefore i (by omega)
        have hcast : priority + 1 + (i : ℤ) = priority + ((i + 1 : ℕ) : ℤ) := by
          push_cast
          ring
        rwa [hcast, show n + 1 + i = n + (i + 1) by omega] at hi'
    · rw [hstep]
      simp only [List.mem_cons, hasked p]
      push_cast
      omega
    · rw [hstep]
      exact hend
  | case3 n priority hanswer hused hrange =>
    have hstep : c.tryPriority n priority =
        { result := some c.arn
          asked := [priority]
          rules := (priority, c.arn) :: c.listener.rules } := by
      rw [tryPriority, hanswer]
      simp only [hused, dif_neg, not_false_eq_true, hrange, and_self, if_true]
    refine ⟨0, by simp, fun p => ?_, Or.inl ?_⟩
    · rw [hstep]
      exact hsingle p priority
    · rw [hstep]
      simpa using ⟨hanswer, hused, hrange⟩
  | case4 n priority hanswer hused hrange =>
    have hstep : c.tryPriority n priority =
        { result := none, asked := [priority], rules := c.listener.rules } := by
      rw [tryPriority, hanswer]
      simp only [hused, dif_neg, not_false_eq_true, hrange, if_false]
    refine ⟨0, by simp, fun p => ?_, Or.inr ⟨?_, Or.inr ?_⟩⟩
    · rw [hstep]
      exact hsingle p priority
    · rw [hstep]
    · exact ⟨by simpa using hanswer, by simpa using hrange⟩

theorem findsPriority_iff : c.FindsPriority ↔
    1 ≤ c.start ∧ c.start ≤ 50000 ∧ (c.ReachesFree ∨ c.StopsShort) := by
  obtain ⟨k, hbefore, hasked, hend⟩ := c.tryPriority_cases 0 c.start
  simp only [Nat.zero_add] at hbefore hend
  constructor
  · rintro ⟨hrange, hcreates⟩
    have hfirst := hrange c.start ((hasked c.start).mpr (by omega))
    have hlast := hrange (c.start + k) ((hasked (c.start + k)).mpr (by omega))
    refine ⟨hfirst.1, hfirst.2, ?_⟩
    rcases hend with ⟨hserved, hfree, -⟩ | ⟨hnone, hfailed | ⟨-, hout⟩⟩
    · refine Or.inl ⟨k, hlast.2, hfree, fun i hi => ?_⟩
      rcases Nat.lt_or_eq_of_le hi with hlt | rfl
      · exact (hbefore i hlt).2
      · exact hserved
    · refine Or.inr ⟨fun p hp hp' => ?_, k, hlast.2, hfailed⟩
      by_contra hfree
      obtain ⟨q, -, -, hresult⟩ := hcreates ⟨p, hp, hp', hfree⟩
      exact absurd (hnone.symm.trans hresult) (by simp)
    · exact absurd hlast hout
  · rintro ⟨hpos, hle, hreach⟩
    -- No request before the last one leaves the range, and none is left out.
    have hlast : c.start + k ≤ 50000 := by
      by_contra hout
      rcases hreach with ⟨j, hj, hfree, -⟩ | ⟨-, j, hj, hfailed⟩
      · exact hfree (hbefore j (by omega)).1
      · exact hfailed (hbefore j (by omega)).2
    refine ⟨fun p hp => ?_, fun hsome => ?_⟩
    · have hbounds := (hasked p).mp hp
      omega
    · rcases hend with ⟨-, hfree, -, hrules, hresult⟩ | ⟨-, hfailed | ⟨-, hout⟩⟩
      · exact ⟨_, hfree, hrules, hresult⟩
      · rcases hreach with ⟨j, -, hfree, hserved⟩ | ⟨hall, -⟩
        · rcases Nat.lt_or_ge j k with hlt | hge
          · exact absurd (hbefore j hlt).1 hfree
          · exact absurd (hserved k hge) hfailed
        · obtain ⟨p, hp, hp', hfree⟩ := hsome
          exact absurd (hall p hp hp') hfree
      · exact absurd ⟨by omega, hlast⟩ hout

end Creation

/-- Nothing is left behind without its record exactly if what the record names goes before it, and a
priority is found exactly if one is free from the first on. -/
theorem neverOrphaned_iff (d : Deletion) (c : Creation) :
    (d.KeepsPointer ↔ d.Clears) ∧
      (c.FindsPriority ↔ 1 ≤ c.start ∧ c.start ≤ 50000 ∧ (c.ReachesFree ∨ c.StopsShort)) :=
  ⟨d.keepsPointer_iff, c.findsPriority_iff⟩

/-- The rule cannot be deleted, and the record goes. -/
def throttled : Deletion where
  state := {
    rules := {"rule"}
    targetGroups := ∅
    mappings := some fun id =>
      if id = "reservation" then some ⟨some "rule", some "target-group"⟩ else none }
  reservationId := "reservation"
  getItem := .served
  deleteRule := .raised false
  deleteTargetGroup := .served
  deleteItem := .served

/-- The last priority is asked for first, and is in use. -/
def lastInUse : Creation where
  listener := ⟨[(50000, "rule")], by decide⟩
  answers _ := .served
  arn := "new-rule"
  priority := some 50000
  time := 0

theorem not_neverOrphaned :
    (¬ ∀ d : Deletion, d.KeepsPointer) ∧ ¬ ∀ c : Creation, c.FindsPriority := by
  constructor
  · intro hall
    have h := hall throttled ⟨some "rule", some "target-group"⟩ rfl (Or.inr rfl)
    exact absurd (h.1 "rule" rfl) (by decide)
  · intro hall
    obtain ⟨-, -, h⟩ := lastInUse.findsPriority_iff.mp (hall lastInUse)
    have hstart : lastInUse.start = 50000 := rfl
    rcases h with ⟨k, hk, hfree, -⟩ | ⟨-, k, -, hfailed⟩
    · rw [hstart] at hk hfree
      obtain rfl : k = 0 := by omega
      exact hfree (by decide)
    · exact hfailed rfl

end CiInfra.GpuDev.LoadBalancer

import CiInfra.Lib.Ranks
import CiInfra.SshProxy.DomainMappings
import Mathlib.Algebra.BigOperators.Ring.Finset
import Mathlib.Algebra.Order.BigOperators.Group.List

/-!
# The estimated wait of a queued reservation

The estimate looks for the minute in which so many GPUs have been freed that the request fits: each
active reservation frees its GPUs at its expiry. It knows nothing of GPU types, and answers zero if
the GPUs that are freed never suffice.
-/

namespace CiInfra.GpuDev.WaitEstimates

open SshProxy (Expiry)

/-! ### The capacity -/

/-- A pod on a node: its phase, and the GPUs that its containers request. -/
structure Pod where
  phase : String
  requests : List (Option ℕ)
  deriving DecidableEq

/-- A node, with the GPUs that it has and that can be allocated, and its pods. -/
structure Node where
  capacity : Option ℕ
  allocatable : Option ℕ
  pods : List Pod
  deriving DecidableEq

/-- `_get_gpus_used_on_node`. -/
def Node.gpusUsed (node : Node) : ℕ :=
  ((node.pods.filter fun pod => pod.phase = "Running" || pod.phase = "Pending").map fun pod =>
    (pod.requests.map fun request => request.getD 0).sum).sum

def Node.gpuAvailable (node : Node) : ℕ :=
  node.allocatable.getD 0 - node.gpusUsed

/-- `available_gpus` of `get_gpu_capacity_info`. -/
def availableGpus (nodes : List Node) : ℕ :=
  (nodes.map Node.gpuAvailable).sum

/-- `total_gpus` of `get_gpu_capacity_info`. -/
def totalGpus (nodes : List Node) : ℕ :=
  (nodes.map fun node => node.capacity.getD 0).sum

/-! ### The estimate -/

/-- An active reservation. -/
structure Active where
  gpuType : String
  gpuCount : Option ℕ
  expiresAt : Option Expiry
  deriving DecidableEq

/-- `int(reservation.get("gpu_count", 1))`. -/
def Active.gpus (r : Active) : ℕ :=
  r.gpuCount.getD 1

/-- `expires_at` in whole seconds. -/
def Active.expirySeconds (r : Active) : ℤ :=
  match r.expiresAt with
  | none => 0
  | some (.unix t) => t
  | some (.iso t) => PythonNumber.truncate t

/-- The minutes after which a reservation frees its GPUs, for each of these; none if it has expired
already. -/
def Active.expiryTimes (currentTime : ℤ) (r : Active) : List ℤ :=
  if currentTime < r.expirySeconds then
    List.replicate r.gpus ((r.expirySeconds - currentTime) / 60)
  else []

def expiryTimes (currentTime : ℤ) (active : List Active) : List ℤ :=
  active.flatMap (Active.expiryTimes currentTime)

/-- The search for the minute in which there are enough GPUs. -/
def findWait (requestedGpus gpusAvailable : ℕ) : List ℤ → ℤ
  | [] => 0
  | expiryTime :: rest =>
    if requestedGpus ≤ gpusAvailable + 1 then expiryTime
    else findWait requestedGpus (gpusAvailable + 1) rest

/-- What `estimate_wait_time` answers, without its message. -/
structure WaitEstimate where
  canScheduleNow : Bool
  estimatedWaitMinutes : ℤ
  queuePosition : Option ℕ
  deriving DecidableEq

/-- `estimate_wait_time`; `pendingPods` are the GPUs that each pending pod requests. -/
def estimateWaitTime (nodes : List Node) (currentTime : ℤ) (active : List Active)
    (pendingPods : List ℕ) (requestedGpus : ℕ) : WaitEstimate :=
  if requestedGpus ≤ availableGpus nodes then ⟨true, 0, none⟩
  else
    ⟨false,
      findWait requestedGpus (availableGpus nodes)
        (Ranks.sortBy id (expiryTimes currentTime active)),
      some ((pendingPods.filter fun gpus => gpus ≤ requestedGpus).length + 1)⟩

/-! ### What an estimate should be -/

/-- What an estimate is made from. -/
structure Situation where
  nodes : List Node
  currentTime : ℤ
  active : List Active
  pendingPods : List ℕ

namespace Situation

variable (s : Situation)

def estimate (requestedGpus : ℕ) : ℤ :=
  (estimateWaitTime s.nodes s.currentTime s.active s.pendingPods requestedGpus).estimatedWaitMinutes

/-- The situation with other active reservations. -/
def withActive (active : List Active) : Situation :=
  { s with active := active }

/-- The GPUs of the reservations that are still to expire, and do so within so many seconds. -/
def freedWithin (seconds : ℤ) : ℕ :=
  ((s.active.filter fun r => s.currentTime < r.expirySeconds &&
    r.expirySeconds < s.currentTime + seconds).map Active.gpus).sum

/-- The GPUs of all active reservations that are still to expire. -/
def freedInAll : ℕ :=
  ((s.active.filter fun r => s.currentTime < r.expirySeconds).map Active.gpus).sum

/-- The estimate for a queued request of a type is honest. -/
structure IsHonest (gpuType : String) (requestedGpus : ℕ) : Prop where
  monotone : ∀ fewer ≤ requestedGpus, s.estimate fewer ≤ s.estimate requestedGpus
  zero : s.estimate requestedGpus = 0 →
    requestedGpus ≤ availableGpus s.nodes ∨
      requestedGpus ≤ availableGpus s.nodes + s.freedWithin 60
  never : availableGpus s.nodes + (s.active.map Active.gpus).sum < requestedGpus →
    s.estimate requestedGpus ≠ 0
  otherTypes : ∀ before r after, s.active = before ++ r :: after → r.gpuType ≠ gpuType →
    (s.withActive (before ++ after)).estimate requestedGpus ≤ s.estimate requestedGpus

/-- The GPUs that are freed suffice; and if they suffice without a reservation of another type, they
do so as early as with it. -/
structure IsServed (gpuType : String) (requestedGpus : ℕ) : Prop where
  enough : requestedGpus ≤ availableGpus s.nodes + s.freedInAll
  inTime : ∀ before r after, s.active = before ++ r :: after → r.gpuType ≠ gpuType →
    requestedGpus ≤ availableGpus s.nodes + (s.withActive (before ++ after)).freedInAll →
    ∀ minutes : ℕ, requestedGpus ≤ availableGpus s.nodes + s.freedWithin (60 * (minutes + 1)) →
      requestedGpus ≤
        availableGpus s.nodes + (s.withActive (before ++ after)).freedWithin (60 * (minutes + 1))

end Situation

/-! ### The estimate as an order statistic -/

variable {currentTime : ℤ} {active : List Active} {r : Active} {minutes : ℤ} {s : Situation}
  {requestedGpus : ℕ}

theorem findWait_eq (gpusAvailable : ℕ) (times : List ℤ) (h : gpusAvailable < requestedGpus) :
    findWait requestedGpus gpusAvailable times =
      (times[requestedGpus - gpusAvailable - 1]?).getD 0 := by
  induction times generalizing gpusAvailable with
  | nil => rfl
  | cons t times ih =>
    rw [findWait]
    split_ifs with hle
    · have hzero : requestedGpus - gpusAvailable - 1 = 0 := by omega
      rw [hzero]
      rfl
    · have hsucc : requestedGpus - gpusAvailable - 1 =
          requestedGpus - (gpusAvailable + 1) - 1 + 1 := by omega
      rw [ih (gpusAvailable + 1) (by omega), hsucc, List.getElem?_cons_succ]

/-- A reservation frees its GPUs by the end of a minute if it expires within the minutes up to
it. -/
theorem length_filter_expiryTimes (r : Active) (minutes : ℤ) :
    ((r.expiryTimes currentTime).filter fun t => t ≤ minutes).length =
      if currentTime < r.expirySeconds ∧
        r.expirySeconds < currentTime + 60 * (minutes + 1) then r.gpus else 0 := by
  rw [Active.expiryTimes]
  split_ifs with hexpires hwithin hwithin
  · rw [List.filter_replicate_of_pos (by simp; omega), List.length_replicate]
  · rw [List.filter_replicate_of_neg (by simp; omega), List.length_nil]
  · exact absurd hwithin.1 hexpires
  · rfl

theorem length_filter_allExpiryTimes (s : Situation) (minutes : ℤ) :
    ((expiryTimes s.currentTime s.active).filter fun t => t ≤ minutes).length =
      s.freedWithin (60 * (minutes + 1)) := by
  obtain ⟨nodes, currentTime, active, pendingPods⟩ := s
  simp only [Situation.freedWithin, expiryTimes]
  induction active with
  | nil => rfl
  | cons r active ih =>
    rw [List.flatMap_cons, List.filter_append, List.length_append, ih, length_filter_expiryTimes]
    by_cases h : currentTime < r.expirySeconds ∧
      r.expirySeconds < currentTime + 60 * (minutes + 1)
    · rw [if_pos h, List.filter_cons_of_pos (by simpa using h), List.map_cons, List.sum_cons]
    · rw [if_neg h, List.filter_cons_of_neg (by simpa using h), Nat.zero_add]

theorem length_expiryTimes (s : Situation) :
    (expiryTimes s.currentTime s.active).length = s.freedInAll := by
  obtain ⟨nodes, currentTime, active, pendingPods⟩ := s
  simp only [Situation.freedInAll, expiryTimes]
  induction active with
  | nil => rfl
  | cons r active ih =>
    rw [List.flatMap_cons, List.length_append, ih, Active.expiryTimes]
    by_cases h : currentTime < r.expirySeconds
    · rw [if_pos h, List.length_replicate, List.filter_cons_of_pos (by simpa using h),
        List.map_cons, List.sum_cons]
    · rw [if_neg h, List.filter_cons_of_neg (by simpa using h), List.length_nil, Nat.zero_add]

/-- A reservation that frees GPUs does so at some time from now on. -/
theorem expiryTimes_nonneg {t : ℤ} (h : t ∈ expiryTimes currentTime active) : 0 ≤ t := by
  obtain ⟨r, -, hr⟩ := List.mem_flatMap.mp h
  rw [Active.expiryTimes] at hr
  split_ifs at hr with hexpires
  · rw [List.eq_of_mem_replicate hr]
    omega
  · cases hr

namespace Situation

/-- The expiry times in order. -/
def sortedTimes (s : Situation) : List ℤ :=
  Ranks.sortBy id (expiryTimes s.currentTime s.active)

theorem length_sortedTimes (s : Situation) : s.sortedTimes.length = s.freedInAll := by
  rw [sortedTimes, (Ranks.sortBy_perm id _).length_eq, length_expiryTimes]

/-- The time of an index has come when more GPUs have been freed. -/
theorem getElem_sortedTimes_le_iff {j : ℕ} (hj : j < s.sortedTimes.length) (minutes : ℤ) :
    s.sortedTimes[j] ≤ minutes ↔ j < s.freedWithin (60 * (minutes + 1)) := by
  have hsorted : s.sortedTimes.Pairwise (· ≤ ·) := Ranks.sortBy_pairwise id _
  rw [Ranks.getElem_le_iff hsorted hj, ← length_filter_allExpiryTimes, sortedTimes,
    ((Ranks.sortBy_perm id _).filter _).length_eq]

theorem estimate_of_le (h : requestedGpus ≤ availableGpus s.nodes) :
    s.estimate requestedGpus = 0 := by
  rw [estimate, estimateWaitTime, if_pos h]

theorem estimate_of_lt (h : availableGpus s.nodes < requestedGpus) :
    s.estimate requestedGpus =
      (s.sortedTimes[requestedGpus - availableGpus s.nodes - 1]?).getD 0 := by
  rw [estimate, estimateWaitTime, if_neg (Nat.not_le.mpr h)]
  exact findWait_eq _ _ h

theorem estimate_nonneg (s : Situation) (requestedGpus : ℕ) : 0 ≤ s.estimate requestedGpus := by
  rcases Nat.lt_or_ge (availableGpus s.nodes) requestedGpus with h | h
  · rw [estimate_of_lt h]
    cases htime : s.sortedTimes[requestedGpus - availableGpus s.nodes - 1]? with
    | none => exact le_rfl
    | some t =>
      exact expiryTimes_nonneg
        ((Ranks.sortBy_perm id _).mem_iff.mp (List.mem_of_getElem? htime))
  · rw [estimate_of_le h]

/-- If the GPUs suffice that are freed, the estimate is the time of the last one that is needed. -/
theorem estimate_eq_getElem (h : availableGpus s.nodes < requestedGpus)
    (henough : requestedGpus ≤ availableGpus s.nodes + s.freedInAll) :
    ∃ hj : requestedGpus - availableGpus s.nodes - 1 < s.sortedTimes.length,
      s.estimate requestedGpus = s.sortedTimes[requestedGpus - availableGpus s.nodes - 1] := by
  have hj : requestedGpus - availableGpus s.nodes - 1 < s.sortedTimes.length := by
    rw [length_sortedTimes]
    omega
  exact ⟨hj, by rw [estimate_of_lt h, List.getElem?_eq_getElem hj, Option.getD_some]⟩

/-- If they do not, the estimate is zero. -/
theorem estimate_eq_zero (h : availableGpus s.nodes + s.freedInAll < requestedGpus) :
    s.estimate requestedGpus = 0 := by
  rw [estimate_of_lt (by omega), List.getElem?_eq_none (by rw [length_sortedTimes]; omega),
    Option.getD_none]

/-- The estimate is at most so many minutes exactly if enough GPUs are freed by then. -/
theorem estimate_le_iff (h : availableGpus s.nodes < requestedGpus)
    (henough : requestedGpus ≤ availableGpus s.nodes + s.freedInAll) (minutes : ℤ) :
    s.estimate requestedGpus ≤ minutes ↔
      requestedGpus ≤ availableGpus s.nodes + s.freedWithin (60 * (minutes + 1)) := by
  obtain ⟨hj, heq⟩ := estimate_eq_getElem h henough
  rw [heq, getElem_sortedTimes_le_iff hj]
  omega

theorem freedWithin_le (s : Situation) (seconds : ℤ) : s.freedWithin seconds ≤ s.freedInAll := by
  refine ((List.monotone_filter_right _ fun r hr => ?_).map _).sum_le_sum fun _ _ => Nat.zero_le _
  simp only [Bool.and_eq_true] at hr
  exact hr.1

theorem freedInAll_le (s : Situation) : s.freedInAll ≤ (s.active.map Active.gpus).sum :=
  (List.filter_sublist.map _).sum_le_sum fun _ _ => Nat.zero_le _

theorem IsHonest.isServed {gpuType : String} (h : s.IsHonest gpuType requestedGpus) :
    s.IsServed gpuType requestedGpus := by
  have henough : requestedGpus ≤ availableGpus s.nodes + s.freedInAll := by
    by_contra hlt
    have hle := s.freedWithin_le 60
    rcases h.zero (estimate_eq_zero (by omega)) with hnow | hsoon <;> omega
  refine ⟨henough, fun before r after hsplit hne henough' minutes hwithin => ?_⟩
  rcases Nat.lt_or_ge (availableGpus s.nodes) requestedGpus with hlt | hge
  · have hearly : s.estimate requestedGpus ≤ minutes := (estimate_le_iff hlt henough _).mpr hwithin
    have hother := h.otherTypes before r after hsplit hne
    exact (estimate_le_iff (s := s.withActive (before ++ after)) hlt henough' _).mp
      (hother.trans hearly)
  · omega

theorem IsServed.isHonest {gpuType : String} (h : s.IsServed gpuType requestedGpus) :
    s.IsHonest gpuType requestedGpus := by
  have hnonneg := s.estimate_nonneg requestedGpus
  refine ⟨fun fewer hfewer => ?_, fun hzero => ?_, fun hlt => ?_, ?_⟩
  · rcases Nat.lt_or_ge (availableGpus s.nodes) fewer with hlt | hge
    · have hfreed := (estimate_le_iff (hlt.trans_le hfewer) h.enough _).mp le_rfl
      exact (estimate_le_iff hlt (hfewer.trans h.enough) _).mpr (hfewer.trans hfreed)
    · rwa [estimate_of_le hge]
  · rcases Nat.lt_or_ge (availableGpus s.nodes) requestedGpus with hlt | hge
    · exact Or.inr ((estimate_le_iff hlt h.enough 0).mp hzero.le)
    · exact Or.inl hge
  · have henough := h.enough
    have hle := s.freedInAll_le
    omega
  · intro before r after hsplit hne
    rcases Nat.lt_or_ge (availableGpus s.nodes) requestedGpus with hlt | hge
    · rcases Nat.lt_or_ge (availableGpus s.nodes + (s.withActive (before ++ after)).freedInAll)
        requestedGpus with hnever | henough
      · rwa [estimate_eq_zero (s := s.withActive (before ++ after)) hnever]
      · -- What suffices with the reservation suffices without it, at the estimated minute.
        refine (estimate_le_iff (s := s.withActive (before ++ after)) hlt henough _).mpr ?_
        have hfreed := (estimate_le_iff hlt h.enough _).mp le_rfl
        have htime := h.inTime before r after hsplit hne henough (s.estimate requestedGpus).toNat
        rw [Int.toNat_of_nonneg hnonneg] at htime
        exact htime hfreed
    · rw [estimate_of_le (s := s.withActive (before ++ after)) hge, estimate_of_le hge]

end Situation

/-- The estimate is honest exactly if the request is served. -/
theorem isHonest_iff (s : Situation) (gpuType : String) (requestedGpus : ℕ) :
    s.IsHonest gpuType requestedGpus ↔ s.IsServed gpuType requestedGpus :=
  ⟨Situation.IsHonest.isServed, Situation.IsServed.isHonest⟩

/-- Nine GPUs are asked for where eight will ever be free. -/
theorem not_isHonest : ¬ ∀ (s : Situation) (gpuType : String) (requestedGpus : ℕ),
    s.IsHonest gpuType requestedGpus := by
  intro h
  have hnever := (h ⟨[], 0, [⟨"h100", some 8, some (.unix 7200)⟩], []⟩ "h100" 9).never (by decide)
  exact hnever (by decide)

end CiInfra.GpuDev.WaitEstimates

import Mathlib.Data.List.Basic
import Mathlib.Data.Rat.Defs

/-!
# Waiting for a pod

The allocation of a reservation waits until its pod is ready. Errors of the reads are passed over,
and so is the error that the wait itself raises for a pod that has failed: such a pod is waited for
until the time is up.
-/

namespace CiInfra.GpuDev.PodReadiness

/-- A condition in the status of a pod. -/
structure Condition where
  type : String
  status : String
  deriving DecidableEq

/-- What a read of the pod comes to. -/
inductive Reading
  | shown (phase : Option String) (conditions : List Condition)
  | apiError (message : String)
  deriving DecidableEq

/-- A condition `Ready` is `True`. -/
def Reading.showsReady : Reading → Bool
  | shown _ conditions => conditions.any fun c => c.type = "Ready" && c.status = "True"
  | apiError _ => false

def Reading.showsFailed : Reading → Bool
  | shown phase _ => phase = some "Failed"
  | apiError _ => false

/-- What is raised. -/
inductive Failure
  | apiException (message : String)
  | runtimeError (message : String)
  | timeoutError (message : String)
  deriving DecidableEq

/-- One look at the pod: whether it is ready. -/
def checkPod (podName : String) (reading : Reading) : Except Failure Bool :=
  match reading with
  | .apiError message => .error (.apiException message)
  | .shown phase _ =>
    if reading.showsReady then .ok true
    else if phase = some "Failed" then .error (.runtimeError ("Pod " ++ podName ++ " failed"))
    else .ok false

/-- One round of the loop: the time at which it is entered, and what the read comes to. -/
structure Round where
  clock : ℚ
  reading : Reading
  deriving DecidableEq

def Round.isInTime (start : ℚ) (timeoutSeconds : ℤ) (r : Round) : Bool :=
  r.clock - start < timeoutSeconds

def timeoutMessage (podName : String) (timeoutSeconds : ℤ) : String :=
  "Pod " ++ podName ++ " did not become ready within " ++ toString timeoutSeconds ++ " seconds"

/-- The default of `timeout_seconds`. -/
def defaultTimeout : ℤ := 1800

/-- `wait_for_pod_ready`, after so many rounds; `none` as long as it waits. -/
def waitForPodReady (podName : String) (timeoutSeconds : ℤ) (start : ℚ) :
    List Round → Option (Except Failure Unit)
  | [] => none
  | r :: rest =>
    if r.isInTime start timeoutSeconds then
      match checkPod podName r.reading with
      | .ok true => some (.ok ())
      -- An error is logged, the one that was raised for a failed pod as well.
      | .ok false | .error _ => waitForPodReady podName timeoutSeconds start rest
    else some (.error (.timeoutError (timeoutMessage podName timeoutSeconds)))

/-- How `create_kubernetes_resources` ends. -/
inductive Ending
  | returned (nodePort jupyterPort : ℕ)
  /-- The error path: the monitoring is stopped, if this call has started it. -/
  | raised (failure : Failure) (stopsMonitoring : Bool)
  deriving DecidableEq

/-- `create_kubernetes_resources`, from the wait on; it waits for the default time. -/
def finishResources (podName : String) (start : ℚ) (ports : ℕ × ℕ) (hasStartedMonitoring : Bool)
    (rounds : List Round) (timeoutSeconds : ℤ) : Option Ending :=
  (waitForPodReady podName timeoutSeconds start rounds).map fun
    | .ok () => .returned ports.1 ports.2
    | .error e => .raised e hasStartedMonitoring

/-! ### What the wait promises -/

section

variable {podName : String} {start : ℚ} {timeoutSeconds : ℤ} {rounds before after : List Round}
  {r : Round}

/-- The round is reached: those before it, and it, are in time, and none before it was ready. -/
structure IsReached (start : ℚ) (timeoutSeconds : ℤ) (before : List Round) (r : Round) : Prop where
  inTime : ∀ x ∈ before ++ [r], x.isInTime start timeoutSeconds = true
  notReady : ∀ x ∈ before, x.reading.showsReady = false

/-- The wait returns for a pod that is ready before it has failed, and raises as soon as the pod
has failed, so that the resources are given up. -/
structure ReportsAtOnce (podName : String) (timeoutSeconds : ℤ) (start : ℚ)
    (rounds : List Round) : Prop where
  returns : waitForPodReady podName timeoutSeconds start rounds = some (.ok ()) ↔
    ∃ before r after, rounds = before ++ r :: after ∧
      (∀ x ∈ before ++ [r], x.isInTime start timeoutSeconds = true) ∧
      r.reading.showsReady = true ∧ ∀ x ∈ before, x.reading.showsFailed = false
  raises : ∀ before r after, rounds = before ++ r :: after →
    IsReached start timeoutSeconds before r → r.reading.showsFailed = true →
    r.reading.showsReady = false → (∀ x ∈ before, x.reading.showsFailed = false) →
    ∀ ports hasStartedMonitoring, ∃ e, finishResources podName start ports hasStartedMonitoring
      (before ++ [r]) timeoutSeconds = some (.raised e hasStartedMonitoring)

/-- No failed pod is seen: a read that is reached shows no failed pod, unless a ready one. -/
def SeesNoFailure (timeoutSeconds : ℤ) (start : ℚ) (rounds : List Round) : Prop :=
  ∀ before r after, rounds = before ++ r :: after → IsReached start timeoutSeconds before r →
    r.reading.showsFailed = true → r.reading.showsReady = true

theorem checkPod_eq_ok_true {reading : Reading} :
    checkPod podName reading = .ok true ↔ reading.showsReady = true := by
  cases reading with
  | apiError message => simp [checkPod, Reading.showsReady]
  | shown phase conditions =>
    simp only [checkPod]
    split_ifs with hready hphase <;> simp [hready]

theorem waitForPodReady_cons (r : Round) (rest : List Round) :
    waitForPodReady podName timeoutSeconds start (r :: rest) =
      if r.isInTime start timeoutSeconds then
        if r.reading.showsReady then some (.ok ())
        else waitForPodReady podName timeoutSeconds start rest
      else some (.error (.timeoutError (timeoutMessage podName timeoutSeconds))) := by
  rw [waitForPodReady]
  refine if_congr Iff.rfl ?_ rfl
  by_cases hready : r.reading.showsReady = true
  · rw [checkPod_eq_ok_true.mpr hready, if_pos hready]
  · rw [if_neg hready]
    have hne : checkPod podName r.reading ≠ .ok true := fun h =>
      hready (checkPod_eq_ok_true.mp h)
    rcases hcheck : checkPod podName r.reading with e | ready
    · rfl
    · cases ready with
      | true => exact absurd hcheck hne
      | false => rfl

/-- As long as the rounds are in time and show no ready pod, the wait goes on. -/
theorem waitForPodReady_append (hin : ∀ x ∈ before, x.isInTime start timeoutSeconds = true)
    (hnot : ∀ x ∈ before, x.reading.showsReady = false) (rounds : List Round) :
    waitForPodReady podName timeoutSeconds start (before ++ rounds) =
      waitForPodReady podName timeoutSeconds start rounds := by
  induction before with
  | nil => rfl
  | cons x before ih =>
    rw [List.forall_mem_cons] at hin hnot
    rw [List.cons_append, waitForPodReady_cons, if_pos hin.1, hnot.1,
      if_neg Bool.false_ne_true, ih hin.2 hnot.2]

/-- The wait returns exactly at the first round that is ready. -/
theorem waitForPodReady_eq_ok_iff :
    waitForPodReady podName timeoutSeconds start rounds = some (.ok ()) ↔
      ∃ before r after, rounds = before ++ r :: after ∧
        IsReached start timeoutSeconds before r ∧ r.reading.showsReady = true := by
  constructor
  · intro h
    induction rounds with
    | nil => cases h
    | cons x rounds ih =>
      rw [waitForPodReady_cons] at h
      split_ifs at h with hin hready
      · exact ⟨[], x, rounds, rfl, ⟨by simpa using hin, by simp⟩, hready⟩
      · obtain ⟨before, r, after, rfl, hreached, hr⟩ := ih h
        refine ⟨x :: before, r, after, rfl, ⟨?_, ?_⟩, hr⟩
        · exact List.forall_mem_cons.mpr ⟨hin, hreached.inTime⟩
        · exact List.forall_mem_cons.mpr ⟨by simpa using hready, hreached.notReady⟩
      · cases h
  · rintro ⟨before, r, after, rfl, hreached, hr⟩
    have hin := List.forall_mem_append.mp hreached.inTime
    rw [waitForPodReady_append hin.1 hreached.notReady, waitForPodReady_cons,
      if_pos (hin.2 r List.mem_cons_self), if_pos hr]

/-- After a round that is not ready the wait goes on, whatever the round shows. -/
theorem waitForPodReady_of_isReached (h : IsReached start timeoutSeconds before r)
    (hr : r.reading.showsReady = false) :
    waitForPodReady podName timeoutSeconds start (before ++ [r]) = none := by
  have hnot : ∀ x ∈ before ++ [r], x.reading.showsReady = false :=
    List.forall_mem_append.mpr ⟨h.notReady, by simpa using hr⟩
  have happend : waitForPodReady podName timeoutSeconds start (before ++ [r] ++ []) = none :=
    waitForPodReady_append h.inTime hnot []
  rwa [List.append_nil] at happend

/-- The first round with a property. -/
theorem exists_first (p : Round → Bool) (rounds : List Round) (hmem : ∃ x ∈ rounds, p x = true) :
    ∃ before r after, rounds = before ++ r :: after ∧ p r = true ∧ ∀ x ∈ before, p x = false := by
  obtain ⟨r, hr⟩ := Option.isSome_iff_exists.mp (List.find?_isSome.mpr hmem)
  obtain ⟨hp, before, after, rfl, hbefore⟩ := List.find?_eq_some_iff_append.mp hr
  exact ⟨before, r, after, rfl, hp, fun x hx => by simpa using hbefore x hx⟩

/-- The wait reports at once exactly if it sees no failed pod. -/
theorem reportsAtOnce_iff (podName : String) (timeoutSeconds : ℤ) (start : ℚ)
    (rounds : List Round) :
    ReportsAtOnce podName timeoutSeconds start rounds ↔
      SeesNoFailure timeoutSeconds start rounds := by
  constructor
  · intro h before r after hrounds hreached hfailed
    by_contra hready
    -- The first failed pod that is seen is to be reported, and is not.
    obtain ⟨pre, f, post, hsplit, hf, hpre⟩ := exists_first
      (fun x => x.reading.showsFailed) (before ++ [r]) ⟨r, by simp, hfailed⟩
    have hnot : ∀ x ∈ before ++ [r], x.reading.showsReady = false :=
      List.forall_mem_append.mpr ⟨hreached.notReady, by simpa using hready⟩
    have hpost : rounds = pre ++ f :: (post ++ after) := by
      rw [hrounds, ← List.singleton_append, ← List.append_assoc, hsplit]
      simp
    rw [hsplit] at hnot
    have hin := hreached.inTime
    rw [hsplit] at hin
    have hreached' : IsReached start timeoutSeconds pre f :=
      ⟨fun x hx => hin x (by simp at hx ⊢; tauto), fun x hx => hnot x (by simp [hx])⟩
    have hf' : f.reading.showsReady = false := hnot f (by simp)
    obtain ⟨e, he⟩ := h.raises pre f _ hpost hreached' hf hf' hpre (0, 0) false
    rw [finishResources, waitForPodReady_of_isReached hreached' hf'] at he
    cases he
  · intro h
    refine ⟨?_, fun before r after hrounds hreached hfailed hready => ?_⟩
    · rw [waitForPodReady_eq_ok_iff]
      constructor
      · rintro ⟨before, r, after, hrounds, hreached, hr⟩
        refine ⟨before, r, after, hrounds, hreached.inTime, hr, fun x hx => ?_⟩
        obtain ⟨pre, post, rfl⟩ := List.append_of_mem hx
        by_contra hfailed
        have hin := hreached.inTime
        have hreached' : IsReached start timeoutSeconds pre x :=
          ⟨fun y hy => hin y (by simp at hy ⊢; tauto),
            fun y hy => hreached.notReady y (by simp [hy])⟩
        have hready := h pre x (post ++ r :: after) (by simpa using hrounds) hreached'
          (by simpa using hfailed)
        rw [hreached.notReady x hx] at hready
        cases hready
      · rintro ⟨before, r, after, hrounds, hin, hr, -⟩
        obtain ⟨pre, f, post, hsplit, hf, hpre⟩ := exists_first
          (fun x => x.reading.showsReady) (before ++ [r]) ⟨r, by simp, hr⟩
        refine ⟨pre, f, post ++ after, ?_, ⟨fun x hx => ?_, hpre⟩, hf⟩
        · rw [hrounds, ← List.singleton_append, ← List.append_assoc, hsplit]
          simp
        · rw [hsplit] at hin
          exact hin x (by simp at hx ⊢; tauto)
    · rw [h before r after hrounds hreached hfailed] at hready
      cases hready

end

/-- A pod that has failed is waited for. -/
theorem not_reportsAtOnce : ¬ ∀ (podName : String) (timeoutSeconds : ℤ) (start : ℚ)
    (rounds : List Round), ReportsAtOnce podName timeoutSeconds start rounds := by
  intro h
  have hreached : IsReached 0 defaultTimeout [] ⟨0, .shown (some "Failed") []⟩ :=
    ⟨by decide +kernel, by simp⟩
  obtain ⟨e, he⟩ := (h "gpu-dev-0123abcd" defaultTimeout 0 [⟨0, .shown (some "Failed") []⟩]).raises
    [] _ [] rfl hreached rfl rfl (by simp) (30000, 30001) true
  rw [finishResources, waitForPodReady_of_isReached hreached rfl] at he
  cases he

end CiInfra.GpuDev.PodReadiness

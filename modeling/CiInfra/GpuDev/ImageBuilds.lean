import CiInfra.Lib.Runs
import Mathlib.Algebra.Order.Ring.Rat

/-!
# Image builds

Reservations with the same build context share a job that builds their image, by its name, and the
image itself. The job starts a pod, and another one after a pod that fails, up to `backoffLimit`
times. Each reservation looks for the image and the job, deletes a job that it takes for failed,
creates one, and waits for it. When is what it reports true?
-/

namespace CiInfra.GpuDev.ImageBuilds

/-! ### The job -/

/-- `backoff_limit`. -/
def backoffLimit : ℕ := 2

/-- The counters of a job, and whether its last pod has pushed the image. A job has at most one pod
more than it has retries, and a pod that succeeds has pushed the image. -/
structure Job where
  active : ℕ
  failed : ℕ
  succeeded : ℕ
  pushed : Bool
  pods_le : active + failed + succeeded ≤ backoffLimit + 1
  pushed_of_succeeded : 0 < succeeded → pushed = true

theorem zero_le_pods : 0 + 0 + 0 ≤ backoffLimit + 1 := Nat.zero_le _

theorem not_succeeded (pushed : Bool) (h : 0 < 0) : pushed = true := absurd h (lt_irrefl 0)

/-- A job that has just been created. -/
def Job.new : Job := ⟨0, 0, 0, false, zero_le_pods, not_succeeded false⟩

/-- What can happen to the pods of a job. -/
inductive PodEvent
  | starts
  | pushes
  | fails
  | succeeds

/-- The job can start a pod. -/
def Job.HasRetry (j : Job) : Prop := j.active = 0 ∧ j.succeeded = 0 ∧ j.failed ≤ backoffLimit

instance (j : Job) : Decidable j.HasRetry := inferInstanceAs (Decidable (_ ∧ _ ∧ _))

variable {j : Job}

theorem Job.HasRetry.pods_le (h : j.HasRetry) : 1 + j.failed + j.succeeded ≤ backoffLimit + 1 := by
  obtain ⟨-, hsucceeded, hfailed⟩ := h
  omega

theorem Job.HasRetry.pushed_of_succeeded (h : j.HasRetry) :
    0 < j.succeeded → false = true := by
  intro hsucceeded
  obtain ⟨-, hzero, -⟩ := h
  omega

theorem Job.failed_pods_le (h : 0 < j.active) :
    j.active - 1 + (j.failed + 1) + j.succeeded ≤ backoffLimit + 1 := by
  have := j.pods_le
  omega

theorem Job.succeeded_pods_le (h : 0 < j.active) :
    j.active - 1 + j.failed + (j.succeeded + 1) ≤ backoffLimit + 1 := by
  have := j.pods_le
  omega

/-- What becomes of the job. What cannot happen changes nothing. -/
def Job.after (j : Job) : PodEvent → Job
  | .starts =>
    if h : j.HasRetry then
      ⟨1, j.failed, j.succeeded, false, h.pods_le, h.pushed_of_succeeded⟩
    else j
  | .pushes =>
    if 0 < j.active then ⟨j.active, j.failed, j.succeeded, true, j.pods_le, fun _ => rfl⟩ else j
  | .fails =>
    if h : 0 < j.active then
      ⟨j.active - 1, j.failed + 1, j.succeeded, j.pushed, j.failed_pods_le h,
        j.pushed_of_succeeded⟩
    else j
  | .succeeds =>
    if h : 0 < j.active ∧ j.pushed = true then
      ⟨j.active - 1, j.failed, j.succeeded + 1, j.pushed, j.succeeded_pods_le h.1, fun _ => h.2⟩
    else j

/-- The job has succeeded, or something can happen to its pods after which it has. -/
def Job.CanSucceed (j : Job) : Prop :=
  ∃ events : List PodEvent, 0 < (events.foldl Job.after j).succeeded

/-- All pods of the job have failed. -/
def Job.IsSpent (j : Job) : Prop := j.succeeded = 0 ∧ backoffLimit < j.failed

theorem Job.IsSpent.after (h : j.IsSpent) (e : PodEvent) : j.after e = j := by
  obtain ⟨hsucceeded, hfailed⟩ := h
  have hactive : ¬ 0 < j.active := by
    have := j.pods_le
    omega
  cases e with
  | starts => exact dif_neg fun hretry => absurd hretry.2.2 (not_le.mpr hfailed)
  | pushes => exact if_neg hactive
  | fails => exact dif_neg hactive
  | succeeds => exact dif_neg fun h => hactive h.1

/-- A job can succeed unless all its pods have failed. -/
theorem Job.canSucceed_iff : j.CanSucceed ↔ ¬ j.IsSpent := by
  constructor
  · rintro ⟨events, hevents⟩ hspent
    suffices hj : events.foldl Job.after j = j by
      rw [hj, hspent.1] at hevents
      exact lt_irrefl 0 hevents
    clear hevents
    induction events with
    | nil => rfl
    | cons e events ih => rw [List.foldl_cons, hspent.after, ih]
  · intro hspent
    rcases Nat.eq_zero_or_pos j.succeeded with hsucceeded | hsucceeded
    · have hfailed : j.failed ≤ backoffLimit := not_lt.mp fun h => hspent ⟨hsucceeded, h⟩
      rcases Nat.eq_zero_or_pos j.active with hactive | hactive
      · refine ⟨[.starts, .pushes, .succeeds], ?_⟩
        have hretry : j.HasRetry := ⟨hactive, hsucceeded, hfailed⟩
        simp [Job.after, hretry]
      · refine ⟨[.pushes, .succeeds], ?_⟩
        simp [Job.after, hactive]
    · exact ⟨[], hsucceeded⟩

/-! ### A reservation -/

/-- What a request raises: an `ApiException`, by its status, or another error. -/
inductive Error
  | api (status : ℕ)
  | other (text : String)

def Error.isApi : Error → Bool
  | api _ => true
  | other _ => false

/-- An error of a request that has been carried out or not. -/
structure Fault where
  error : Error
  applied : Bool

/-- What `wait_for_buildkit_job` returns. -/
structure BuildResult where
  success : Bool
  message : String
  logs : String

/-- How it ends: the image is taken for cached, the job has been waited for, or there was an error.
-/
inductive Outcome
  | cached
  | waited (result : BuildResult)
  | raised (error : Error)

/-- Where a reservation is: at one of the requests of `create_buildkit_job`, or in
`wait_for_buildkit_job`, before the loop, at its test or at the request in it. -/
inductive Phase
  | describeImages
  | readJob
  | deleteJob
  | createJob
  | startTimer
  | loop (startTime : ℚ)
  | poll (startTime : ℚ)
  | returned (outcome : Outcome)

/-- After `describe_images`. -/
def described : Except Error Bool → Phase
  | .ok true => .returned .cached
  | _ => .readJob

/-- After the job has been read. A job that has failed and one of unknown status are deleted. -/
def checked : Except Error Job → Phase
  | .ok job =>
    if 0 < job.succeeded then .returned .cached
    else if 0 < job.active then .startTimer
    else .deleteJob
  | .error (.api _) => .createJob
  | .error error => .returned (.raised error)

/-- After `delete_namespaced_job`. -/
def deleted : Except Error Unit → Phase
  | .ok () | .error (.api _) => .createJob
  | .error error => .returned (.raised error)

/-- After `create_namespaced_job`. -/
def created : Except Error Unit → Phase
  | .ok () => .startTimer
  | .error error => .returned (.raised error)

/-- The test of the loop. -/
def tested (timeout : ℕ) (startTime now : ℚ) (logs : String) : Phase :=
  if now - startTime < timeout then .poll startTime
  else .returned (.waited ⟨false, s!"Docker build timed out after {timeout} seconds", logs⟩)

/-- After the job has been read in the loop. -/
def polled (startTime : ℚ) (logs : String) : Except Error Job → Phase
  | .ok job =>
    if 0 < job.succeeded then .returned (.waited ⟨true, "Docker image built successfully", logs⟩)
    else if 0 < job.failed then
      .returned (.waited ⟨false, s!"Docker build failed (attempts: {job.failed})", logs⟩)
    else .loop startTime
  | .error _ => .loop startTime

/-! ### All of them -/

variable {ι : Type}

/-- The job of the build context, whether its image is in the registry, and the reservations. -/
structure State (ι : Type) where
  job : Option Job
  image : Bool
  now : ℚ
  calls : ι → Phase

/-- Nothing has been built, nor asked for. -/
def start (ι : Type) (image : Bool) (now : ℚ) : State ι :=
  ⟨none, image, now, fun _ => .describeImages⟩

/-- What can happen: the next step of a reservation, whose request may raise an error, something
with the pods, the end of the job's time to live or of the image's, another push, or that time
passes. -/
inductive Event (ι : Type)
  | call (k : ι) (fault : Option Fault) (logs : String)
  | pod (e : PodEvent)
  | jobRemoved
  | imageRemoved
  | imagePushed
  | clock (now : ℚ)

namespace State

variable (s : State ι)

def imageDetails : Option Fault → Except Error Bool
  | none => .ok s.image
  | some fault => .error fault.error

def readNamespacedJob : Option Fault → Except Error Job
  | none =>
    match s.job with
    | some j => .ok j
    | none => .error (.api 404)
  | some fault => .error fault.error

def deleteNamespacedJob : Option Fault → Except Error Unit × Option Job
  | none =>
    match s.job with
    | some _ => (.ok (), none)
    | none => (.error (.api 404), none)
  | some fault => (.error fault.error, if fault.applied then none else s.job)

def createNamespacedJob : Option Fault → Except Error Unit × Option Job
  | none =>
    match s.job with
    | some j => (.error (.api 409), some j)
    | none => (.ok (), some .new)
  | some fault =>
    (.error fault.error, if fault.applied then some (s.job.getD .new) else s.job)

end State

section Steps

variable [DecidableEq ι]

/-- The reservation goes on. -/
def State.move (s : State ι) (k : ι) (phase : Phase) : State ι :=
  { s with calls := Function.update s.calls k phase }

/-- The next step of a reservation. -/
def call (timeout : ℕ) (s : State ι) (k : ι) (fault : Option Fault) (logs : String) : State ι :=
  match s.calls k with
  | .describeImages => s.move k (described (s.imageDetails fault))
  | .readJob => s.move k (checked (s.readNamespacedJob fault))
  | .deleteJob =>
    let (answer, job) := s.deleteNamespacedJob fault
    { s.move k (deleted answer) with job }
  | .createJob =>
    let (answer, job) := s.createNamespacedJob fault
    { s.move k (created answer) with job }
  | .startTimer => s.move k (.loop s.now)
  | .loop startTime => s.move k (tested timeout startTime s.now logs)
  | .poll startTime => s.move k (polled startTime logs (s.readNamespacedJob fault))
  | .returned _ => s

def step (timeout : ℕ) (s : State ι) : Event ι → State ι
  | .call k fault logs => call timeout s k fault logs
  | .pod .pushes =>
    { s with
      job := s.job.map fun j => j.after .pushes
      image := s.image || s.job.any fun j => 0 < j.active }
  | .pod e => { s with job := s.job.map fun j => j.after e }
  | .jobRemoved => { s with job := none }
  | .imageRemoved => { s with image := false }
  | .imagePushed => { s with image := true }
  | .clock now => { s with now }

/-! ### What is reported -/

/-- The reservation ends with the step. -/
def Reports (timeout : ℕ) (s : State ι) (e : Event ι) (k : ι) (outcome : Outcome) : Prop :=
  (∀ earlier, s.calls k ≠ .returned earlier) ∧ (step timeout s e).calls k = .returned outcome

/-- What is reported with a step is true, and no job is deleted that can still succeed. -/
structure Honest (timeout : ℕ) (s : State ι) (e : Event ι) : Prop where
  failure : ∀ k result, Reports timeout s e k (.waited result) → result.success = false →
    (∃ j, s.job = some j ∧ ¬ j.CanSucceed) ∨
      ∃ startTime, s.calls k = .loop startTime ∧ (timeout : ℚ) ≤ s.now - startTime
  success : ∀ k result, Reports timeout s e k (.waited result) → result.success = true →
    ∃ j, s.job = some j ∧ 0 < j.succeeded
  cached : ∀ k, Reports timeout s e k .cached → s.image = true
  deletion : ∀ k fault logs, e = .call k fault logs → (step timeout s e).job = none →
    ∀ j, s.job = some j → ¬ j.CanSucceed
  creation : ∀ k error, s.calls k = .createJob → Reports timeout s e k (.raised error) →
    s.job = none

end Steps

variable {timeout : ℕ} {s : State ι} {e : Event ι} {k : ι}

/-- The request is carried out. -/
def isApplied : Option Fault → Bool
  | none => true
  | some fault => fault.applied

/-- No job is read between a pod that has failed and the next one, nor before its first pod. While
it is there, requests for it raise no `ApiException`. A job is created while nobody else is between
reading and creating one, and its image is kept while it is there. -/
def Fits (s : State ι) : Event ι → Prop
  | .call k fault _ =>
    match s.calls k with
    | .readJob =>
      match fault with
      | none => ∀ j, s.job = some j → j.active = 0 → j.succeeded = 0 → backoffLimit < j.failed
      | some fault => fault.error.isApi = true → s.job = none
    | .deleteJob =>
      ∀ f, fault = some f → f.error.isApi = true → f.applied = false → s.job = none
    | .createJob =>
      isApplied fault = true → ∀ l ≠ k, s.calls l ≠ .deleteJob ∧ s.calls l ≠ .createJob
    | .poll _ =>
      fault = none → ∀ j, s.job = some j → j.succeeded = 0 → 0 < j.failed → backoffLimit < j.failed
    | _ => True
  | .imageRemoved => ∀ j, s.job = some j → j.pushed = false
  | _ => True

/-! ### One step -/

/-- What holds between the steps of runs that fit. -/
structure Inv (s : State ι) : Prop where
  image : ∀ j, s.job = some j → j.pushed = true → s.image = true
  deleting : ∀ k, s.calls k = .deleteJob → ∀ j, s.job = some j → j.IsSpent
  creating : ∀ k, s.calls k = .createJob → s.job = none

theorem readNamespacedJob_eq_ok {fault : Option Fault} (h : s.readNamespacedJob fault = .ok j) :
    fault = none ∧ s.job = some j := by
  cases fault with
  | none =>
    rw [State.readNamespacedJob] at h
    split at h
    case h_1 j' hj =>
      cases h
      exact ⟨rfl, hj⟩
    case h_2 => cases h
  | some fault => cases h

theorem inv_start (image : Bool) (now : ℚ) : Inv (start ι image now) := by
  refine ⟨fun j hj => ?_, fun _ hk => ?_, fun _ hk => ?_⟩
  · cases hj
  · cases hk
  · cases hk

variable [DecidableEq ι]

/-- Only the reservation whose step it is goes on. -/
theorem call_calls_of_ne {l : ι} {fault : Option Fault} {logs : String} (h : l ≠ k) :
    (call timeout s k fault logs).calls l = s.calls l := by
  rw [call]
  split <;> first | exact Function.update_of_ne h _ _ | rfl

theorem Reports.eq_call {outcome : Outcome} (h : Reports timeout s e k outcome) :
    ∃ fault logs, e = .call k fault logs := by
  obtain ⟨hrunning, hreturned⟩ := h
  cases e with
  | call l fault logs =>
    by_cases hl : k = l
    · exact ⟨fault, logs, by rw [hl]⟩
    · rw [step, call_calls_of_ne hl] at hreturned
      exact absurd hreturned (hrunning outcome)
  | pod e => cases e <;> exact absurd hreturned (hrunning outcome)
  | jobRemoved => exact absurd hreturned (hrunning outcome)
  | imageRemoved => exact absurd hreturned (hrunning outcome)
  | imagePushed => exact absurd hreturned (hrunning outcome)
  | clock now => exact absurd hreturned (hrunning outcome)

/-- The ways in which a reservation can end. -/
inductive Ends (timeout : ℕ) (s : State ι) (k : ι) (fault : Option Fault) : Outcome → Prop
  | imageFound : s.calls k = .describeImages → s.image = true → Ends timeout s k fault .cached
  | jobFound (j : Job) : s.calls k = .readJob → s.job = some j → 0 < j.succeeded →
      Ends timeout s k fault .cached
  | failed (error : Error) : s.calls k = .readJob ∨ s.calls k = .deleteJob →
      Ends timeout s k fault (.raised error)
  | notCreated (error : Error) : s.calls k = .createJob →
      (fault = none → s.job ≠ none) → Ends timeout s k fault (.raised error)
  | timedOut (startTime : ℚ) (message logs : String) : s.calls k = .loop startTime →
      (timeout : ℚ) ≤ s.now - startTime → Ends timeout s k fault (.waited ⟨false, message, logs⟩)
  | succeeded (j : Job) (startTime : ℚ) (message logs : String) : s.calls k = .poll startTime →
      s.job = some j → 0 < j.succeeded → Ends timeout s k fault (.waited ⟨true, message, logs⟩)
  | gaveUp (j : Job) (startTime : ℚ) (message logs : String) : fault = none →
      s.calls k = .poll startTime → s.job = some j → j.succeeded = 0 → 0 < j.failed →
      Ends timeout s k fault (.waited ⟨false, message, logs⟩)

@[simp]
theorem move_calls (s : State ι) (k : ι) (phase : Phase) : (s.move k phase).calls k = phase := by
  simp [State.move]

theorem ends_of_reports {outcome : Outcome} {fault : Option Fault} {logs : String}
    (h : Reports timeout s (.call k fault logs) k outcome) : Ends timeout s k fault outcome := by
  obtain ⟨hrunning, hreturned⟩ := h
  rw [step, call] at hreturned
  split at hreturned
  case h_1 hphase =>
    rw [move_calls] at hreturned
    cases fault with
    | none =>
      cases himage : s.image with
      | true =>
        rw [State.imageDetails, himage] at hreturned
        cases hreturned
        exact .imageFound hphase himage
      | false =>
        rw [State.imageDetails, himage] at hreturned
        cases hreturned
    | some fault => cases hreturned
  case h_2 hphase =>
    rw [move_calls] at hreturned
    cases hread : s.readNamespacedJob fault with
    | ok j =>
      rw [hread, checked] at hreturned
      split at hreturned
      case isTrue hsucceeded =>
        cases hreturned
        exact .jobFound j hphase (readNamespacedJob_eq_ok hread).2 hsucceeded
      case isFalse => split at hreturned <;> cases hreturned
    | error error =>
      rw [hread] at hreturned
      cases error with
      | api status => cases hreturned
      | other text =>
        cases hreturned
        exact .failed _ (.inl hphase)
  case h_3 hphase =>
    simp only [move_calls] at hreturned
    cases hanswer : (s.deleteNamespacedJob fault).1 with
    | ok done =>
      rw [hanswer] at hreturned
      cases hreturned
    | error error =>
      rw [hanswer] at hreturned
      cases error with
      | api status => cases hreturned
      | other text =>
        cases hreturned
        exact .failed _ (.inr hphase)
  case h_4 hphase =>
    simp only [move_calls] at hreturned
    cases hanswer : (s.createNamespacedJob fault).1 with
    | ok done =>
      rw [hanswer] at hreturned
      cases hreturned
    | error error =>
      rw [hanswer] at hreturned
      cases hreturned
      refine .notCreated error hphase ?_
      rintro rfl hjob
      rw [State.createNamespacedJob, hjob] at hanswer
      cases hanswer
  case h_5 hphase =>
    rw [move_calls] at hreturned
    cases hreturned
  case h_6 startTime hphase =>
    rw [move_calls, tested] at hreturned
    split at hreturned
    case isTrue => cases hreturned
    case isFalse htime =>
      cases hreturned
      exact .timedOut startTime _ _ hphase (not_lt.mp htime)
  case h_7 startTime hphase =>
    rw [move_calls] at hreturned
    cases hread : s.readNamespacedJob fault with
    | ok j =>
      obtain ⟨hfault, hjob⟩ := readNamespacedJob_eq_ok hread
      rw [hread, polled] at hreturned
      split at hreturned
      case isTrue hsucceeded =>
        cases hreturned
        exact .succeeded j startTime _ _ hphase hjob hsucceeded
      case isFalse hsucceeded =>
        split at hreturned
        case isTrue hfailed =>
          cases hreturned
          exact .gaveUp j startTime _ _ hfault hphase hjob (Nat.eq_zero_of_not_pos hsucceeded)
            hfailed
        case isFalse => cases hreturned
    | error error =>
      rw [hread] at hreturned
      cases hreturned
  case h_8 outcome hphase => exact absurd hphase (hrunning outcome)

/-- A reservation goes on, with a job that fits where all of them are. -/
theorem inv_moved {phase : Phase} {job : Option Job}
    (himage : ∀ j, job = some j → j.pushed = true → s.image = true)
    (hdeleting : ∀ l ≠ k, s.calls l = .deleteJob → ∀ j, job = some j → j.IsSpent)
    (hcreating : ∀ l ≠ k, s.calls l = .createJob → job = none)
    (hdelete : phase = .deleteJob → ∀ j, job = some j → j.IsSpent)
    (hcreate : phase = .createJob → job = none) :
    Inv { s.move k phase with job } := by
  refine ⟨himage, fun l hl => ?_, fun l hl => ?_⟩
  · by_cases hlk : l = k
    · rw [hlk] at hl
      exact hdelete (by simpa using hl)
    · exact hdeleting l hlk (by simpa [State.move, hlk] using hl)
  · by_cases hlk : l = k
    · rw [hlk] at hl
      exact hcreate (by simpa using hl)
    · exact hcreating l hlk (by simpa [State.move, hlk] using hl)

/-- The same, with the job that there was, or with none. -/
theorem Inv.moved (h : Inv s) {phase : Phase} {job : Option Job}
    (hjob : job = none ∨ job = s.job)
    (hdelete : phase = .deleteJob → ∀ j, job = some j → j.IsSpent)
    (hcreate : phase = .createJob → job = none) : Inv { s.move k phase with job } := by
  rcases hjob with rfl | rfl
  · refine inv_moved ?_ ?_ (fun _ _ _ => rfl) hdelete hcreate
    · intro j hj
      cases hj
    · intro l _ _ j hj
      cases hj
  · exact inv_moved h.image (fun l _ hl => h.deleting l hl) (fun l _ hl => h.creating l hl)
      hdelete hcreate

/-- A job is deleted when it has been read with no pod left. -/
theorem checked_eq_deleteJob {answer : Except Error Job} (h : checked answer = .deleteJob) :
    ∃ j, answer = .ok j ∧ j.active = 0 ∧ j.succeeded = 0 := by
  cases answer with
  | ok j =>
    rw [checked] at h
    split at h
    case isTrue => cases h
    case isFalse hsucceeded =>
      split at h
      case isTrue => cases h
      case isFalse hactive =>
        exact ⟨j, rfl, Nat.eq_zero_of_not_pos hactive, Nat.eq_zero_of_not_pos hsucceeded⟩
  | error error => cases error <;> cases h

theorem checked_eq_createJob {answer : Except Error Job} (h : checked answer = .createJob) :
    ∃ status, answer = .error (.api status) := by
  cases answer with
  | ok j =>
    rw [checked] at h
    split at h
    case isTrue => cases h
    case isFalse => split at h <;> cases h
  | error error =>
    cases error with
    | api status => exact ⟨status, rfl⟩
    | other text => cases h

theorem Inv.readJob (h : Inv s) {fault : Option Fault} {logs : String}
    (hphase : s.calls k = .readJob) (hfits : Fits s (.call k fault logs)) :
    Inv (s.move k (checked (s.readNamespacedJob fault))) := by
  simp only [Fits, hphase] at hfits
  refine h.moved (.inr rfl) ?_ ?_
  · intro hchecked j hj
    obtain ⟨j', hread, hactive, hsucceeded⟩ := checked_eq_deleteJob hchecked
    obtain ⟨rfl, hj'⟩ := readNamespacedJob_eq_ok hread
    obtain rfl : j' = j := Option.some.inj (hj'.symm.trans hj)
    exact ⟨hsucceeded, hfits j' hj hactive hsucceeded⟩
  · intro hchecked
    obtain ⟨status, hread⟩ := checked_eq_createJob hchecked
    cases fault with
    | none =>
      cases hjob : s.job with
      | none => rfl
      | some j =>
        rw [State.readNamespacedJob, hjob] at hread
        cases hread
    | some fault =>
      rw [State.readNamespacedJob] at hread
      refine hfits ?_
      rw [Except.error.inj hread]
      rfl

theorem Inv.deleteJob (h : Inv s) {fault : Option Fault} {logs : String}
    (hphase : s.calls k = .deleteJob) (hfits : Fits s (.call k fault logs)) :
    Inv { s.move k (deleted (s.deleteNamespacedJob fault).1) with
      job := (s.deleteNamespacedJob fault).2 } := by
  simp only [Fits, hphase] at hfits
  cases fault with
  | none =>
    have hnone : (s.deleteNamespacedJob none).2 = none := by
      rw [State.deleteNamespacedJob]
      split <;> rfl
    refine h.moved (.inl hnone) ?_ fun _ => hnone
    intro _ j hj
    rw [hnone] at hj
    cases hj
  | some fault =>
    simp only [State.deleteNamespacedJob]
    refine h.moved ?_ ?_ ?_
    · split_ifs
      · exact .inl rfl
      · exact .inr rfl
    · intro hdeleted
      cases herror : fault.error <;> rw [herror] at hdeleted <;> cases hdeleted
    · intro hdeleted
      split_ifs with happlied
      · rfl
      · cases herror : fault.error with
        | api status =>
          exact hfits fault rfl (by rw [herror]; rfl) (Bool.not_eq_true _ ▸ happlied)
        | other text =>
          rw [herror] at hdeleted
          cases hdeleted

theorem Inv.createJob (h : Inv s) {fault : Option Fault} {logs : String}
    (hphase : s.calls k = .createJob) (hfits : Fits s (.call k fault logs)) :
    Inv { s.move k (created (s.createNamespacedJob fault).1) with
      job := (s.createNamespacedJob fault).2 } := by
  simp only [Fits, hphase] at hfits
  have hjob : s.job = none := h.creating k hphase
  have hcreated (answer : Except Error Unit) :
      created answer ≠ .deleteJob ∧ created answer ≠ .createJob := by
    cases answer <;> exact ⟨Phase.noConfusion, Phase.noConfusion⟩
  by_cases happlied : isApplied fault = true
  · have hnew : (s.createNamespacedJob fault).2 = some .new := by
      cases fault with
      | none => rw [State.createNamespacedJob, hjob]
      | some fault =>
        rw [isApplied] at happlied
        simp only [State.createNamespacedJob, happlied, hjob, if_true, Option.getD_none]
    refine inv_moved ?_ ?_ ?_ (fun hp => absurd hp (hcreated _).1)
      fun hp => absurd hp (hcreated _).2
    · intro j hj hpushed
      rw [hnew] at hj
      cases hj
      cases hpushed
    · intro l hl hdeleting
      exact absurd hdeleting (hfits happlied l hl).1
    · intro l hl hcreating
      exact absurd hcreating (hfits happlied l hl).2
  · have hkept : (s.createNamespacedJob fault).2 = s.job := by
      cases fault with
      | none => exact absurd rfl happlied
      | some fault =>
        rw [isApplied] at happlied
        rw [State.createNamespacedJob]
        exact if_neg happlied
    exact h.moved (.inr hkept) (fun hp => absurd hp (hcreated _).1)
      fun hp => absurd hp (hcreated _).2

theorem Inv.pod (h : Inv s) (e : PodEvent) : Inv (step timeout s (.pod e)) := by
  have hdeleting (k : ι) (hk : s.calls k = .deleteJob) (j : Job)
      (hj : s.job.map (fun j => j.after e) = some j) : j.IsSpent := by
    obtain ⟨j, hjob, rfl⟩ := Option.map_eq_some_iff.mp hj
    rw [(h.deleting k hk j hjob).after]
    exact h.deleting k hk j hjob
  have hcreating (k : ι) (hk : s.calls k = .createJob) :
      s.job.map (fun j => j.after e) = none := by
    rw [h.creating k hk, Option.map_none]
  cases e with
  | starts =>
    refine ⟨fun j hj hpushed => ?_, hdeleting, hcreating⟩
    obtain ⟨j, hjob, rfl⟩ := Option.map_eq_some_iff.mp hj
    rw [Job.after] at hpushed
    split at hpushed
    case isTrue => cases hpushed
    case isFalse => exact h.image j hjob hpushed
  | pushes =>
    refine ⟨fun j hj hpushed => ?_, hdeleting, hcreating⟩
    obtain ⟨j, hjob, rfl⟩ := Option.map_eq_some_iff.mp hj
    rw [step, Bool.or_eq_true]
    rw [Job.after] at hpushed
    split at hpushed
    case isTrue hactive => exact .inr (by simpa [hjob] using hactive)
    case isFalse => exact .inl (h.image j hjob hpushed)
  | fails =>
    refine ⟨fun j hj hpushed => ?_, hdeleting, hcreating⟩
    obtain ⟨j, hjob, rfl⟩ := Option.map_eq_some_iff.mp hj
    rw [Job.after] at hpushed
    split at hpushed <;> exact h.image j hjob hpushed
  | succeeds =>
    refine ⟨fun j hj hpushed => ?_, hdeleting, hcreating⟩
    obtain ⟨j, hjob, rfl⟩ := Option.map_eq_some_iff.mp hj
    rw [Job.after] at hpushed
    split at hpushed <;> exact h.image j hjob hpushed

/-- A step that fits keeps the invariant. -/
theorem Inv.step (h : Inv s) (hfits : Fits s e) : Inv (step timeout s e) := by
  cases e with
  | call k fault logs =>
    rw [ImageBuilds.step, call]
    split
    case h_1 hphase =>
      have hdescribed (answer : Except Error Bool) :
          described answer ≠ .deleteJob ∧ described answer ≠ .createJob := by
        rcases answer with error | (_ | _) <;> exact ⟨Phase.noConfusion, Phase.noConfusion⟩
      exact h.moved (.inr rfl) (fun hp => absurd hp (hdescribed _).1)
        fun hp => absurd hp (hdescribed _).2
    case h_2 hphase => exact h.readJob hphase hfits
    case h_3 hphase => exact h.deleteJob hphase hfits
    case h_4 hphase => exact h.createJob hphase hfits
    case h_5 hphase => exact h.moved (.inr rfl) Phase.noConfusion Phase.noConfusion
    case h_6 startTime hphase =>
      have htested : tested timeout startTime s.now logs ≠ .deleteJob ∧
          tested timeout startTime s.now logs ≠ .createJob := by
        rw [tested]
        split <;> exact ⟨Phase.noConfusion, Phase.noConfusion⟩
      exact h.moved (.inr rfl) (fun hp => absurd hp htested.1) fun hp => absurd hp htested.2
    case h_7 startTime hphase =>
      have hpolled (answer : Except Error Job) :
          polled startTime logs answer ≠ .deleteJob ∧
            polled startTime logs answer ≠ .createJob := by
        cases answer with
        | ok j =>
          rw [polled]
          split
          case isTrue => exact ⟨Phase.noConfusion, Phase.noConfusion⟩
          case isFalse => split <;> exact ⟨Phase.noConfusion, Phase.noConfusion⟩
        | error error => exact ⟨Phase.noConfusion, Phase.noConfusion⟩
      exact h.moved (.inr rfl) (fun hp => absurd hp (hpolled _).1) fun hp => absurd hp (hpolled _).2
    case h_8 => exact h
  | pod e => exact h.pod e
  | jobRemoved =>
    refine ⟨fun j hj => ?_, fun _ _ j hj => ?_, fun _ _ => rfl⟩
    · cases hj
    · cases hj
  | imageRemoved =>
    refine ⟨fun j hj hpushed => ?_, h.deleting, h.creating⟩
    rw [hfits j hj] at hpushed
    cases hpushed
  | imagePushed => exact ⟨fun _ _ _ => rfl, h.deleting, h.creating⟩
  | clock now => exact ⟨h.image, h.deleting, h.creating⟩

/-- Only where a job is deleted or created does a reservation change it. -/
theorem call_job {fault : Option Fault} {logs : String} (hdelete : s.calls k ≠ .deleteJob)
    (hcreate : s.calls k ≠ .createJob) : (call timeout s k fault logs).job = s.job := by
  rw [call]
  split
  case h_3 hphase => exact absurd hphase hdelete
  case h_4 hphase => exact absurd hphase hcreate
  all_goals rfl

/-- A step that fits is honest. -/
theorem Inv.honest (h : Inv s) (hfits : Fits s e) : Honest timeout s e := by
  refine ⟨fun k result hreports hfailure => ?_, fun k result hreports hsuccess => ?_,
    fun k hreports => ?_, ?_, fun k error hphase _ => h.creating k hphase⟩
  · obtain ⟨fault, logs, rfl⟩ := hreports.eq_call
    cases ends_of_reports hreports with
    | timedOut startTime message logs hphase htime => exact .inr ⟨startTime, hphase, htime⟩
    | succeeded => cases hfailure
    | gaveUp j startTime message logs hfault hphase hjob hsucceeded hfailed =>
      simp only [Fits, hphase] at hfits
      refine .inl ⟨j, hjob, fun hcan => Job.canSucceed_iff.mp hcan ⟨hsucceeded, ?_⟩⟩
      exact hfits hfault j hjob hsucceeded hfailed
  · obtain ⟨fault, logs, rfl⟩ := hreports.eq_call
    cases ends_of_reports hreports with
    | timedOut => cases hsuccess
    | succeeded j startTime message logs hphase hjob hsucceeded => exact ⟨j, hjob, hsucceeded⟩
    | gaveUp => cases hsuccess
  · obtain ⟨fault, logs, rfl⟩ := hreports.eq_call
    cases ends_of_reports hreports with
    | imageFound hphase himage => exact himage
    | jobFound j hphase hjob hsucceeded =>
      exact h.image j hjob (j.pushed_of_succeeded hsucceeded)
  · rintro k fault logs rfl hnone j hjob hcan
    by_cases hdelete : s.calls k = .deleteJob
    · exact Job.canSucceed_iff.mp hcan (h.deleting k hdelete j hjob)
    · have hcreate : s.calls k ≠ .createJob := by
        intro hcreate
        rw [h.creating k hcreate] at hjob
        cases hjob
      rw [ImageBuilds.step, call_job hdelete hcreate, hjob] at hnone
      cases hnone

/-- A poll is honest only if it fits. -/
theorem Honest.fits_poll {startTime : ℚ} {fault : Option Fault} {logs : String}
    (h : Honest timeout s (.call k fault logs)) (hphase : s.calls k = .poll startTime) :
    Fits s (.call k fault logs) := by
  simp only [Fits, hphase]
  rintro rfl j hjob hsucceeded hfailed
  by_contra hretry
  have hreports : Reports timeout s (.call k none logs) k (.waited ⟨false,
      s!"Docker build failed (attempts: {j.failed})", logs⟩) := by
    refine ⟨by simp [hphase], ?_⟩
    simp [step, call, hphase, State.readNamespacedJob, hjob, polled, hsucceeded, hfailed]
  rcases h.failure k _ hreports rfl with ⟨j', hjob', hcan⟩ | ⟨startTime', hphase', -⟩
  · rw [hjob] at hjob'
    cases hjob'
    exact hcan (Job.canSucceed_iff.mpr fun hspent => hretry hspent.2)
  · rw [hphase] at hphase'
    cases hphase'

/-! ### Runs -/

/-- Where every step fits, what is reported is true, and no job is deleted that can still succeed,
for any number of reservations, whatever becomes of the job and the image. -/
theorem honest_of_fits (timeout : ℕ) (image : Bool) (now : ℚ) (run : List (Event ι))
    (h : Runs.Along (step timeout) Fits (start ι image now) run) :
    Runs.Along (step timeout) (Honest timeout) (start ι image now) run :=
  Runs.Along.of_invariant (fun _ _ hinv hfits => hinv.step hfits)
    (fun _ _ hinv hfits => hinv.honest hfits) (inv_start image now) h

/-- A second reservation finds the job at work. -/
def sharedBuild : List (Event Bool) :=
  [.call false none "", .call false none "", .call false none "", .pod .starts,
    .call true none "", .call true none "", .call true none "", .call true none "",
    .call true none "", .pod .pushes, .pod .succeeds, .clock 10, .call true none "",
    .call true none "", .call false none "", .call false none "", .call false none ""]

theorem honest_of_fits_shared :
    Runs.Along (step 900) (Honest 900) (start Bool false 0) sharedBuild := by
  refine honest_of_fits 900 false 0 sharedBuild ?_
  have hnow : (0 : ℚ) < 900 := by decide
  have hlater : (10 : ℚ) < 900 := by decide
  simp [hnow, hlater, sharedBuild, Runs.Along, Fits, step, call, start, State.move, described,
    checked, created, State.imageDetails, State.readNamespacedJob, State.createNamespacedJob,
    tested, polled, Job.after, Job.new, Job.HasRetry, isApplied]

/-- A pod fails, and the reservation reports that the build has failed while another one is to come.
-/
theorem not_honest : ¬ ∀ run : List (Event Unit),
    Runs.Along (step 900) (Honest 900) (start Unit false 0) run := by
  intro h
  have hrun := h [.call () none "", .call () none "", .call () none "", .call () none "",
    .call () none "", .pod .starts, .pod .fails, .call () none ""]
  obtain ⟨-, -, -, -, -, -, -, hlast, -⟩ := hrun
  have hnow : (0 : ℚ) < 900 := by decide
  have hfits := hlast.fits_poll (show _ = Phase.poll 0 by
    simp [hnow, step, call, start, State.move, described, checked, created, State.imageDetails,
      State.readNamespacedJob, State.createNamespacedJob, tested])
  simp [Fits, hnow, step, call, start, State.move, described, checked, created, State.imageDetails,
    State.readNamespacedJob, State.createNamespacedJob, tested, Job.after, Job.new, Job.HasRetry,
    backoffLimit] at hfits

end CiInfra.GpuDev.ImageBuilds

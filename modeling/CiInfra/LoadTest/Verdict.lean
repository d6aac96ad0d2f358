import CiInfra.LoadTest.Monitor

/-!
# What a passed load test says

The report looks at the jobs that were collected, and at nothing else but the timeout. A run whose
jobs could not be read, or a job under another name, is missing from the collection without a
trace, so that a test passes with fewer jobs than were allocated. The condition under which this
does not happen is on what `gh` and the clock have answered.
-/

namespace CiInfra.LoadTest

open Interaction Program Fallible Grouping

/-! ### The report -/

/-- A row counts as failed the jobs that did not conclude with success. -/
theorem summaryRow_failed_eq_zero {runnerType : String} {jobs : List JobResult} :
    (summaryRow runnerType jobs).failed = 0 ↔ ∀ j ∈ jobs, j.conclusion = some "success" := by
  have hle : jobs.countP (fun j => decide (j.conclusion = some "success")) ≤ jobs.length :=
    List.countP_le_length
  have hall : jobs.countP (fun j => decide (j.conclusion = some "success")) = jobs.length ↔
      ∀ j ∈ jobs, j.conclusion = some "success" := by
    simp [List.countP_eq_length]
  rw [← hall]
  simp only [summaryRow]
  omega

/-- The report passes what has not timed out and has no job but successful ones. -/
theorem printLoadTestReport_eq_true {results : LoadTestResults} :
    printLoadTestReport results = true ↔
      results.timedOut = false ∧ ∀ j ∈ results.jobs, j.conclusion = some "success" := by
  have hrows : (∀ row ∈ summaryRows results, row.failed = 0) ↔
      ∀ j ∈ results.jobs, j.conclusion = some "success" := by
    simp only [summaryRows, List.mem_insertionSort, List.mem_map]
    constructor
    · intro h j hj
      have hgroup := mem_groupBy.mpr ⟨List.mem_map_of_mem (f := JobResult.runnerType) hj, rfl⟩
      exact summaryRow_failed_eq_zero.mp (h _ ⟨_, hgroup, rfl⟩) j (by simpa using hj)
    · rintro h row ⟨⟨runnerType, jobs⟩, hgroup, rfl⟩
      obtain ⟨-, rfl⟩ := mem_groupBy.mp hgroup
      exact summaryRow_failed_eq_zero.mpr fun j hj => h j (List.mem_of_mem_filter hj)
  rw [← hrows]
  simp [printLoadTestReport]

/-! ### What has been answered -/

/-- The jobs that have been listed, by the calls made so far, the latest first. -/
def listedJobs : List (Event Op Op.Res) → List Job
  | [] => []
  | ⟨.viewRun _, answer⟩ :: past =>
    listedJobs past ++ match readOutput answer with
      | .ok jobs => jobs
      | .error _ => []
  | _ :: past => listedJobs past

/-- The readings of the clock, by the calls made so far, the latest first. -/
def readings : List (Event Op Op.Res) → List ℚ
  | [] => []
  | ⟨.clock, now⟩ :: past => now :: readings past
  | _ :: past => readings past

/-- The load test jobs that have been listed. -/
def listedTestJobs (past : List (Event Op Op.Res)) : List Job :=
  (listedJobs past).filter fun job => (parseRunnerType job.name).isSome

/-- The reading before the last is at the deadline that the first one sets, or later. -/
def PastDeadline (timeoutMinutes : ℤ) (past : List (Event Op Op.Res)) : Prop :=
  match readings past with
  | _ :: now :: earlier => ∃ first ∈ earlier.getLast?, first + timeoutMinutes * 60 ≤ now
  | _ => False

/-- The conclusion that is listed is that of a successful job. -/
def Job.succeeded (job : Job) : Bool := job.conclusion = some (some "success")

variable {branch : String} {createdAt deadline startTime first : ℚ}
  {allocations : List RunnerAllocation} {timeoutMinutes : ℤ} {polls : ℕ}
  {lookup : List (String × String)} {past : List (Event Op Op.Res)}

theorem jobResult_conclusion {job : Job} {j : JobResult} (h : jobResult lookup job = some j) :
    j.conclusion = some "success" ↔ job.succeeded = true := by
  obtain ⟨key, -, rfl⟩ := Option.map_eq_some_iff.mp h
  simp only [Job.succeeded, decide_eq_true_eq]
  cases hconclusion : job.conclusion with
  | none => simp
  | some conclusion => simp

theorem jobResult_isSome (job : Job) :
    (jobResult lookup job).isSome = (parseRunnerType job.name).isSome := by simp [jobResult]

/-- One result is collected for each load test job that is listed. -/
theorem length_filterMap_jobResult (jobs : List Job) :
    (jobs.filterMap (jobResult lookup)).length =
      (jobs.filter fun job => (parseRunnerType job.name).isSome).length := by
  rw [List.length_filterMap_eq_countP, ← List.countP_eq_length_filter]
  simp only [jobResult_isSome]

/-- The collected results are successes just when the listed jobs are. -/
theorem filterMap_jobResult_succeeded (jobs : List Job) :
    (∀ j ∈ jobs.filterMap (jobResult lookup), j.conclusion = some "success") ↔
      ∀ job ∈ jobs.filter fun job => (parseRunnerType job.name).isSome, job.succeeded = true := by
  constructor
  · intro h job hjob
    obtain ⟨hmem, hname⟩ := List.mem_filter.mp hjob
    rw [← @jobResult_isSome lookup] at hname
    obtain ⟨j, hj⟩ := Option.isSome_iff_exists.mp hname
    exact (jobResult_conclusion hj).mp (h j (List.mem_filterMap.mpr ⟨job, hmem, hj⟩))
  · intro h j hj
    obtain ⟨job, hmem, hj⟩ := List.mem_filterMap.mp hj
    refine (jobResult_conclusion hj).mpr (h job (List.mem_filter.mpr ⟨hmem, ?_⟩))
    rw [← @jobResult_isSome lookup, hj, Option.isSome_some]

/-! ### What is collected -/

/-- Any call may be made, and anything may be raised. -/
abbrev Collects {α : Type} (Q : List (Event Op Op.Res) → α → Prop)
    (past : List (Event Op Op.Res)) (p : Monitor α) : Prop :=
  p.Heeds (fun _ _ => True) Q (fun _ _ => True) past

theorem collects_clock :
    Collects (fun past' now => listedJobs past' = listedJobs past ∧
      readings past' = now :: readings past) past clock :=
  heeds_request trivial (fun _ _ h => by cases h; exact ⟨rfl, rfl⟩) fun _ _ _ => trivial

theorem collects_sleep {seconds : ℕ} :
    Collects (fun past' _ => listedJobs past' = listedJobs past ∧ readings past' = readings past)
      past (sleep seconds) :=
  heeds_request trivial (fun _ _ _ => ⟨rfl, rfl⟩) fun _ _ _ => trivial

theorem collects_getFilteredRuns :
    Collects (fun past' _ => listedJobs past' = listedJobs past ∧ readings past' = readings past)
      past (getFilteredRuns branch createdAt) :=
  heeds_request trivial (fun _ _ _ => ⟨rfl, rfl⟩) fun _ _ _ => trivial

/-- The results that are collected are those of the jobs that the calls have listed. -/
theorem collects_collectJobResults (runs : List WorkflowRun) :
    Collects (fun past' result => (listedJobs past').filterMap (jobResult lookup) =
        (listedJobs past).filterMap (jobResult lookup) ++ result.1 ∧
      readings past' = readings past) past (collectJobResults lookup runs) := by
  induction runs generalizing past with
  | nil => exact heeds_pure ⟨by simp, rfl⟩
  | cons run runs ih =>
    refine Fallible.Heeds.bind (Q := fun past' listed =>
      listedJobs past' = listedJobs past ++ listed ∧
      readings past' = readings past)
      (heeds_request trivial (fun r a h => ⟨?_, rfl⟩) fun _ _ _ => trivial) ?_
    · simp only [listedJobs, h]
    · rintro past' listed ⟨hlisted, hreadings⟩
      refine Fallible.Heeds.bind ih fun past'' rest hrest => heeds_pure ?_
      rw [hrest.1, hrest.2, hlisted, List.filterMap_append, List.append_assoc]
      exact ⟨rfl, hreadings⟩

/-- The results are made of the jobs listed and the readings of the clock. -/
def MadeOf (lookup : List (String × String)) (deadline first : ℚ) (past : List (Event Op Op.Res))
    (results : LoadTestResults) : Prop :=
  results.jobs = (listedJobs past).filterMap (jobResult lookup) ∧
    ∃ finished now earlier, readings past = finished :: now :: earlier ∧
      earlier.getLast? = some first ∧ (results.timedOut = true ↔ deadline ≤ now)

/-- The polling starts with no job listed, after the reading that sets the deadline, and it keeps
to that until it collects the jobs. -/
theorem collects_pollRuns (hlisted : listedJobs past = [])
    (hfirst : (readings past).getLast? = some first) :
    Collects (MadeOf (buildLabelLookup allocations) deadline first) past
      (pollRuns branch createdAt allocations deadline startTime polls) := by
  induction polls generalizing past with
  | zero => trivial
  | succ polls ih =>
    refine Fallible.Heeds.bind collects_clock ?_
    rintro past₁ now ⟨hlisted₁, hreadings₁⟩
    have hfirst₁ : (readings past₁).getLast? = some first := by
      rw [hreadings₁, List.getLast?_cons, hfirst, Option.getD_some]
    split
    · rename_i hnow
      refine Fallible.Heeds.bind collects_getFilteredRuns ?_
      rintro past₂ runs ⟨hlisted₂, hreadings₂⟩
      have hagain : Collects (MadeOf (buildLabelLookup allocations) deadline first) past₂ (do
          sleep pollIntervalSeconds
          pollRuns branch createdAt allocations deadline startTime polls) :=
        Fallible.Heeds.bind collects_sleep fun past₃ _ h =>
          ih (h.1.trans (hlisted₂.trans (hlisted₁.trans hlisted)))
            (by rw [h.2, hreadings₂, hfirst₁])
      split
      · exact hagain
      · split
        · refine Fallible.Heeds.bind (collects_collectJobResults runs) ?_
          rintro past₃ ⟨jobs, runIds⟩ ⟨hjobs, hreadings₃⟩
          refine Fallible.Heeds.bind collects_clock ?_
          rintro past₄ finished ⟨hlisted₄, hreadings₄⟩
          refine heeds_pure ⟨?_, finished, now, readings past, ?_, hfirst, ?_⟩
          · rw [hlisted₄, hjobs, hlisted₂, hlisted₁, hlisted]
            rfl
          · rw [hreadings₄, hreadings₃, hreadings₂, hreadings₁]
          · exact iff_of_false (fun h => by cases h) (Rat.not_le.mpr hnow)
        · exact hagain
    · rename_i hnow
      refine Fallible.Heeds.bind collects_clock ?_
      rintro past₂ finished ⟨hlisted₂, hreadings₂⟩
      refine Fallible.Heeds.bind collects_getFilteredRuns ?_
      rintro past₃ runs ⟨hlisted₃, hreadings₃⟩
      refine Fallible.Heeds.bind (collects_collectJobResults runs) ?_
      rintro past₄ ⟨jobs, runIds⟩ ⟨hjobs, hreadings₄⟩
      refine heeds_pure ⟨?_, finished, now, readings past, ?_, hfirst, ?_⟩
      · rw [hjobs, hlisted₃, hlisted₂, hlisted₁, hlisted]
        rfl
      · rw [hreadings₄, hreadings₃, hreadings₂, hreadings₁]
      · exact iff_of_true rfl (Rat.not_lt.mp hnow)

/-! ### The verdict -/

/-- A passed test has collected as many jobs as were allocated, and each of them is a success. -/
def Vouches (allocations : List RunnerAllocation) (results : LoadTestResults) : Prop :=
  printLoadTestReport results = true →
    results.jobs.length = totalExpected allocations ∧
      ∀ j ∈ results.jobs, j.conclusion = some "success"

/-- Before the deadline, as many load test jobs are listed as were allocated, unless one of them
is no success. -/
def ListsAll (allocations : List RunnerAllocation) (timeoutMinutes : ℤ)
    (past : List (Event Op Op.Res)) : Prop :=
  PastDeadline timeoutMinutes past ∨ (∃ job ∈ listedTestJobs past, job.succeeded = false) ∨
    (listedTestJobs past).length = totalExpected allocations

theorem madeOf_waitForLoadTest :
    Collects (fun past results => ∃ first, MadeOf (buildLabelLookup allocations)
        (first + timeoutMinutes * 60) first past results) []
      (waitForLoadTest branch createdAt allocations timeoutMinutes polls) := by
  refine Fallible.Heeds.bind collects_clock ?_
  rintro past₁ now ⟨hlisted₁, hreadings₁⟩
  refine Fallible.Heeds.bind collects_clock ?_
  rintro past₂ startTime ⟨hlisted₂, hreadings₂⟩
  have hfirst : (readings past₂).getLast? = some now := by
    rw [hreadings₂, hreadings₁]
    rfl
  exact (collects_pollRuns (hlisted₂.trans hlisted₁) hfirst).mono (fun _ _ h => ⟨now, h⟩)
    fun _ _ h => h

/-- A passed test vouches for every allocated job just when the calls have listed them all, in any
run and for any answers of `gh` and the clock. -/
theorem printLoadTestReport_vouches {t : List (Event Op Op.Res)} {results : LoadTestResults}
    (h : Trace (waitForLoadTest branch createdAt allocations timeoutMinutes polls).run t
      (done (.ok results))) :
    Vouches allocations results ↔ ListsAll allocations timeoutMinutes t.reverse := by
  obtain ⟨first, hjobs, finished, now, earlier, hreadings, hfirst, htimedOut⟩ :
      ∃ first, MadeOf (buildLabelLookup allocations) (first + timeoutMinutes * 60) first t.reverse
        results := by
    have hend := Program.Heeds.of_trace madeOf_waitForLoadTest h
    rwa [List.append_nil] at hend
  have hpast : PastDeadline timeoutMinutes t.reverse ↔ results.timedOut = true := by
    rw [htimedOut]
    simp [PastDeadline, hreadings, hfirst]
  have hlength : results.jobs.length = (listedTestJobs t.reverse).length := by
    rw [hjobs, length_filterMap_jobResult]
    rfl
  have hsucceeded : (∀ j ∈ results.jobs, j.conclusion = some "success") ↔
      ∀ job ∈ listedTestJobs t.reverse, job.succeeded = true := by
    rw [hjobs, filterMap_jobResult_succeeded]
    rfl
  unfold Vouches ListsAll
  rw [printLoadTestReport_eq_true, hpast, hlength, hsucceeded]
  constructor
  · intro hvouches
    by_cases htime : results.timedOut = true
    · exact .inl htime
    · by_cases hall : ∀ job ∈ listedTestJobs t.reverse, job.succeeded = true
      · exact .inr (.inr (hvouches ⟨by simpa using htime, hall⟩).1)
      · refine .inr (.inl ?_)
        simpa using hall
  · rintro hlists ⟨htime, hall⟩
    refine ⟨?_, hall⟩
    obtain hlate | ⟨job, hjob, hfailed⟩ | hcount := hlists
    · rw [htime] at hlate
      cases hlate
    · rw [hall job hjob] at hfailed
      cases hfailed
    · exact hcount

/-! ### Two runs -/

/-- What `gh` answers, and the clock, which advances by a second at each reading. -/
structure Gh where
  now : ℚ
  runs : List WorkflowRun
  jobs : ℕ → Completed (List Job)

def Gh.serve : (op : Op) → Gh → op.Res × Gh
  | .clock, gh => (gh.now, { gh with now := gh.now + 1 })
  | .sleep seconds, gh => ((), { gh with now := gh.now + seconds })
  | .listRuns _, gh => (.exited 0 (.json gh.runs), gh)
  | .viewRun runId, gh => (gh.jobs runId, gh)

/-- Two jobs, in one completed run. -/
def twoJobs : List RunnerAllocation := [⟨"l-x86iavx512-8-16", 2⟩]

def completedRun (jobs : Completed (List Job)) : Gh :=
  ⟨0, [⟨100, some "completed", some 0⟩], fun _ => jobs⟩

/-- The wait for the two jobs, with what `gh run view` prints. -/
def waitWith (jobs : Completed (List Job)) : Except Stop LoadTestResults × Gh :=
  (waitForLoadTest "osdc-load-test-c1" 0 twoJobs 120 1).run.run Gh.serve (completedRun jobs)

/-- The calls of the wait, the earliest first. -/
def callsWith (jobs : Completed (List Job)) : List (Event Op Op.Res) :=
  ((waitForLoadTest "osdc-load-test-c1" 0 twoJobs 120 1).run.exchanges Gh.serve
    (completedRun jobs)).map fun x => ⟨x.op, x.res⟩

def bothPassed : Completed (List Job) :=
  .exited 0 (.json [⟨"load-l-x86iavx512-8-16 (1)", some (some "success")⟩,
    ⟨"load-l-x86iavx512-8-16 (2)", some (some "success")⟩])

def bothPassedResults : LoadTestResults :=
  ⟨2, 2, false, 2, [⟨"load-l-x86iavx512-8-16 (1)", some "success", "l-x86iavx512-8-16"⟩,
    ⟨"load-l-x86iavx512-8-16 (2)", some "success", "l-x86iavx512-8-16"⟩], [100]⟩

theorem trace_callsWith {jobs : Completed (List Job)} {results : LoadTestResults}
    (h : (waitWith jobs).1 = .ok results) :
    Trace (waitForLoadTest "osdc-load-test-c1" 0 twoJobs 120 1).run (callsWith jobs)
      (done (.ok results)) :=
  h ▸ trace_exchanges _ _

theorem waitWith_bothPassed : (waitWith bothPassed).1 = .ok bothPassedResults := by
  decide +kernel

theorem printLoadTestReport_vouches_bothPassed :
    printLoadTestReport bothPassedResults = true ∧ Vouches twoJobs bothPassedResults :=
  ⟨by decide +kernel, (printLoadTestReport_vouches (trace_callsWith waitWith_bothPassed)).mpr
    (.inr (.inr (by decide +kernel)))⟩

/-- No job is collected from a command that has failed. -/
theorem waitWith_failed :
    (waitWith (.exited 1 .blank)).1 = .ok ⟨2, 0, false, 2, [], [100]⟩ := by
  decide +kernel

/-- Where `gh run view` fails, a test of two jobs passes without any. -/
theorem not_printLoadTestReport_vouches :
    ¬ ∀ (branch : String) (createdAt : ℚ) (allocations : List RunnerAllocation)
        (timeoutMinutes : ℤ) (polls : ℕ) (t : List (Event Op Op.Res)) (results : LoadTestResults),
      Trace (waitForLoadTest branch createdAt allocations timeoutMinutes polls).run t
          (done (.ok results)) →
        Vouches allocations results := by
  intro hall
  have hvouches := hall _ _ _ _ _ _ _ (trace_callsWith waitWith_failed)
  have hcount : 0 = 2 := (hvouches (by decide +kernel)).1
  cases hcount

end CiInfra.LoadTest

import CiInfra.Lib.Fallible
import CiInfra.Lib.Grouping
import Mathlib.Data.List.Sort
import Mathlib.Data.Rat.Defs

/-!
# Monitoring a load test

The monitor polls `gh` for the workflow runs of a branch until all of them are completed or the
deadline has passed, collects the jobs of the runs, and reports whether the test has passed. What
`gh` prints is open, and so is the clock. The report's text is not modelled, only its rows.
-/

namespace CiInfra.LoadTest

open Interaction Program Fallible Grouping

/-! ### Names of jobs -/

/-- The zeros of the decimal digits that `\d` matches. -/
def decimalZeros : List ℕ :=
  [0x30, 0x660, 0x6f0, 0x7c0, 0x966, 0x9e6, 0xa66, 0xae6, 0xb66, 0xbe6, 0xc66, 0xce6, 0xd66, 0xde6,
    0xe50, 0xed0, 0xf20, 0x1040, 0x1090, 0x17e0, 0x1810, 0x1946, 0x19d0, 0x1a80, 0x1a90, 0x1b50,
    0x1bb0, 0x1c40, 0x1c50, 0xa620, 0xa8d0, 0xa900, 0xa9d0, 0xa9f0, 0xaa50, 0xabf0, 0xff10, 0x104a0,
    0x10d30, 0x11066, 0x110f0, 0x11136, 0x111d0, 0x112f0, 0x11450, 0x114d0, 0x11650, 0x116c0,
    0x11730, 0x118e0, 0x11950, 0x11c50, 0x11d50, 0x11da0, 0x11f50, 0x16a60, 0x16ac0, 0x16b50,
    0x1d7ce, 0x1d7d8, 0x1d7e2, 0x1d7ec, 0x1d7f6, 0x1e140, 0x1e2f0, 0x1e4f0, 0x1e950, 0x1fbf0]

/-- `\d`. -/
def isDecimal (c : Char) : Bool := decimalZeros.any fun z => z ≤ c.toNat ∧ c.toNat < z + 10

/-- `\s`. -/
def isSpace (c : Char) : Bool :=
  (9 ≤ c.toNat ∧ c.toNat ≤ 13) || (0x1c ≤ c.toNat ∧ c.toNat ≤ 0x20) ||
    (0x2000 ≤ c.toNat ∧ c.toNat ≤ 0x200a) ||
    [0x85, 0xa0, 0x1680, 0x2028, 0x2029, 0x202f, 0x205f, 0x3000].contains c.toNat

/-- `$` matches here: at the end, or before a newline at the end. -/
def atEnd (cs : List Char) : Bool := cs = [] || cs = ['\n']

/-- `\s*\(\d+\)$` matches here. No blank, digit or parenthesis is two of these, so that there is
one way to match. -/
def indexEnds (cs : List Char) : Bool :=
  match cs.dropWhile isSpace with
  | '(' :: rest =>
    match rest.dropWhile isDecimal with
    | ')' :: tail => !(rest.takeWhile isDecimal).isEmpty && atEnd tail
    | _ => false
  | _ => false

/-- `(.+?)(?:\s*\(\d+\))?$`: the shortest group with a match behind it. -/
def shortestGroup : List Char → Option (List Char)
  | [] => none
  | c :: cs =>
    if c = '\n' then none
    else if indexEnds cs || atEnd cs then some [c]
    else (shortestGroup cs).map (c :: ·)

/-- `parse_runner_type`. -/
def parseRunnerType (jobName : String) : Option String :=
  match jobName.toList with
  | 'l' :: 'o' :: 'a' :: 'd' :: '-' :: cs => (shortestGroup cs).map String.ofList
  | _ => none

example : parseRunnerType "load-l-x86iavx512-8-16 (12)" = some "l-x86iavx512-8-16" := by
  decide +kernel

/-! ### Allocations -/

/-- A load test allocation, as far as the monitor reads it. -/
structure RunnerAllocation where
  osdcLabel : String
  jobCount : ℕ
  deriving DecidableEq

/-- `sanitize_job_key`. -/
def sanitizeJobKey (label : String) : String :=
  String.ofList (label.toList.map fun c => if c.isAlphanum || c = '_' || c = '-' then c else '-')

/-- `_build_label_lookup`; a later entry for a key hides an earlier one, and stands first. -/
def buildLabelLookup (allocations : List RunnerAllocation) : List (String × String) :=
  allocations.foldl (fun lookup a =>
    ((List.range 10).map fun i => (s!"{sanitizeJobKey a.osdcLabel}-part{i}", a.osdcLabel)) ++
      (sanitizeJobKey a.osdcLabel, a.osdcLabel) :: lookup) []

/-- `sum(a.job_count for a in allocations)`. -/
def totalExpected (allocations : List RunnerAllocation) : ℕ :=
  allocations.foldl (fun total a => total + a.jobCount) 0

/-! ### What `gh` says -/

/-- A workflow run of `gh run list`. A creation time that is missing or cannot be compared is
`none`: the run is kept either way. -/
structure WorkflowRun where
  databaseId : ℕ
  status : Option String
  createdAt : Option ℚ
  deriving DecidableEq

/-- A job of `gh run view`. The conclusion may be absent or null. -/
structure Job where
  /-- `job.get("name", "")`. -/
  name : String
  conclusion : Option (Option String)
  deriving DecidableEq

/-- What a command prints: nothing but blanks, a JSON document, or something else. -/
inductive Stdout (α : Type)
  | blank
  | json (value : α)
  | malformed
  deriving DecidableEq

/-- How a command ends, if it can be started. -/
inductive Completed (α : Type)
  | exited (returncode : ℤ) (stdout : Stdout α)
  | notStarted
  deriving DecidableEq

inductive Op
  | clock
  | sleep (seconds : ℕ)
  | listRuns (branch : String)
  | viewRun (runId : ℕ)

def Op.Res : Op → Type
  | clock => ℚ
  | sleep _ => Unit
  | listRuns _ => Completed (List WorkflowRun)
  | viewRun _ => Completed (List Job)

/-- The monitor has raised, or it is polling still. -/
inductive Stop
  | raised
  | polling
  deriving DecidableEq

/-- The programs of the monitor. -/
abbrev Monitor := Fallible Op Op.Res Stop

/-- What is read of a command: nothing if it fails or prints nothing. -/
def readOutput {α : Type} : Completed (List α) → Except Stop (List α)
  | .exited returncode stdout =>
    if returncode ≠ 0 then .ok []
    else
      match stdout with
      | .blank => .ok []
      | .json value => .ok value
      | .malformed => .error .raised
  | .notStarted => .error .raised

def clock : Monitor ℚ := request .clock .ok

def sleep (seconds : ℕ) : Monitor Unit := request (.sleep seconds) .ok

/-- `POLL_INTERVAL_SECONDS`. -/
def pollIntervalSeconds : ℕ := 30

/-- `_get_filtered_runs`. -/
def getFilteredRuns (branch : String) (notBefore : ℚ) : Monitor (List WorkflowRun) :=
  request (.listRuns branch) fun answer =>
    (readOutput answer).map fun runs =>
      runs.filter fun r => r.createdAt.all fun created => notBefore ≤ created

/-! ### Collecting the jobs -/

/-- The result of a job. A null conclusion is `none`. -/
structure JobResult where
  name : String
  conclusion : Option String
  runnerType : String
  deriving DecidableEq

/-- The result of a job that is listed, if its name is that of a load test job. -/
def jobResult (lookup : List (String × String)) (job : Job) : Option JobResult :=
  (parseRunnerType job.name).map fun key =>
    ⟨job.name, job.conclusion.getD (some "unknown"), (lookup.lookup key).getD key⟩

/-- `_collect_job_results`. -/
def collectJobResults (lookup : List (String × String)) :
    List WorkflowRun → Monitor (List JobResult × List ℕ)
  | [] => pure ([], [])
  | run :: runs => do
    let listed ← request (.viewRun run.databaseId) readOutput
    let rest ← collectJobResults lookup runs
    return (listed.filterMap (jobResult lookup) ++ rest.1, run.databaseId :: rest.2)

/-- `LoadTestResults`. -/
structure LoadTestResults where
  totalExpected : ℕ
  completedJobs : ℕ
  timedOut : Bool
  durationSeconds : ℚ
  jobs : List JobResult
  runIds : List ℕ
  deriving DecidableEq

/-- The loop of `wait_for_load_test`, for a number of polls, and what follows it. -/
def pollRuns (branch : String) (createdAt : ℚ) (allocations : List RunnerAllocation)
    (deadline startTime : ℚ) : ℕ → Monitor LoadTestResults
  | 0 => throw .polling
  | polls + 1 => do
    let now ← clock
    if now < deadline then
      let runs ← getFilteredRuns branch createdAt
      if runs = [] then
        sleep pollIntervalSeconds
        pollRuns branch createdAt allocations deadline startTime polls
      else if runs.all fun r => r.status = some "completed" then
        let (jobs, runIds) ← collectJobResults (buildLabelLookup allocations) runs
        let finished ← clock
        return ⟨totalExpected allocations, jobs.length, false, finished - startTime, jobs, runIds⟩
      else
        sleep pollIntervalSeconds
        pollRuns branch createdAt allocations deadline startTime polls
    else
      let finished ← clock
      let runs ← getFilteredRuns branch createdAt
      let (jobs, runIds) ← collectJobResults (buildLabelLookup allocations) runs
      return ⟨totalExpected allocations, jobs.length, true, finished - startTime, jobs, runIds⟩

/-- `wait_for_load_test`. -/
def waitForLoadTest (branch : String) (prCreatedAt : ℚ) (allocations : List RunnerAllocation)
    (timeoutMinutes : ℤ) (polls : ℕ) : Monitor LoadTestResults := do
  let now ← clock
  let startTime ← clock
  pollRuns branch prCreatedAt allocations (now + timeoutMinutes * 60) startTime polls

/-! ### The report -/

/-- A row of the summary table. -/
structure SummaryRow where
  runnerType : String
  passed : ℕ
  failed : ℕ
  total : ℕ
  deriving DecidableEq

/-- The row of one runner type. -/
def summaryRow (runnerType : String) (jobs : List JobResult) : SummaryRow :=
  let passed := jobs.countP fun j => j.conclusion = some "success"
  ⟨runnerType, passed, jobs.length - passed, jobs.length⟩

/-- The rows of the summary table, sorted by runner type. -/
def summaryRows (results : LoadTestResults) : List SummaryRow :=
  ((groupBy JobResult.runnerType results.jobs).map fun g => summaryRow g.1 g.2).insertionSort
    fun a b => a.runnerType ≤ b.runnerType

/-- `print_load_test_report`: the overall verdict. -/
def printLoadTestReport (results : LoadTestResults) : Bool :=
  !results.timedOut && (summaryRows results).all fun row => ¬ 0 < row.failed

end CiInfra.LoadTest

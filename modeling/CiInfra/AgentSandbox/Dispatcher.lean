import Mathlib.Data.List.Nodup
import Mathlib.Data.Rat.Defs
import Mathlib.Logic.Function.Basic
import Mathlib.Logic.Relation

/-!
# The sandbox dispatcher

Every request for a task reserves a slot, runs a Job to its end and releases the slot. A request
that waits does so in its handler, another in a thread of its own; either way it is one party here,
from the reservation to the end of the handler or the thread. The parties share the dictionary of
tasks under a lock. What the API server answers, and what the calls to it raise, is open.
-/

namespace CiInfra.AgentSandbox

/-- The settings: `MAX_CONCURRENT_TASKS`, and `TASK_DEADLINE_S` and `RESULT_RETENTION_S` in
seconds. -/
structure Config where
  maxConcurrentTasks : ℕ
  taskDeadline : ℕ
  resultRetention : ℕ

/-- What is raised: an `ApiError`, an `OSError`, or anything else, such as the `RuntimeError` of a
missing token or host. -/
inductive Raised
  | api (message : String)
  | os (message : String)
  | other

/-- The result of a task: what it printed, or an error of the dispatcher or of the task. -/
inductive Result
  | printed (json : String)
  | dispatch (message : String)
  | task (message : String)

/-- An entry of `_TASKS`. -/
inductive Task
  | running
  | done (result : Result) (finishedAt : ℚ)

/-- `t["state"] == "running"`. -/
def Task.isRunning : Task → Bool
  | running => true
  | done _ _ => false

/-! ### The tasks -/

/-- `_TASKS`. -/
structure Tasks where
  entries : List (String × Task)
  ids : (entries.map (·.1)).Nodup

/-- `_running_locked`. -/
def Tasks.runningCount (tasks : Tasks) : ℕ := tasks.entries.countP (·.2.isRunning)

/-- The task is finished and past its retention. -/
def Task.isStale (cfg : Config) (now : ℚ) : Task → Bool
  | running => false
  | done _ finishedAt => cfg.resultRetention < now - finishedAt

/-- `_prune_locked`. -/
def Tasks.prune (tasks : Tasks) (cfg : Config) (now : ℚ) : Tasks where
  entries := tasks.entries.filter fun e => !e.2.isStale cfg now
  ids := tasks.ids.sublist (List.filter_sublist.map _)

/-- `_TASKS[task_id] = task`. -/
def Tasks.set (tasks : Tasks) (taskId : String) (task : Task) : Tasks where
  entries := (tasks.entries.filter fun e => e.1 ≠ taskId) ++ [(taskId, task)]
  ids := by
    rw [List.map_append, List.nodup_append]
    refine ⟨tasks.ids.sublist (List.filter_sublist.map _), by simp, ?_⟩
    rintro _ hid _ hlast rfl
    obtain ⟨e, he, rfl⟩ := List.mem_map.mp hid
    simp_all

/-! ### A request -/

/-- The status of a Job, as far as it is read. -/
structure JobStatus where
  succeeded : Bool
  /-- The reason or message of the condition `Failed`, if it is true. -/
  failed : Option String

/-- Where a request is in `run_to_completion` and around it. -/
inductive Pc
  /-- It is about to reserve a slot. -/
  | starting
  /-- It is about to create the Job. -/
  | creating (taskId : String) (deadline : ℚ)
  /-- It is at the head of the loop. -/
  | checking (taskId : String) (deadline : ℚ)
  /-- It is about to read the state of the Job. -/
  | asking (taskId : String) (deadline : ℚ)
  | sleeping (taskId : String) (deadline : ℚ)
  /-- It is about to list the pods of the Job, which has failed with a detail or succeeded. -/
  | listing (taskId : String) (failed : Option String)
  /-- It is about to read the log of a pod. -/
  | reading (taskId : String) (failed : Option String) (pod : String)
  /-- It is about to delete the Job, with a result or with an exception on its way. -/
  | deleting (taskId : String) (outcome : Option Result)
  /-- It is about to release the slot. -/
  | finishing (taskId : String) (result : Result)
  | ended

/-- The slot that a request holds until its handler or thread has ended. -/
def Pc.holds : Pc → Option String
  | starting | ended => none
  | creating taskId _ | checking taskId _ | asking taskId _ | sleeping taskId _
  | listing taskId _ | reading taskId _ _ | deleting taskId _ | finishing taskId _ => some taskId

/-- After `create_job`. Nothing else is caught before the loop. -/
def afterCreate (taskId : String) (deadline : ℚ) : Except Raised Unit → Pc
  | .ok () => .checking taskId deadline
  | .error (.api m) | .error (.os m) => .finishing taskId (.dispatch m)
  | .error .other => .ended

/-- What the loop raises: the Job is deleted in any case. -/
def afterRaise (taskId : String) : Raised → Pc
  | .api m | .os m => .deleting taskId (some (.dispatch m))
  | .other => .deleting taskId none

/-- The check of the deadline. -/
def afterCheck (cfg : Config) (taskId : String) (deadline now : ℚ) : Pc :=
  if deadline < now then
    .deleting taskId (some (.dispatch ("task did not finish within " ++
      toString cfg.taskDeadline ++ "s")))
  else .asking taskId deadline

/-- After `job_state`. -/
def afterJobState (taskId : String) (deadline : ℚ) : Except Raised JobStatus → Pc
  | .error e => afterRaise taskId e
  | .ok status =>
    if status.succeeded then .listing taskId none
    else
      match status.failed with
      | some detail => .listing taskId (some detail)
      | none => .sleeping taskId deadline

/-- What `task_result` raises. An `ApiError` on a Job that has failed is the failure of its pod. -/
def afterResultRaise (taskId : String) : Option String → Raised → Pc
  | some detail, .api _ => .deleting taskId (some (.task ("pod failed: " ++ detail)))
  | _, e => afterRaise taskId e

/-- After the pods were listed: the last one, if there is one. -/
def afterPods (taskId : String) (failed : Option String) : Except Raised (Option String) → Pc
  | .ok (some pod) => .reading taskId failed pod
  | .ok none => afterResultRaise taskId failed (.api ("no pod found for sandbox-task-" ++ taskId))
  | .error e => afterResultRaise taskId failed e

/-- After the log was read: its last JSON object, if there is one. -/
def afterLog (taskId : String) (failed : Option String) : Except Raised (Option String) → Pc
  | .ok (some json) => .deleting taskId (some (.printed json))
  | .ok none =>
    afterResultRaise taskId failed (.api ("sandbox-task-" ++ taskId ++ " printed no result JSON"))
  | .error e => afterResultRaise taskId failed e

/-- After `delete_job`, which catches as much as the loop does. -/
def afterDelete (taskId : String) (outcome : Option Result) : Except Raised Unit → Pc
  | .error .other => .ended
  | _ =>
    match outcome with
    | some result => .finishing taskId result
    | none => .ended

/-- Whatever a call raises may be raised. -/
def Allowed {α : Type} (may : Raised → Prop) (r : Except Raised α) : Prop :=
  ∀ e, r = .error e → may e

/-- A step of a request that does not touch the tasks. -/
inductive Moves (cfg : Config) (may : Raised → Prop) : Pc → Pc → Prop
  | created {taskId : String} {deadline : ℚ} (r : Except Raised Unit) (h : Allowed may r) :
      Moves cfg may (.creating taskId deadline) (afterCreate taskId deadline r)
  | checked {taskId : String} {deadline : ℚ} (now : ℚ) :
      Moves cfg may (.checking taskId deadline) (afterCheck cfg taskId deadline now)
  | asked {taskId : String} {deadline : ℚ} (r : Except Raised JobStatus) (h : Allowed may r) :
      Moves cfg may (.asking taskId deadline) (afterJobState taskId deadline r)
  | slept {taskId : String} {deadline : ℚ} :
      Moves cfg may (.sleeping taskId deadline) (.checking taskId deadline)
  | listed {taskId : String} {failed : Option String} (r : Except Raised (Option String))
      (h : Allowed may r) : Moves cfg may (.listing taskId failed) (afterPods taskId failed r)
  | read {taskId : String} {failed : Option String} {pod : String}
      (r : Except Raised (Option String)) (h : Allowed may r) :
      Moves cfg may (.reading taskId failed pod) (afterLog taskId failed r)
  | deleted {taskId : String} {outcome : Option Result} (r : Except Raised Unit)
      (h : Allowed may r) :
      Moves cfg may (.deleting taskId outcome) (afterDelete taskId outcome r)

/-! ### The dispatcher -/

/-- The tasks, and where each request is. -/
structure Dispatcher (ι : Type) where
  tasks : Tasks
  requests : ι → Pc

variable {ι : Type} [DecidableEq ι]

/-- A step of the dispatcher, with what the calls to the API server may raise. The reservation
prunes the tasks first; the id is random, and may be one that is taken. -/
inductive Step (cfg : Config) (may : Raised → Prop) : Dispatcher ι → Dispatcher ι → Prop
  | refused {s : Dispatcher ι} {i : ι} (h : s.requests i = .starting) (now : ℚ)
      (hfull : cfg.maxConcurrentTasks ≤ (s.tasks.prune cfg now).runningCount) :
      Step cfg may s ⟨s.tasks.prune cfg now, Function.update s.requests i .ended⟩
  | started {s : Dispatcher ι} {i : ι} (h : s.requests i = .starting) (now now' : ℚ)
      (taskId : String)
      (hfree : (s.tasks.prune cfg now).runningCount < cfg.maxConcurrentTasks) :
      Step cfg may s ⟨(s.tasks.prune cfg now).set taskId .running,
        Function.update s.requests i (.creating taskId (now' + cfg.taskDeadline + 2 * 3))⟩
  | moved {s : Dispatcher ι} {i : ι} {pc : Pc} (h : Moves cfg may (s.requests i) pc) :
      Step cfg may s ⟨s.tasks, Function.update s.requests i pc⟩
  | finished {s : Dispatcher ι} {i : ι} {taskId : String} {result : Result}
      (h : s.requests i = .finishing taskId result) (now : ℚ) :
      Step cfg may s ⟨s.tasks.set taskId (.done result now), Function.update s.requests i .ended⟩

/-- No request has come in. -/
def idle : Dispatcher ι := ⟨⟨[], List.nodup_nil⟩, fun _ => .starting⟩

/-- The states that a run reaches. -/
abbrev Reachable (cfg : Config) (may : Raised → Prop) (s : Dispatcher ι) : Prop :=
  Relation.ReflTransGen (Step cfg may) idle s

end CiInfra.AgentSandbox

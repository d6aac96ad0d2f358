import CiInfra.AgentSandbox.Dispatcher

/-!
# The slots of the dispatcher

The number of running tasks is bounded in every run. A slot is released on the normal return of a
request only, so that every slot in use has a request that holds it as long as the calls to the API
server raise nothing that is not caught.
-/

namespace CiInfra.AgentSandbox

/-- `except (ApiError, OSError)`. -/
def Raised.IsCaught (e : Raised) : Prop := e ≠ .other

/-- The slots are bounded, kept while their tasks run, and in use only while their requests have
not ended. -/
structure SlotsSafe {ι : Type} (cfg : Config) (s : Dispatcher ι) : Prop where
  bounded : s.tasks.runningCount ≤ cfg.maxConcurrentTasks
  kept : ∀ now taskId, (taskId, .running) ∈ s.tasks.entries →
    (taskId, .running) ∈ (s.tasks.prune cfg now).entries
  released : ∀ taskId, (taskId, .running) ∈ s.tasks.entries →
    ∃ i, (s.requests i).holds = some taskId
  full : (∀ i, (s.requests i).holds = none) → s.tasks.runningCount = 0

/-! ### The tasks -/

section Tasks

variable {cfg : Config} {tasks : Tasks} {now : ℚ} {taskId other : String} {task : Task}

theorem runningCount_prune_le : (tasks.prune cfg now).runningCount ≤ tasks.runningCount :=
  List.filter_sublist.countP_le

theorem runningCount_set_le : (tasks.set taskId task).runningCount ≤
    tasks.runningCount + if task.isRunning then 1 else 0 := by
  have hle : (tasks.entries.filter fun e => e.1 ≠ taskId).countP (·.2.isRunning) ≤
      tasks.runningCount := List.filter_sublist.countP_le
  change ((tasks.entries.filter fun e => e.1 ≠ taskId) ++ [(taskId, task)]).countP _ ≤ _
  rw [List.countP_append, List.countP_singleton]
  exact Nat.add_le_add_right hle _

/-- A running task is never stale. -/
theorem mem_prune_of_running (h : (taskId, .running) ∈ tasks.entries) :
    (taskId, .running) ∈ (tasks.prune cfg now).entries :=
  List.mem_filter.mpr ⟨h, rfl⟩

theorem mem_of_mem_prune {e : String × Task} (h : e ∈ (tasks.prune cfg now).entries) :
    e ∈ tasks.entries := List.mem_of_mem_filter h

theorem mem_set {e : String × Task} : e ∈ (tasks.set taskId task).entries ↔
    (e ∈ tasks.entries ∧ e.1 ≠ taskId) ∨ e = (taskId, task) := by
  simp [Tasks.set]

/-- Where nothing runs, no slot is in use. -/
theorem runningCount_eq_zero (h : ∀ taskId, (taskId, Task.running) ∉ tasks.entries) :
    tasks.runningCount = 0 := by
  refine List.countP_eq_zero.mpr ?_
  rintro ⟨taskId, task⟩ he hrunning
  cases task with
  | running => exact h taskId he
  | done _ _ => cases hrunning

end Tasks

/-! ### The requests -/

section Requests

variable {cfg : Config} {may : Raised → Prop} {taskId : String} {pc pc' : Pc}

/-- The request holds a slot, and no exception is on its way past the release. -/
def Pc.WillRelease (pc : Pc) (taskId : String) : Prop :=
  pc.holds = some taskId ∧ pc ≠ .deleting taskId none

theorem willRelease_afterRaise {e : Raised} (h : e.IsCaught) :
    (afterRaise taskId e).WillRelease taskId := by
  cases e with
  | other => exact (h rfl).elim
  | _ => exact ⟨rfl, by simp [afterRaise]⟩

theorem willRelease_afterResultRaise {failed : Option String} {e : Raised} (h : e.IsCaught) :
    (afterResultRaise taskId failed e).WillRelease taskId := by
  unfold afterResultRaise
  split
  · exact ⟨rfl, by simp⟩
  · exact willRelease_afterRaise h

/-- A request that raises only what is caught goes on to release its slot. -/
theorem Moves.willRelease (h : Moves cfg Raised.IsCaught pc pc') (hpc : pc.WillRelease taskId) :
    pc'.WillRelease taskId := by
  obtain ⟨hholds, hdeleting⟩ := hpc
  cases h with
  | created r hr =>
    cases hholds
    rcases r with (_ | _ | _) | _
    · exact ⟨rfl, by simp [afterCreate]⟩
    · exact ⟨rfl, by simp [afterCreate]⟩
    · exact (hr _ rfl rfl).elim
    · exact ⟨rfl, by simp [afterCreate]⟩
  | checked now =>
    cases hholds
    unfold afterCheck
    split
    · exact ⟨rfl, by simp⟩
    · exact ⟨rfl, by simp⟩
  | asked r hr =>
    cases hholds
    unfold afterJobState
    split
    · exact willRelease_afterRaise (hr _ rfl)
    · split
      · exact ⟨rfl, by simp⟩
      · split
        · exact ⟨rfl, by simp⟩
        · exact ⟨rfl, by simp⟩
  | slept => exact ⟨hholds, by simp⟩
  | listed r hr =>
    cases hholds
    unfold afterPods
    split
    · exact ⟨rfl, by simp⟩
    · exact willRelease_afterResultRaise (by simp [Raised.IsCaught])
    · exact willRelease_afterResultRaise (hr _ rfl)
  | read r hr =>
    cases hholds
    unfold afterLog
    split
    · exact ⟨rfl, by simp⟩
    · exact willRelease_afterResultRaise (by simp [Raised.IsCaught])
    · exact willRelease_afterResultRaise (hr _ rfl)
  | @deleted _ outcome r hr =>
    cases hholds
    unfold afterDelete
    split
    · exact (hr _ rfl rfl).elim
    · cases outcome with
      | some result => exact ⟨rfl, by simp⟩
      | none => exact (hdeleting rfl).elim

end Requests

/-! ### Runs -/

section Runs

variable {ι : Type} [DecidableEq ι] {cfg : Config} {may : Raised → Prop} {s s' : Dispatcher ι}

theorem Step.bounded (h : Step cfg may s s') (hs : s.tasks.runningCount ≤ cfg.maxConcurrentTasks) :
    s'.tasks.runningCount ≤ cfg.maxConcurrentTasks := by
  cases h with
  | refused _ now _ => exact runningCount_prune_le.trans hs
  | started _ now now' taskId hfree => exact runningCount_set_le.trans hfree
  | moved _ => exact hs
  | finished _ now => exact runningCount_set_le.trans hs

/-- Whatever is raised, no more tasks run than there are slots. -/
theorem bounded_of_reachable (h : Reachable cfg may s) :
    s.tasks.runningCount ≤ cfg.maxConcurrentTasks := by
  induction h with
  | refl => exact Nat.zero_le _
  | tail _ hstep ih => exact hstep.bounded ih

/-- Every running task has a request that will release it. -/
def EachHeld (s : Dispatcher ι) : Prop :=
  ∀ taskId, (taskId, .running) ∈ s.tasks.entries → ∃ i, (s.requests i).WillRelease taskId

theorem Step.eachHeld (h : Step cfg Raised.IsCaught s s') (hs : EachHeld s) : EachHeld s' := by
  -- A request that holds a slot is not the one that steps, or it steps on.
  have hother : ∀ {i : ι} {taskId : String} {pc : Pc}, (s.requests i).holds ≠ some taskId →
      (∃ j, (s.requests j).WillRelease taskId) →
        ∃ j, (Function.update s.requests i pc j).WillRelease taskId := by
    rintro i taskId pc hi ⟨j, hj⟩
    refine ⟨j, ?_⟩
    rwa [Function.update_of_ne (by rintro rfl; exact hi hj.1)]
  intro taskId hrunning
  cases h with
  | refused hi now _ =>
    exact hother (by simp [hi, Pc.holds]) (hs taskId (mem_of_mem_prune hrunning))
  | @started i hi now now' newId hfree =>
    rcases mem_set.mp hrunning with ⟨hold, -⟩ | heq
    · exact hother (by simp [hi, Pc.holds]) (hs taskId (mem_of_mem_prune hold))
    · cases heq
      exact ⟨i, by simp [Pc.WillRelease, Pc.holds]⟩
  | @moved i pc hi =>
    obtain ⟨j, hj⟩ := hs taskId hrunning
    by_cases hji : j = i
    · subst hji
      exact ⟨j, by simpa using hi.willRelease hj⟩
    · refine ⟨j, ?_⟩
      change (Function.update s.requests i pc j).WillRelease taskId
      rwa [Function.update_of_ne hji]
  | @finished i doneId result hi now =>
    rcases mem_set.mp hrunning with ⟨hold, hne⟩ | heq
    · exact hother (by simpa [hi, Pc.holds] using Ne.symm hne) (hs taskId hold)
    · cases heq

/-- In every run in which the calls to the API server raise nothing but what is caught, the slots
are safe. -/
theorem slotsSafe (h : Reachable cfg Raised.IsCaught s) : SlotsSafe cfg s := by
  have hheld : EachHeld s := by
    induction h with
    | refl => exact fun _ hrunning => (List.not_mem_nil hrunning).elim
    | tail _ hstep ih => exact hstep.eachHeld ih
  refine ⟨bounded_of_reachable h, fun now taskId => mem_prune_of_running, fun taskId hrunning => ?_,
    fun hended => runningCount_eq_zero fun taskId hrunning => ?_⟩
  · obtain ⟨i, hi⟩ := hheld taskId hrunning
    exact ⟨i, hi.1⟩
  · obtain ⟨i, hi⟩ := hheld taskId hrunning
    cases (hended i).symm.trans hi.1

end Runs

/-! ### A missing token -/

/-- Settings with one slot. -/
def oneSlot : Config := ⟨1, 900, 3600⟩

/-- A dispatcher with one request. -/
def oneRequest (tasks : List (String × Task)) (h : (tasks.map (·.1)).Nodup) (pc : Pc) :
    Dispatcher Unit := ⟨⟨tasks, h⟩, fun _ => pc⟩

theorem step_of_moves {cfg : Config} {may : Raised → Prop} {tasks : List (String × Task)}
    {h : (tasks.map (·.1)).Nodup} {pc pc' : Pc} (hmoves : Moves cfg may pc pc') :
    Step cfg may (oneRequest tasks h pc) (oneRequest tasks h pc') :=
  @Step.moved Unit _ cfg may (oneRequest tasks h pc) () pc' hmoves

theorem reachable_creating (may : Raised → Prop) : Reachable oneSlot may
    (oneRequest [("0a1b", .running)] (by decide) (.creating "0a1b" 906)) := by
  have hstart := @Step.started Unit _ oneSlot may idle () rfl 0 0 "0a1b" (by decide)
  have hdeadline : ((0 : ℚ) + oneSlot.taskDeadline + 2 * 3) = 906 := by decide +kernel
  rw [hdeadline] at hstart
  exact Relation.ReflTransGen.single hstart

/-- A token that is missing when the Job is created ends the request without a release. -/
theorem not_slotsSafe_missingToken : ¬ ∀ (cfg : Config) (s : Dispatcher Unit),
    Reachable cfg (fun _ => True) s → SlotsSafe cfg s := by
  intro h
  have hended := (reachable_creating fun _ => True).tail
    (step_of_moves (.created (.error .other) fun _ _ => trivial))
  have hfull := (h oneSlot _ hended).full fun _ => rfl
  revert hfull
  decide

theorem slotsSafe_oneRequest : SlotsSafe oneSlot (oneRequest [("0a1b", .done (.printed "1") 8)]
    (by decide) .ended) := by
  have hcreated :=
    (reachable_creating Raised.IsCaught).tail (step_of_moves (.created (.ok ()) nofun))
  have hchecked := hcreated.tail (step_of_moves (.checked 4))
  have hasked := hchecked.tail (step_of_moves (.asked (.ok ⟨true, none⟩) nofun))
  have hlisted := hasked.tail (step_of_moves (.listed (.ok (some "sandbox-task-0a1b-x")) nofun))
  have hread := hlisted.tail (step_of_moves (.read (.ok (some "1")) nofun))
  have hdeleted := hread.tail (step_of_moves (.deleted (.error (.os "timed out")) (by
    rintro e he
    cases he
    simp [Raised.IsCaught])))
  exact slotsSafe (hdeleted.tail (@Step.finished Unit _ oneSlot _ _ () "0a1b" (.printed "1") rfl 8))

end CiInfra.AgentSandbox

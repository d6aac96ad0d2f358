import CiInfra.Zombies.Deletions
import Mathlib.Algebra.Order.Field.Basic
import Mathlib.Algebra.Order.Ring.Rat

/-!
# The two passes

A listing and the look before a deletion feed the same classifier. The listing counts a runner as
busy that a job pod names, and a job pod as protected whose runner pod lives; the look reads the
EphemeralRunner only. This file compares what the two passes come to on one namespace.
-/

namespace CiInfra.Zombies

open Interaction Fallible

/-! ### What the classifier deletes -/

/-- The hard cap is what decides on the pod. -/
def Pod.isHeld (p : Pod) (phase : Option String) (liveness : RunnerLiveness) : Bool :=
  if p.isEphemeralRunnerPod then liveness.runnerBusy && !isTerminal phase
  else p.runnerPod.isSome && liveness.anchorPresent

/-- What is held is deleted past the hard cap, and anything else by its age. -/
theorem isDelete_classifyPod {cfg : Config} {pod : Pod} {phase : Option String} {age : ℚ}
    {liveness : RunnerLiveness} (hread : liveness.readFailed = false) :
    (classifyPod cfg pod phase age liveness).isDelete = true ↔
      if pod.isHeld phase liveness then cfg.busyMaxHours < age
      else (ageOverThreshold cfg phase age).isSome = true := by
  have hage : (ageDecision cfg phase age).isDelete = true ↔
      (ageOverThreshold cfg phase age).isSome = true := by
    unfold ageDecision
    split <;> simp_all [Decision.isDelete]
  have hcap : ∀ d : Decision, d.isDelete = false →
      ((if cfg.busyMaxHours < age then Decision.hardCapDelete else d).isDelete = true ↔
        cfg.busyMaxHours < age) := by
    intro d hd
    split <;> simp_all [Decision.isDelete]
  unfold classifyPod Pod.isHeld
  simp only [hread, Bool.false_eq_true, if_false]
  split
  · split
    · exact hcap _ rfl
    · exact hage
  · split
    · rename_i hlabel
      simp only [hlabel, Bool.true_and]
      split
      · exact hcap _ rfl
      · exact hage
    · rename_i hlabel
      simpa [hlabel] using hage

/-- A pod that is over age stays so. -/
theorem ageOverThreshold_mono {cfg : Config} {phase : Option String} {age age' : ℚ}
    (hage : age ≤ age') (h : (ageOverThreshold cfg phase age).isSome = true) :
    (ageOverThreshold cfg phase age').isSome = true := by
  unfold ageOverThreshold at h ⊢
  split at h
  · rename_i hpending
    rw [if_pos ⟨hpending.1, lt_of_lt_of_le hpending.2 hage⟩]
    rfl
  · split at h
    · rename_i hrunning
      split
      · rfl
      · rw [if_pos ⟨hrunning.1, lt_of_lt_of_le hrunning.2 hage⟩]
        rfl
    · cases h

/-! ### What the look reads -/

/-- The job of a runner, empty if it has none or is not there. -/
def Cluster.jobIdOf (c : Cluster) (name : String) : String :=
  ((c.runner name).bind (·.jobId)).getD ""

/-- The liveness of a pod as the look before its deletion reads it. -/
def Cluster.readLiveness (c : Cluster) (p : Pod) : RunnerLiveness :=
  if p.isEphemeralRunnerPod then { runnerBusy := c.jobIdOf p.name != "" }
  else
    match p.runnerPod with
    | some label => { anchorPresent := (c.runner label).isSome }
    | none => {}

theorem readFailed_readLiveness (c : Cluster) (p : Pod) :
    (c.readLiveness p).readFailed = false := by
  unfold Cluster.readLiveness
  split
  · rfl
  · split <;> rfl

theorem result_findZombiePods (cfg : Config) (now : ℚ) (c : Cluster) :
    (findZombiePods cfg).result (serve now) c =
      (.ok (c.pods.filter (isZombie cfg now (busyStateOf c.pods (.ok c.runners))), c.pods.length),
        c) := rfl

theorem result_getEphemeralRunner (now : ℚ) (name : String) (c : Cluster) :
    (getEphemeralRunner name).result (serve now) c =
      (.ok ⟨(c.runner name).isSome, c.jobIdOf name, false⟩, c) := by
  change Program.run (serve now) (.call (.getRunner name) _) c = _
  cases hrunner : c.runner name with
  | none =>
    have hserve : serve now (.getRunner name) c = (.error (.api 404), c) := by
      simp [serve, hrunner]
    rw [Program.run, hserve, Cluster.jobIdOf, hrunner]
    rfl
  | some er =>
    have hserve : serve now (.getRunner name) c = (.ok er, c) := by simp [serve, hrunner]
    rw [Program.run, hserve, Cluster.jobIdOf, hrunner]
    rfl

theorem result_recheckLiveness (now : ℚ) (pod : Pod) (c : Cluster) :
    (recheckLiveness pod).result (serve now) c = (.ok (c.readLiveness pod), c) := by
  unfold recheckLiveness Cluster.readLiveness
  split
  · rw [result_bind (result_getEphemeralRunner now _ c), result_pure]
    cases hrunner : c.runner pod.name <;> simp [Cluster.jobIdOf, hrunner]
  · cases pod.runnerPod with
    | none => exact result_pure _ _ _
    | some label =>
      dsimp only
      rw [result_bind (result_getEphemeralRunner now _ c), result_pure]
      rfl

/-! ### What the listing resolves -/

/-- No two runners share a name, so the order of the listing does not matter. -/
theorem lookup_jobIdsOf {runners : List Runner} (h : (runners.map (·.name)).Nodup) (name : String) :
    (jobIdsOf runners).reverse.lookup name =
      (runners.find? fun r => r.name = name).map fun r => r.jobId.getD "" := by
  induction runners with
  | nil => rfl
  | cons er rest ih =>
    obtain ⟨hnotMem, hrest⟩ := List.nodup_cons.mp h
    have hsplit : (jobIdsOf (er :: rest)).reverse =
        (jobIdsOf rest).reverse ++ [(er.name, er.jobId.getD "")] := by simp [jobIdsOf]
    rw [hsplit, List.lookup_append, ih hrest]
    by_cases hname : er.name = name
    · have hnone : rest.find? (fun r => r.name = name) = none := by
        rw [List.find?_eq_none]
        rintro other hother hsame
        exact hnotMem (List.mem_map.mpr ⟨other, hother, (of_decide_eq_true hsame).trans hname.symm⟩)
      simp [hnone, hname]
    · have hne : (name == er.name) = false := by simpa using Ne.symm hname
      simp [hname, List.lookup_cons, hne]

theorem jobIdOf_busyStateOf (c : Cluster) (name : String) :
    (busyStateOf c.pods (.ok c.runners)).jobIdOf name = c.jobIdOf name := by
  change ((jobIdsOf c.runners).reverse.lookup name).getD "" = _
  rw [lookup_jobIdsOf c.runnerNames, Cluster.jobIdOf, Cluster.runner]
  cases c.runners.find? fun r => r.name = name <;> rfl

/-- What the listing has that the look has not: a runner that a job pod names is busy. -/
theorem livenessFor_of_runner (c : Cluster) {pod : Pod}
    (hrunner : pod.isEphemeralRunnerPod = true) :
    (busyStateOf c.pods (.ok c.runners)).livenessFor pod =
      { runnerBusy := c.jobIdOf pod.name != "" || (busyByWorkflow c.pods).contains pod.name } := by
  rw [BusyState.livenessFor, if_pos hrunner, BusyState.isRunnerBusy, jobIdOf_busyStateOf]
  rfl

theorem livenessFor_of_label (c : Cluster) {pod : Pod} {label : String}
    (hrunner : pod.isEphemeralRunnerPod = false) (hlabel : pod.runnerPod = some label) :
    (busyStateOf c.pods (.ok c.runners)).livenessFor pod =
      { anchorPresent := (liveRunnerNames c.pods).contains label } := by
  rw [BusyState.livenessFor, hrunner, hlabel]
  rfl

/-! ### The drift -/

/-- The phase that the look goes by. -/
def Pod.recheckPhase (p : Pod) : Option String :=
  if (p.phase.getD "") = "" then some "Unknown" else p.phase

/-- The look before the deletion confirms it. -/
def Confirms (cfg : Config) (c : Cluster) (now : ℚ) (pod : Pod) : Prop :=
  ∃ liveness, ((recheckLiveness pod).result (serve now) c).1 = .ok liveness ∧
    (recheckDecision cfg now pod liveness).isDelete = true

/-- What the two passes resolve differently: a runner without a job that a job pod names, a job pod
whose runner pod has ended but whose EphemeralRunner is there, and a job pod whose runner pod lives
without its EphemeralRunner; each as far as its age does not lead to the deletion anyway. -/
def Drifts (cfg : Config) (c : Cluster) (now : ℚ) (pod : Pod) : Prop :=
  if pod.isEphemeralRunnerPod then
    c.jobIdOf pod.name = "" ∧ pod.name ∈ busyByWorkflow c.pods ∧
      ageOverThreshold cfg pod.recheckPhase (pod.ageHours now) = none
  else ∃ label, pod.runnerPod = some label ∧
    if (c.runner label).isSome then
      label ∉ liveRunnerNames c.pods ∧ pod.ageHours now ≤ cfg.busyMaxHours
    else label ∈ liveRunnerNames c.pods ∧
      ageOverThreshold cfg pod.recheckPhase (pod.ageHours now) = none

section Selected

variable {cfg : Config} {c : Cluster} {now now' : ℚ} {pod : Pod}

theorem confirms_iff_isHeld : Confirms cfg c now pod ↔
    if pod.isHeld pod.recheckPhase (c.readLiveness pod) then cfg.busyMaxHours < pod.ageHours now
    else (ageOverThreshold cfg pod.recheckPhase (pod.ageHours now)).isSome = true := by
  rw [← isDelete_classifyPod (readFailed_readLiveness c pod), Confirms, result_recheckLiveness]
  constructor
  · rintro ⟨liveness, hliveness, hdelete⟩
    cases hliveness
    exact hdelete
  · exact fun hdelete => ⟨_, rfl, hdelete⟩

theorem ageHours_mono (hnow : now ≤ now') (hage : 0 ≤ pod.ageHours now) :
    pod.ageHours now ≤ pod.ageHours now' := by
  unfold Pod.ageHours at hage ⊢
  split at hage
  · exact absurd hage (by decide)
  · exact div_le_div_of_nonneg_right (sub_le_sub_right hnow _) (by decide)

/-- A pod that is over age for its phase has one. -/
theorem recheckPhase_of_isSome {age : ℚ} (h : (ageOverThreshold cfg pod.phase age).isSome = true) :
    pod.recheckPhase = pod.phase := by
  unfold Pod.recheckPhase
  rw [if_neg]
  intro hphase
  unfold ageOverThreshold at h
  split at h
  · rename_i hpending
    simp [hpending.1] at hphase
  · split at h
    · rename_i hrunning
      rcases hrunning.1 with hphase' | hphase' <;> simp [hphase'] at hphase
    · cases h

theorem isTerminal_of_isSome {phase : Option String} {age : ℚ}
    (h : (ageOverThreshold cfg phase age).isSome = true) : isTerminal phase = false := by
  unfold ageOverThreshold at h
  split at h
  · rename_i hpending
    rw [hpending.1]
    rfl
  · split at h
    · rename_i hrunning
      rcases hrunning.1 with hphase | hphase <;> rw [hphase] <;> rfl
    · cases h

theorem isTerminal_recheckPhase : isTerminal pod.recheckPhase = isTerminal pod.phase := by
  unfold Pod.recheckPhase
  split
  · rename_i hphase
    cases hp : pod.phase with
    | none => rfl
    | some phase =>
      rw [hp, Option.getD_some] at hphase
      subst hphase
      rfl
  · rfl

/-- What the listing selected by its age, the look finds over age. -/
theorem ageOver_later (hnow : now ≤ now') (hage : 0 ≤ pod.ageHours now)
    (h : (ageOverThreshold cfg pod.phase (pod.ageHours now)).isSome = true) :
    (ageOverThreshold cfg pod.recheckPhase (pod.ageHours now')).isSome = true := by
  rw [recheckPhase_of_isSome h]
  exact ageOverThreshold_mono (ageHours_mono hnow hage) h

/-- The listing selects what is held only past the hard cap, and anything else by its age. -/
theorem selected_iff_isHeld
    (hread : ((busyStateOf c.pods (.ok c.runners)).livenessFor pod).readFailed = false)
    (h : isZombie cfg now (busyStateOf c.pods (.ok c.runners)) pod = true) :
    0 ≤ pod.ageHours now ∧
      if pod.isHeld pod.phase ((busyStateOf c.pods (.ok c.runners)).livenessFor pod) then
        cfg.busyMaxHours < pod.ageHours now
      else (ageOverThreshold cfg pod.phase (pod.ageHours now)).isSome = true := by
  simp only [isZombie, Bool.and_eq_true, decide_eq_true_eq] at h
  exact ⟨h.1.2, (isDelete_classifyPod hread).mp h.2⟩

/-- A runner that was selected is confirmed, unless the passes drift. -/
theorem confirms_iff_of_runner (hnow : now ≤ now') (hrunner : pod.isEphemeralRunnerPod = true)
    (h : isZombie cfg now (busyStateOf c.pods (.ok c.runners)) pod = true) :
    Confirms cfg c now' pod ↔ ¬ Drifts cfg c now' pod := by
  have hliveness := livenessFor_of_runner c hrunner
  obtain ⟨hage, hselected⟩ := selected_iff_isHeld (by rw [hliveness]) h
  rw [confirms_iff_isHeld, Drifts, if_pos hrunner]
  simp only [hliveness, Pod.isHeld, Cluster.readLiveness, hrunner, if_true,
    isTerminal_recheckPhase] at hselected ⊢
  by_cases hjob : c.jobIdOf pod.name = ""
  · by_cases hpinned : pod.name ∈ busyByWorkflow c.pods
    · simp [hjob, hpinned, Option.isSome_iff_ne_none]
    · have hover := ageOver_later hnow hage (by simpa [hjob, hpinned] using hselected)
      simp [hjob, hpinned, hover]
  · cases hterminal : isTerminal pod.phase with
    | true =>
      have hphase := isTerminal_of_isSome (by simpa [hterminal] using hselected)
      rw [hphase] at hterminal
      cases hterminal
    | false =>
      have hcap : cfg.busyMaxHours < pod.ageHours now := by simpa [hjob, hterminal] using hselected
      simp [hjob, lt_of_lt_of_le hcap (ageHours_mono hnow hage)]

/-- A job pod that was selected is confirmed, unless the passes drift. -/
theorem confirms_iff_of_label {label : String} (hnow : now ≤ now')
    (hrunner : pod.isEphemeralRunnerPod = false) (hlabel : pod.runnerPod = some label)
    (h : isZombie cfg now (busyStateOf c.pods (.ok c.runners)) pod = true) :
    Confirms cfg c now' pod ↔ ¬ Drifts cfg c now' pod := by
  have hliveness := livenessFor_of_label c hrunner hlabel
  obtain ⟨hage, hselected⟩ := selected_iff_isHeld (by rw [hliveness]) h
  rw [confirms_iff_isHeld, Drifts]
  simp only [hliveness, Pod.isHeld, Cluster.readLiveness, hrunner, hlabel, Bool.false_eq_true,
    if_false, Option.isSome_some, Bool.true_and, Option.some.injEq, exists_eq_left']
    at hselected ⊢
  by_cases hlive : label ∈ liveRunnerNames c.pods
  · have hcap : cfg.busyMaxHours < pod.ageHours now := by simpa [hlive] using hselected
    have hcap' := lt_of_lt_of_le hcap (ageHours_mono hnow hage)
    cases hfound : (c.runner label).isSome with
    | true => simp [hlive, hcap']
    | false => simp [hlive, Option.isSome_iff_ne_none]
  · have hover := ageOver_later hnow hage (by simpa [hlive] using hselected)
    cases hfound : (c.runner label).isSome with
    | true => simp [hlive]
    | false => simp [hlive, hover]

/-- Of what the listing selects, the look confirms what the two passes do not drift on. -/
theorem confirms_iff (cfg : Config) (c : Cluster) (hnow : now ≤ now') {found : List Pod × ℕ}
    (hfound : ((findZombiePods cfg).result (serve now) c).1 = .ok found) :
    ∀ pod ∈ found.1, Confirms cfg c now' pod ↔ ¬ Drifts cfg c now' pod := by
  rw [result_findZombiePods] at hfound
  cases hfound
  intro pod hpod
  have hzombie := List.of_mem_filter hpod
  cases hrunner : pod.isEphemeralRunnerPod with
  | true => exact confirms_iff_of_runner hnow hrunner hzombie
  | false =>
    cases hlabel : pod.runnerPod with
    | some label => exact confirms_iff_of_label hnow hrunner hlabel hzombie
    | none =>
      have hread : ((busyStateOf c.pods (.ok c.runners)).livenessFor pod).readFailed = false := by
        simp [BusyState.livenessFor, hrunner, hlabel]
      obtain ⟨hage, hselected⟩ := selected_iff_isHeld hread hzombie
      have hheld : ∀ phase liveness, pod.isHeld phase liveness = false := by
        simp [Pod.isHeld, hrunner, hlabel]
      rw [hheld, if_neg (by simp)] at hselected
      rw [confirms_iff_isHeld, hheld, if_neg (by simp)]
      simp [Drifts, hrunner, hlabel, ageOver_later hnow hage hselected]

end Selected

/-- A runner pod that has ended while its EphemeralRunner is still there, with the job pod that it
has left behind. -/
def ended : Cluster where
  pods := [
    ⟨"done", ["EphemeralRunner"], none, some "Succeeded", some 252000, false⟩,
    ⟨"done-workflow", [], some "done", some "Running", some 252000, false⟩]
  runners := [⟨"done", none⟩]
  podNames := by decide
  runnerNames := by decide

/-- The listing does not count a runner pod that has ended, but the look finds its
EphemeralRunner. -/
theorem drifts_ended : ¬ ∀ (cfg : Config) (c : Cluster) (now now' : ℚ) (found : List Pod × ℕ),
    validateConfig cfg = none → now ≤ now' →
    ((findZombiePods cfg).result (serve now) c).1 = .ok found →
      ∀ pod ∈ found.1, Confirms cfg c now' pod := by
  intro h
  obtain ⟨liveness, hliveness, hdelete⟩ := h thresholds ended 360000 360000 _
    (by decide) (by decide)
    rfl ⟨"done-workflow", [], some "done", some "Running", some 252000, false⟩ (by decide +kernel)
  cases hliveness
  revert hdelete
  decide +kernel

theorem confirms_iff_leftBehind : Confirms thresholds leftBehind 360060
    ⟨"idle", ["EphemeralRunner"], none, some "Running", some 252000, false⟩ ↔
      ¬ Drifts thresholds leftBehind 360060
        ⟨"idle", ["EphemeralRunner"], none, some "Running", some 252000, false⟩ :=
  confirms_iff thresholds leftBehind (show (360000 : ℚ) ≤ 360060 by decide) rfl _
    (by decide +kernel)

end CiInfra.Zombies

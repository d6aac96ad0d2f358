import CiInfra.Zombies.Rechecks

/-!
# Decisions on what is there

The look before a deletion reads the runner of the pod. It keeps to the phase of the listing, and
it does not read which job pods name the runner by then. So a deletion follows from what is there
only as far as these have not changed.
-/

namespace CiInfra.Zombies

open Interaction

/-- The liveness of a pod as it is: its runner has a job, or a job pod names it. -/
def Cluster.livenessOf (c : Cluster) (p : Pod) : RunnerLiveness :=
  { c.readLiveness p with
    runnerBusy := (c.readLiveness p).runnerBusy ||
      p.isEphemeralRunnerPod && (busyByWorkflow c.pods).contains p.name }

/-- The namespace as the latest call has left it, which is when the look is taken. -/
def lookedAt (past : List Occurrence) : Option Cluster :=
  (past.find? (·.call.isSome)).map (·.after)

/-- The time that the ages of the selected pods are taken at. -/
def loopTime (past : List Occurrence) : Option ℚ :=
  match traceOf () past with
  | _ :: _ :: _ :: ⟨.now, now⟩ :: _ => some now
  | _ => none

/-- The pods of the listing. -/
def listed (past : List Occurrence) : List Pod :=
  match traceOf () past with
  | _ :: ⟨.listPods, .ok pods⟩ :: _ => pods
  | _ => []

/-- The name of the pod that a call deletes. -/
def deletedName (e : Occurrence) : Option String :=
  match e.call with
  | some ((), ⟨.deletePod name, _⟩) => some name
  | _ => none

/-- Every pod that is deleted is classified for deletion as it is at the look. -/
def DecidesFresh (cfg : Config) (es : List Occurrence) : Prop :=
  ∀ later e earlier name, es = later ++ e :: earlier → deletedName e = some name →
    ∃ c now, lookedAt earlier = some c ∧ loopTime earlier = some now ∧
      ∀ pod ∈ c.pods, pod.name = name →
        (recheckDecision cfg now pod (c.livenessOf pod)).isDelete = true

/-! ### What may change -/

/-- The pod is the one that was listed, apart from its phase. -/
def Pod.IsSame (p q : Pod) : Prop :=
  p.name = q.name ∧ p.ownerKinds = q.ownerKinds ∧ p.runnerPod = q.runnerPod ∧
    p.createdAt = q.createdAt

instance (p q : Pod) : Decidable (p.IsSame q) := inferInstanceAs (Decidable (_ ∧ _ ∧ _ ∧ _))

/-- Nothing that the look does not read keeps the pod: no job pod names the runner, unless it is
past the hard cap or has ended; and the phase is the one that was listed, or it does not matter, or
the pod is over age for it too. -/
def IsStillOver (cfg : Config) (c : Cluster) (now : ℚ) (listed pod : Pod) : Prop :=
  (pod.isEphemeralRunnerPod = true → isTerminal pod.phase = false →
    pod.name ∈ busyByWorkflow c.pods → cfg.busyMaxHours < pod.ageHours now) ∧
  (pod.phase = listed.phase ∨ pod.isHeld pod.phase (c.livenessOf pod) = true ∨
    (ageOverThreshold cfg pod.recheckPhase (pod.ageHours now)).isSome = true)

section Same

variable {cfg : Config} {c : Cluster} {now now' : ℚ} {p q : Pod}

theorem Pod.IsSame.isEphemeralRunnerPod_eq (h : p.IsSame q) :
    p.isEphemeralRunnerPod = q.isEphemeralRunnerPod := by
  rw [Pod.isEphemeralRunnerPod, Pod.isEphemeralRunnerPod, h.2.1]

theorem Pod.IsSame.isHeld_eq (h : p.IsSame q) (phase : Option String) (l : RunnerLiveness) :
    p.isHeld phase l = q.isHeld phase l := by
  rw [Pod.isHeld, Pod.isHeld, h.isEphemeralRunnerPod_eq, h.2.2.1]

theorem Pod.IsSame.ageHours_eq (h : p.IsSame q) : p.ageHours now = q.ageHours now := by
  simp only [Pod.ageHours, h.2.2.2]

theorem Pod.IsSame.readLiveness_eq (h : p.IsSame q) : c.readLiveness p = c.readLiveness q := by
  rw [Cluster.readLiveness, Cluster.readLiveness, h.isEphemeralRunnerPod_eq, h.1, h.2.2.1]

theorem isHeld_recheckPhase (l : RunnerLiveness) :
    p.isHeld p.recheckPhase l = p.isHeld p.phase l := by
  simp only [Pod.isHeld, isTerminal_recheckPhase]

/-- What the look reads is part of what is there. -/
theorem isHeld_livenessOf : p.isHeld p.phase (c.livenessOf p) =
    (p.isHeld p.phase (c.readLiveness p) || p.isEphemeralRunnerPod && !isTerminal p.phase &&
      (busyByWorkflow c.pods).contains p.name) := by
  unfold Pod.isHeld Cluster.livenessOf
  cases p.isEphemeralRunnerPod <;> cases isTerminal p.phase <;> simp

theorem recheckDecision_isDelete {liveness : RunnerLiveness} (hread : liveness.readFailed = false) :
    (recheckDecision cfg now p liveness).isDelete = true ↔
      if p.isHeld p.phase liveness then cfg.busyMaxHours < p.ageHours now
      else (ageOverThreshold cfg p.recheckPhase (p.ageHours now)).isSome = true := by
  rw [← isHeld_recheckPhase]
  exact isDelete_classifyPod hread

/-- A pod whose deletion the look confirms is deleted as it is, if it is still over. -/
theorem isDelete_iff_isStillOver (hsame : p.IsSame q)
    (hphase : q.isEphemeralRunnerPod = true → isTerminal q.phase = false)
    (hread : (recheckDecision cfg now q (c.readLiveness q)).isDelete = true) :
    (recheckDecision cfg now p (c.livenessOf p)).isDelete = true ↔ IsStillOver cfg c now q p := by
  rw [recheckDecision_isDelete (readFailed_readLiveness c q), ← hsame.readLiveness_eq,
    ← hsame.isHeld_eq, ← hsame.ageHours_eq] at hread
  rw [← hsame.isEphemeralRunnerPod_eq] at hphase
  rw [recheckDecision_isDelete
    (show (c.livenessOf p).readFailed = false from readFailed_readLiveness c p)]
  constructor
  · refine fun hfresh => ⟨fun hrunner hterminal hpinned => ?_, ?_⟩
    · rwa [if_pos] at hfresh
      simp [isHeld_livenessOf, hrunner, hterminal, hpinned]
    · by_cases hheld : p.isHeld p.phase (c.livenessOf p) = true
      · exact Or.inr (Or.inl hheld)
      · rw [if_neg hheld] at hfresh
        exact Or.inr (Or.inr hfresh)
  · rintro ⟨hpinned, hover⟩
    split
    · rename_i hheld
      rw [isHeld_livenessOf, Bool.or_eq_true] at hheld
      rcases hheld with hheld | hheld
      · rwa [if_pos] at hread
        -- The phase that was listed is not terminal, so the runner was held then too.
        unfold Pod.isHeld at hheld ⊢
        by_cases hrunner : p.isEphemeralRunnerPod = true
        · rw [if_pos hrunner, Bool.and_eq_true] at hheld
          rw [if_pos hrunner, hheld.1, hphase hrunner]
          rfl
        · rwa [if_neg hrunner] at hheld ⊢
      · simp only [Bool.and_eq_true, Bool.not_eq_true', List.contains_iff_mem] at hheld
        exact hpinned hheld.1.1 hheld.1.2 hheld.2
    · rename_i hheld
      rcases hover with hlisted | hheld' | hover
      · rw [isHeld_livenessOf, Bool.or_eq_true, not_or] at hheld
        rw [← hlisted, if_neg hheld.1] at hread
        rwa [Pod.recheckPhase, hlisted]
      · exact (hheld hheld').elim
      · exact hover

theorem readFailed_of_isDelete {liveness : RunnerLiveness} (hanchor : p.anchor.isSome = true)
    (h : (recheckDecision cfg now p liveness).isDelete = true) : liveness.readFailed = false := by
  by_contra hread
  rw [Bool.not_eq_false] at hread
  unfold recheckDecision classifyPod at h
  rw [hread] at h
  split at h
  · cases h
  · rename_i hrunner
    rw [Pod.anchor, if_neg hrunner] at hanchor
    rw [if_pos hanchor] at h
    cases h

/-- A runner that was selected had not ended. -/
theorem not_isTerminal_of_isZombie {state : BusyState} (h : isZombie cfg now state p = true)
    (hrunner : p.isEphemeralRunnerPod = true) : isTerminal p.phase = false := by
  simp only [isZombie, Bool.and_eq_true, decide_eq_true_eq] at h
  have hdelete := (isDelete_classifyPod ((classifyPod_isDelete h.2).2 hrunner)).mp h.2
  split at hdelete
  · rename_i hheld
    unfold Pod.isHeld at hheld
    rw [if_pos hrunner, Bool.and_eq_true, Bool.not_eq_true'] at hheld
    exact hheld.2
  · exact isTerminal_of_isSome hdelete

end Same

/-! ### At a deletion -/

/-- The pods under the name that is deleted are the one that was listed, apart from its phase. -/
def FindsSame (past : List Occurrence) (e : Occurrence) : Prop :=
  ∀ name ∈ deletedName e, ∀ c ∈ lookedAt past, ∀ pod ∈ c.pods, pod.name = name →
    ∀ q ∈ listed past, q.name = name → pod.IsSame q

/-- The pods under the name that is deleted are still over age by what is there. -/
def FindsStillOver (cfg : Config) (past : List Occurrence) (e : Occurrence) : Prop :=
  ∀ name ∈ deletedName e, ∀ c ∈ lookedAt past, ∀ now ∈ loopTime past, ∀ pod ∈ c.pods,
    pod.name = name → ∀ q ∈ listed past, q.name = name → IsStillOver cfg c now q pod

instance (past : List Occurrence) (e : Occurrence) : Decidable (FindsSame past e) :=
  inferInstanceAs (Decidable (∀ name ∈ deletedName e, _))

section Runs

variable {cfg : Config} {env : Cluster → Cluster → Prop} {c : Cluster}
  {T : System Unit Op Op.Res Unit Cluster} {later earlier es : List Occurrence} {e : Occurrence}

theorem call_of_deletedName {name : String} (h : deletedName e = some name) :
    ∃ r, e.call = some ((), ⟨.deletePod name, r⟩) := by
  unfold deletedName at h
  split at h
  · rename_i r hcall
    cases h
    exact ⟨r, hcall⟩
  · cases h

/-- The latest call of the run is the latest call. -/
theorem find?_call {call : Event} {rest : List Event}
    (h : es.filterMap (Happening.callOf ()) = call :: rest) :
    ∃ d ∈ es, d.call = some ((), call) ∧ lookedAt es = some d.after := by
  induction es with
  | nil => cases h
  | cons d past ih =>
    cases hcall : d.call with
    | none =>
      rw [List.filterMap_cons_none (by simp [Happening.callOf, hcall])] at h
      obtain ⟨d', hd', hcall', hlooked⟩ := ih h
      refine ⟨d', List.mem_cons_of_mem _ hd', hcall', ?_⟩
      rwa [lookedAt, List.find?_cons_of_neg (by simp [hcall])]
    | some call' =>
      obtain ⟨⟨⟩, call'⟩ := call'
      rw [List.filterMap_cons_some (by simp [Happening.callOf, hcall]; rfl)] at h
      cases h
      exact ⟨d, List.mem_cons_self, hcall, by simp [lookedAt, hcall]⟩

/-- An answer on a runner that was read shows what is there. -/
theorem lookupOf_of_answers {name : String} {c' : Cluster} {r : Except Failure Runner}
    (h : (Op.getRunner name).Answers c r c') (hread : (lookupOf r).readFailed = false) :
    lookupOf r = ⟨(c'.runner name).isSome, c'.jobIdOf name, false⟩ := by
  obtain ⟨rfl, hfound, hgone⟩ := h
  rw [Cluster.jobIdOf]
  unfold lookupOf at hread
  split at hread
  · rw [hfound _ rfl]
    rfl
  · rw [hgone rfl]
    rfl
  · cases hread

/-- What a look that leads to a deletion has read. -/
theorem liveness_of_rechecked {S : System Unit Op Op.Res Unit Cluster}
    (h : History Op.Answers env S es T) {q : Pod} {liveness : RunnerLiveness} {now : ℚ}
    {call : Event} {rest : List Event}
    (hcalls : es.filterMap (Happening.callOf ()) = call :: rest)
    (hrecheck : Rechecked q liveness (es.filterMap (Happening.callOf ())))
    (hdelete : (recheckDecision cfg now q liveness).isDelete = true) :
    ∃ c, lookedAt es = some c ∧ liveness = c.readLiveness q := by
  obtain ⟨d, hd, hcall, hlooked⟩ := find?_call hcalls
  refine ⟨d.after, hlooked, ?_⟩
  unfold Rechecked at hrecheck
  split at hrecheck
  · rename_i name hanchor
    obtain ⟨r, hlast, rfl⟩ := hrecheck
    rw [hcalls] at hlast
    cases hlast
    have hread := readFailed_of_isDelete (by simp [hanchor]) hdelete
    have hread' : (lookupOf r).readFailed = false := by
      by_contra hfailed
      rw [Pod.livenessFrom, if_pos (by simpa using hfailed)] at hread
      cases hread
    rw [lookupOf_of_answers (h.served hd hcall) hread', Pod.livenessFrom, Cluster.readLiveness]
    unfold Pod.anchor at hanchor
    split at hanchor
    · cases hanchor
      cases hrunner : d.after.runner q.name <;> simp_all [Cluster.jobIdOf]
    · simp_all
  · rename_i hanchor
    rw [hrecheck, Cluster.readLiveness]
    unfold Pod.anchor at hanchor
    split at hanchor
    · cases hanchor
    · simp_all

/-- The trace of a run that was answered, up to the loop. -/
theorem traceOf_of_suffix {now now' : ℚ} {pods : List Pod}
    {runners : Except Failure (List Runner)}
    (h : findAnswers now pods runners now' <:+ es.filterMap (Happening.callOf ())) :
    loopTime es = some now' ∧ listed es = pods := by
  obtain ⟨rest, hrest⟩ := List.reverse_prefix.mpr h
  have htrace : traceOf () es = ⟨.now, now⟩ :: ⟨.listPods, .ok pods⟩ :: ⟨.listRunners, runners⟩ ::
      ⟨.now, now'⟩ :: rest := hrest.symm
  rw [loopTime, listed, htrace]
  exact ⟨rfl, rfl⟩

/-- Before a deletion there was a look at a pod of the listing that confirmed it. -/
theorem looked_of_deletedName
    (h : History Op.Answers env (beforeRun cfg c) (later ++ e :: earlier) T) {name : String}
    (hname : deletedName e = some name) : ∃ c now q, lookedAt earlier = some c ∧
      loopTime earlier = some now ∧ (∀ q' ∈ listed earlier, q'.name = name ↔ q' = q) ∧
      q ∈ listed earlier ∧ (q.isEphemeralRunnerPod = true → isTerminal q.phase = false) ∧
      (recheckDecision cfg now q (c.readLiveness q)).isDelete = true := by
  obtain ⟨r, hcall⟩ := call_of_deletedName hname
  obtain ⟨-, -, now, pods, runners, now', q, liveness, hanswers, hq, rfl, hzombie, hrecheck,
    hdelete, -⟩ := justifies_of_deletePod h hcall
  obtain ⟨htime, hlisted⟩ := traceOf_of_suffix hanswers
  obtain ⟨U, hU⟩ := h.earlier
  obtain ⟨V, hV, -, -⟩ := hU.tail
  obtain ⟨call, rest, hcalls⟩ : ∃ call rest,
      earlier.filterMap (Happening.callOf ()) = call :: rest := by
    obtain ⟨before, hbefore⟩ := hanswers
    cases before with
    | nil => exact ⟨_, _, hbefore.symm⟩
    | cons call rest => exact ⟨_, _, hbefore.symm⟩
  obtain ⟨c', hlooked, rfl⟩ := liveness_of_rechecked hV hcalls hrecheck hdelete
  have hnames : (pods.map (·.name)).Nodup := by
    have hmem : (⟨.listPods, .ok pods⟩ : Event) ∈ traceOf () earlier :=
      List.mem_reverse.mpr (hanswers.subset (by simp))
    obtain ⟨d, hd, hdcall⟩ := History.mem_traceOf.mp hmem
    obtain ⟨-, hshown⟩ := hV.served hd hdcall
    rw [hshown pods rfl]
    exact d.before.podNames
  refine ⟨c', now', q, hlooked, htime, fun q' hq' => ?_, hlisted ▸ hq,
    fun hrunner => not_isTerminal_of_isZombie hzombie hrunner, hdelete⟩
  rw [hlisted] at hq'
  exact ⟨fun hsame => List.inj_on_of_nodup_map hnames hq' hq hsame, fun hsame => hsame ▸ rfl⟩

/-- A run whose pods stay the listed ones, apart from their phases, decides on what is there exactly
if each pod is still over age when it is deleted. -/
theorem decidesFresh_iff (h : History Op.Answers env (beforeRun cfg c) es T)
    (hsame : Throughout FindsSame es) :
    DecidesFresh cfg es ↔ Throughout (FindsStillOver cfg) es := by
  constructor
  · intro hfresh
    refine .intro fun later e earlier hsplit name hname c' hlooked now htime pod hpod hpodName q hq
      hqName => ?_
    subst hsplit
    obtain ⟨x, t, q', hx, ht, hunique, -, hphase, hdelete⟩ := looked_of_deletedName h hname
    obtain ⟨y, u, hy, hu, hdecision⟩ := hfresh later e earlier name rfl hname
    obtain rfl : c' = x := Option.some.inj (hlooked.symm.trans hx)
    obtain rfl : c' = y := Option.some.inj (hlooked.symm.trans hy)
    obtain rfl : now = t := Option.some.inj (htime.symm.trans ht)
    obtain rfl : now = u := Option.some.inj (htime.symm.trans hu)
    obtain rfl := (hunique q hq).mp hqName
    exact (isDelete_iff_isStillOver (hsame.at name hname c' hlooked pod hpod hpodName q hq hqName)
      hphase hdelete).mp (hdecision pod hpod hpodName)
  · intro hover later e earlier name hsplit hname
    subst hsplit
    obtain ⟨c', now, q, hlooked, htime, hunique, hq, hphase, hdelete⟩ :=
      looked_of_deletedName h hname
    refine ⟨c', now, hlooked, htime, fun pod hpod hpodName => ?_⟩
    have hqName := (hunique q hq).mpr rfl
    exact (isDelete_iff_isStillOver (hsame.at name hname c' hlooked pod hpod hpodName q hq hqName)
      hphase hdelete).mpr (hover.at name hname c' hlooked now htime pod hpod hpodName q hq hqName)

end Runs

/-! ### A pod that starts late -/

/-- The pod starts. -/
def Cluster.start (c : Cluster) : Cluster where
  pods := c.pods.map fun p => { p with phase := some "Running" }
  runners := c.runners
  podNames := by
    rw [List.map_map]
    exact c.podNames
  runnerNames := c.runnerNames

/-- A step pod that has been pending for thirty hours. -/
def pending : Cluster where
  pods := [⟨"step", [], none, some "Pending", some 252000, false⟩]
  runners := []
  podNames := by decide
  runnerNames := by decide

/-- Pods may be pending for a day and run for two. -/
def patient : Config := ⟨24, 48, 72, false⟩

/-- The pod starts between the listing and the look, and is deleted as it was listed. -/
def startsLate : List (Turn Unit Cluster) :=
  [.call (), .call (), .call (), .env Cluster.start, .call (), .call ()]

theorem not_decidesFresh_startsLate : ¬ ∀ (cfg : Config) (c : Cluster)
    (es : List Occurrence) (T : System Unit Op Op.Res Unit Cluster),
    validateConfig cfg = none → History Op.Answers (fun _ _ => True) (beforeRun cfg c) es T →
      DecidesFresh cfg es := by
  intro h
  have hfresh := h patient pending _ _ (by decide) (History.of_play (answers_serve 360000)
    (beforeRun patient pending) startsLate (by simp))
  obtain ⟨c, now, hlooked, htime, hdecision⟩ := hfresh []
    ⟨some ((), ⟨.deletePod "step", .ok ()⟩), pending.start, pending.start.terminate "step"⟩
    (play (serve 360000) (beforeRun patient pending) startsLate.dropLast).1 "step"
    (by with_unfolding_all rfl) rfl
  obtain rfl : c = pending.start :=
    Option.some.inj (hlooked.symm.trans (by with_unfolding_all rfl))
  obtain rfl : now = 360000 := Option.some.inj (htime.symm.trans (by with_unfolding_all rfl))
  have hdelete := hdecision ⟨"step", [], none, some "Running", some 252000, false⟩ (by decide) rfl
  revert hdelete
  decide +kernel

theorem decidesFresh_leftBehind :
    DecidesFresh thresholds
        (play (serve 360000) (beforeRun thresholds leftBehind) (List.replicate 8 (.call ()))).1 ↔
      Throughout (FindsStillOver thresholds)
        (play (serve 360000) (beforeRun thresholds leftBehind)
          (List.replicate 8 (.call ()))).1 := by
  have hplay : History Op.Answers Eq (beforeRun thresholds leftBehind) _ _ :=
    History.of_play (answers_serve 360000) (beforeRun thresholds leftBehind)
      (List.replicate 8 (.call ())) (by simp)
  exact decidesFresh_iff hplay (by decide +kernel)

end CiInfra.Zombies

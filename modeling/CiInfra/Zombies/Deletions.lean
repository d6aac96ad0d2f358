import CiInfra.Zombies.Cleanup

/-!
# What a run deletes

Each deletion of a run follows from what the run was answered before: the pod was listed and
selected, and the look at its runner right before the deletion leads to a deletion again.
-/

namespace CiInfra.Zombies

open Interaction Fallible

/-- A call with its answer. -/
abbrev Event := Program.Event Op Op.Res

/-! ### What the answers come down to -/

/-- What `gather_busy_state` makes of a listing of the runners. -/
def busyStateOf (pods : List Pod) : Except Failure (List Runner) → BusyState
  | .ok runners => buildBusyState pods (jobIdsOf runners) false
  | .error _ => buildBusyState pods [] true

/-- What `get_ephemeralrunner` makes of its answer. -/
def lookupOf : Except Failure Runner → Lookup
  | .ok er => ⟨true, er.jobId.getD "", false⟩
  | .error (.api 404) => ⟨false, "", false⟩
  | .error _ => ⟨false, "", true⟩

/-- The runner that is looked at before the deletion of a pod. -/
def Pod.anchor (p : Pod) : Option String :=
  if p.isEphemeralRunnerPod then some p.name else p.runnerPod

/-- What `recheck_liveness` makes of what it finds. -/
def Pod.livenessFrom (p : Pod) (er : Lookup) : RunnerLiveness :=
  if er.readFailed then { readFailed := true }
  else if p.isEphemeralRunnerPod then { runnerBusy := er.found && er.jobId != "" }
  else { anchorPresent := er.found }

/-- The liveness is what the latest call shows of the runner of the pod, if it has one. -/
def Rechecked (pod : Pod) (liveness : RunnerLiveness) (past : List Event) : Prop :=
  match pod.anchor with
  | some name => ∃ r, past.head? = some ⟨.getRunner name, r⟩ ∧
      liveness = pod.livenessFrom (lookupOf r)
  | none => liveness = {}

/-- How many deletions have been requested. -/
def deletions (past : List Event) : ℕ :=
  past.countP fun e => match e with
    | ⟨.deletePod _, _⟩ => true
    | _ => false

/-- What was answered before the first look at a selected pod: the time, the pods, the runners and
the time again. -/
abbrev findAnswers (now : ℚ) (pods : List Pod) (runners : Except Failure (List Runner))
    (now' : ℚ) : List Event :=
  [⟨.now, now'⟩, ⟨.listRunners, runners⟩, ⟨.listPods, .ok pods⟩, ⟨.now, now⟩]

/-- The deletion of a pod of this name follows from what was answered before. -/
def Justifies (cfg : Config) (past : List Event) (name : String) : Prop :=
  validateConfig cfg = none ∧ cfg.dryRun = false ∧
    ∃ (now : ℚ) (pods : List Pod) (runners : Except Failure (List Runner)) (now' : ℚ) (pod : Pod)
      (liveness : RunnerLiveness),
      findAnswers now pods runners now' <:+ past ∧ pod ∈ pods ∧ pod.name = name ∧
      isZombie cfg now (busyStateOf pods runners) pod = true ∧ Rechecked pod liveness past ∧
      (recheckDecision cfg now' pod liveness).isDelete = true ∧
      deletions past < cleanupCap pods.length

/-- A call that requests no deletion, or one that is justified. -/
def IsJustified (cfg : Config) (past : List Event) (op : Op) : Prop :=
  ∀ name, op = .deletePod name → Justifies cfg past name

section Programs

variable {cfg : Config} {past : List Event}

theorem heeds_read {α : Type} {op : Op} {answer : op.Res → Except Failure α}
    (hop : ∀ name, op ≠ .deletePod name) :
    (request op answer : Cleaner α).Heeds (IsJustified cfg)
      (fun past' a => ∃ r, past' = ⟨op, r⟩ :: past ∧ answer r = .ok a)
      (fun past' e => ∃ r, past' = ⟨op, r⟩ :: past ∧ answer r = .error e) past :=
  heeds_request (fun name h => (hop name h).elim) (fun r _ h => ⟨r, rfl, h⟩)
    fun r _ h => ⟨r, rfl, h⟩

theorem heeds_gatherBusyState (pods : List Pod) :
    (gatherBusyState pods).Heeds (IsJustified cfg)
      (fun past' state => ∃ runners, past' = ⟨.listRunners, runners⟩ :: past ∧
        state = busyStateOf pods runners) (fun _ _ => False) past := by
  refine Heeds.bind (Q := fun past' (read : List (String × String) × Bool) =>
      ∃ runners, past' = ⟨.listRunners, runners⟩ :: past ∧
        buildBusyState pods read.1 read.2 = busyStateOf pods runners) ?_ ?_
  · refine Heeds.tryCatch (E := fun past' _ => ∃ e, past' = ⟨.listRunners, .error e⟩ :: past)
      (Heeds.bind ((heeds_read (by simp)).mono (fun _ _ h => h) ?_) ?_) ?_
    · rintro past' e ⟨r, rfl, hr⟩
      cases r with
      | ok l => cases hr
      | error e => exact ⟨e, rfl⟩
    · rintro past' runners ⟨r, rfl, hr⟩
      obtain rfl : r = .ok runners := hr
      exact heeds_pure ⟨_, rfl, rfl⟩
    · rintro past' e ⟨e, rfl⟩
      exact heeds_pure ⟨_, rfl, rfl⟩
  · rintro past' read ⟨runners, rfl, hread⟩
    exact heeds_pure ⟨runners, rfl, hread⟩

theorem heeds_getEphemeralRunner (name : String) :
    (getEphemeralRunner name).Heeds (IsJustified cfg)
      (fun past' er => ∃ r, past' = ⟨.getRunner name, r⟩ :: past ∧ er = lookupOf r)
      (fun _ _ => False) past := by
  refine Heeds.tryCatch (E := fun past' e => past' = ⟨.getRunner name, .error e⟩ :: past)
    (Heeds.bind ((heeds_read (by simp)).mono (fun _ _ h => h) ?_) ?_) ?_
  · rintro past' e ⟨r, rfl, hr⟩
    obtain rfl : r = .error e := hr
    rfl
  · rintro past' er ⟨r, rfl, hr⟩
    obtain rfl : r = .ok er := hr
    exact heeds_pure ⟨_, rfl, rfl⟩
  · rintro past' e rfl
    split
    · exact heeds_pure ⟨_, rfl, rfl⟩
    · rename_i hne
      refine heeds_pure ⟨_, rfl, ?_⟩
      unfold lookupOf
      split
      · rename_i h
        cases h
      · rename_i h
        cases h
        exact (hne rfl).elim
      · rfl

@[simp] theorem deletions_getRunner (name : String) (r : Except Failure Runner) :
    deletions (⟨.getRunner name, r⟩ :: past) = deletions past := by simp [deletions]

@[simp] theorem deletions_deletePod (name : String) (r : Except Failure Unit) :
    deletions (⟨.deletePod name, r⟩ :: past) = deletions past + 1 := by simp [deletions]

/-- The look at the runner of a pod is the latest call, and requests no deletion. -/
theorem heeds_recheckLiveness (pod : Pod) :
    (recheckLiveness pod).Heeds (IsJustified cfg)
      (fun past' liveness => Rechecked pod liveness past' ∧ past <:+ past' ∧
        deletions past' = deletions past) (fun _ _ => False) past := by
  have hlook : ∀ name liveness r, pod.anchor = some name →
      liveness = pod.livenessFrom (lookupOf r) →
        Rechecked pod liveness (⟨.getRunner name, r⟩ :: past) ∧
          past <:+ ⟨.getRunner name, r⟩ :: past ∧
          deletions (⟨.getRunner name, r⟩ :: past) = deletions past := by
    intro name liveness r hanchor hliveness
    refine ⟨?_, List.suffix_cons _ _, deletions_getRunner name r⟩
    rw [Rechecked, hanchor]
    exact ⟨r, rfl, hliveness⟩
  unfold recheckLiveness
  split
  · rename_i hrunner
    refine (heeds_getEphemeralRunner _).bind ?_
    rintro past' er ⟨r, rfl, rfl⟩
    exact heeds_pure (hlook _ _ r (by simp [Pod.anchor, hrunner])
      (by simp [Pod.livenessFrom, hrunner]))
  · rename_i hrunner
    split
    · rename_i label hlabel
      refine (heeds_getEphemeralRunner _).bind ?_
      rintro past' er ⟨r, rfl, rfl⟩
      exact heeds_pure (hlook _ _ r (by simp [Pod.anchor, hrunner, hlabel])
        (by simp [Pod.livenessFrom, hrunner]))
    · rename_i hlabel
      refine heeds_pure ⟨?_, List.suffix_refl _, rfl⟩
      rw [Rechecked, show pod.anchor = none by simp [Pod.anchor, hrunner, hlabel]]

theorem heeds_deleteOne {pod : Pod} (h : Justifies cfg past pod.name) (tally : Tally) :
    (deleteOne pod tally).Heeds (IsJustified cfg)
      (fun past' _ => past <:+ past' ∧ deletions past' = deletions past + 1) (fun _ _ => False)
      past := by
  have hdone : ∀ r : Except Failure Unit, past <:+ ⟨.deletePod pod.name, r⟩ :: past ∧
      deletions (⟨.deletePod pod.name, r⟩ :: past) = deletions past + 1 := fun r =>
    ⟨List.suffix_cons _ _, deletions_deletePod _ _⟩
  refine Heeds.tryCatch (E := fun past' _ => past <:+ past' ∧ deletions past' = deletions past + 1)
    (Heeds.bind (Q := fun past' _ => past <:+ past' ∧ deletions past' = deletions past + 1)
      (heeds_request ?_ (fun r _ _ => hdone r) fun r _ _ => hdone r) fun _ _ h => heeds_pure h)
    fun past' e h => ?_
  · rintro name hname
    cases hname
    exact h
  · split
    · exact heeds_pure h
    · exact heeds_pure h

section Selected

variable {now : ℚ} {pods : List Pod} {runners : Except Failure (List Runner)} {now' : ℚ}
  (hvalid : validateConfig cfg = none)

include hvalid

theorem heeds_recheckAndDelete {pod : Pod} (tally : Tally)
    (hanswers : findAnswers now pods runners now' <:+ past) (hpod : pod ∈ pods)
    (hzombie : isZombie cfg now (busyStateOf pods runners) pod = true)
    (hcap : deletions past < cleanupCap pods.length) :
    (recheckAndDelete cfg now' pod tally).Heeds (IsJustified cfg)
      (fun past' _ => past <:+ past' ∧ deletions past' ≤ deletions past + 1) (fun _ _ => False)
      past := by
  refine (heeds_recheckLiveness pod).bind ?_
  rintro past' liveness ⟨hrecheck, hsuffix, hcount⟩
  split
  · split
    · exact heeds_pure ⟨hsuffix, by omega⟩
    · rename_i hdelete hdry
      refine (heeds_deleteOne ⟨hvalid, by simpa using hdry, now, pods, runners, now', pod, liveness,
        hanswers.trans hsuffix, hpod, rfl, hzombie, hrecheck, hdelete, by omega⟩ tally).mono ?_
        fun _ _ h => h
      rintro past'' _ ⟨hsuffix', hcount'⟩
      exact ⟨hsuffix.trans hsuffix', by omega⟩
  · exact heeds_pure ⟨hsuffix, by omega⟩

/-- The loop deletes selected pods only, and no more than there are. -/
theorem heeds_deleteLoop {zombies : List Pod} (tally : Tally)
    (hanswers : findAnswers now pods runners now' <:+ past) (hpods : ∀ pod ∈ zombies, pod ∈ pods)
    (hzombies : ∀ pod ∈ zombies, isZombie cfg now (busyStateOf pods runners) pod = true)
    (hcap : deletions past + zombies.length ≤ cleanupCap pods.length) :
    (deleteLoop cfg now' zombies tally).Heeds (IsJustified cfg) (fun _ _ => True)
      (fun _ _ => False) past := by
  induction zombies generalizing tally past with
  | nil => exact heeds_pure trivial
  | cons pod rest ih =>
    rw [List.forall_mem_cons] at hpods hzombies
    rw [List.length_cons] at hcap
    refine (heeds_recheckAndDelete hvalid tally hanswers hpods.1 hzombies.1 (by omega)).bind ?_
    rintro past' tally' ⟨hsuffix, hcount⟩
    exact ih tally' (hanswers.trans hsuffix) hpods.2 hzombies.2 (by omega)

end Selected

/-- What a listing selects. -/
theorem heeds_findZombiePods :
    (findZombiePods cfg).Heeds (IsJustified cfg)
      (fun past found => ∃ now pods runners,
        past = [⟨.listRunners, runners⟩, ⟨.listPods, .ok pods⟩, ⟨.now, now⟩] ∧
        found = (pods.filter (isZombie cfg now (busyStateOf pods runners)), pods.length))
      (fun _ _ => True) [] := by
  refine Heeds.bind ((heeds_read (by simp)).mono (fun _ _ h => h) fun _ _ _ => trivial) ?_
  rintro past now ⟨r, rfl, hr⟩
  cases hr
  refine Heeds.bind ((heeds_read (by simp)).mono (fun _ _ h => h) fun _ _ _ => trivial) ?_
  rintro past pods ⟨r, rfl, hr⟩
  obtain rfl : r = .ok pods := hr
  refine ((heeds_gatherBusyState pods).mono (fun _ _ h => h) fun _ _ h => h.elim).bind ?_
  rintro past state ⟨runners, rfl, rfl⟩
  exact heeds_pure ⟨_, pods, runners, rfl, rfl⟩

/-- Every deletion of a run is justified by what was answered before. -/
theorem heeds_main (cfg : Config) :
    (main cfg).Heeds (IsJustified cfg) (fun _ _ => True) (fun _ _ => True) [] := by
  unfold main
  split
  · exact heeds_pure trivial
  · rename_i hvalid
    have hvalid : validateConfig cfg = none := by simpa using hvalid
    refine Heeds.orElseGive (E := fun _ _ => True) (heeds_findZombiePods.bind ?_) fun _ _ _ =>
      trivial
    rintro past ⟨zombies, total⟩ ⟨now, pods, runners, rfl, hfound⟩
    cases hfound
    dsimp only
    split
    · exact heeds_pure trivial
    · refine Heeds.bind (Q := fun _ _ => True) (Heeds.bind ((heeds_read (by simp)).mono
        (fun _ _ h => h) fun _ _ _ => trivial) ?_) fun _ _ _ => heeds_pure trivial
      rintro past now' ⟨r, rfl, hr⟩
      cases hr
      refine (heeds_deleteLoop hvalid _ (List.suffix_refl _) (fun pod hpod => ?_)
        (fun pod hpod => ?_) ?_).mono (fun _ _ h => h) fun _ _ h => h.elim
      · exact List.mem_of_mem_filter (List.mem_of_mem_take hpod)
      · exact List.of_mem_filter (List.mem_of_mem_take hpod)
      · have hnone : deletions (findAnswers now pods runners now') = 0 := by
          simp [deletions, findAnswers]
        rw [hnone, List.length_take]
        omega

end Programs

/-! ### The blast radius -/

/-- The pod is older than the threshold for its phase, or it is a runner or a job pod past the hard
cap. -/
def OverAge (cfg : Config) (pod : Pod) (phase : Option String) (ageHours : ℚ) : Prop :=
  (phase = some "Pending" ∧ cfg.pendingMaxHours < ageHours) ∨
  ((phase = some "Running" ∨ phase = some "Unknown") ∧ cfg.runningMaxHours < ageHours) ∨
  ((pod.isEphemeralRunnerPod = true ∨ pod.runnerPod.isSome = true) ∧ cfg.busyMaxHours < ageHours)

theorem ageDecision_isDelete {cfg : Config} {phase : Option String} {age : ℚ}
    (h : (ageDecision cfg phase age).isDelete = true) :
    (phase = some "Pending" ∧ cfg.pendingMaxHours < age) ∨
      ((phase = some "Running" ∨ phase = some "Unknown") ∧ cfg.runningMaxHours < age) := by
  unfold ageDecision at h
  split at h
  · rename_i hover
    unfold ageOverThreshold at hover
    split at hover
    · exact Or.inl ‹_›
    · split at hover
      · exact Or.inr ‹_›
      · cases hover
  · cases h

/-- What the classifier deletes is over age, and no runner that could not be read. -/
theorem classifyPod_isDelete {cfg : Config} {pod : Pod} {phase : Option String} {age : ℚ}
    {liveness : RunnerLiveness} (h : (classifyPod cfg pod phase age liveness).isDelete = true) :
    OverAge cfg pod phase age ∧
      (pod.isEphemeralRunnerPod = true → liveness.readFailed = false) := by
  have hage : (ageDecision cfg phase age).isDelete = true → OverAge cfg pod phase age := fun h =>
    (ageDecision_isDelete h).elim Or.inl fun h => Or.inr (Or.inl h)
  unfold classifyPod at h
  split at h
  · rename_i hrunner
    split at h
    · cases h
    · rename_i hread
      refine ⟨?_, fun _ => by simpa using hread⟩
      split at h
      · split at h
        · exact Or.inr (Or.inr ⟨Or.inl hrunner, ‹_›⟩)
        · cases h
      · exact hage h
  · rename_i hrunner
    refine ⟨?_, fun h => (hrunner h).elim⟩
    split at h
    · rename_i hlabel
      split at h
      · cases h
      · split at h
        · split at h
          · exact Or.inr (Or.inr ⟨Or.inr hlabel, ‹_›⟩)
          · cases h
        · exact hage h
    · exact hage h

/-- A pod that may be deleted by a run that listed it at a time. -/
structure IsDeletable (cfg : Config) (now : ℚ) (pod : Pod) : Prop where
  unmanaged : ∀ kind ∈ pod.ownerKinds, kind ∉ managedOwnerKinds
  notTerminating : pod.deletionRequested = false
  overAge : ∃ created, pod.createdAt = some created ∧
    OverAge cfg pod pod.phase ((now - created) / 3600)

theorem isDeletable_of_isZombie {cfg : Config} {now : ℚ} {state : BusyState} {pod : Pod}
    (h : isZombie cfg now state pod = true) : IsDeletable cfg now pod := by
  simp only [isZombie, Bool.and_eq_true, Bool.not_eq_true', decide_eq_true_eq] at h
  obtain ⟨⟨⟨hmanaged, hterminating⟩, hage⟩, hdelete⟩ := h
  refine ⟨fun kind hkind hmanagedKind => ?_, hterminating, ?_⟩
  · have hany : pod.isManagedPod = true :=
      List.any_eq_true.mpr ⟨kind, hkind, by simpa using hmanagedKind⟩
    rw [hmanaged] at hany
    cases hany
  · have hover := (classifyPod_isDelete hdelete).1
    unfold Pod.ageHours at hage hover
    cases hcreated : pod.createdAt with
    | none =>
      rw [hcreated] at hage
      exact absurd (show (0 : ℚ) ≤ -1 from hage) (by decide)
    | some created =>
      rw [hcreated] at hover
      exact ⟨created, rfl, hover⟩

/-- Something that happened in the namespace: a call of the cleanup, or a change by others. -/
abbrev Occurrence := Happening Unit Op Op.Res Cluster

/-- The cleanup before it has begun. -/
def beforeRun (cfg : Config) (c : Cluster) : System Unit Op Op.Res Unit Cluster :=
  ⟨c, fun _ => (main cfg).toEnd⟩

/-- The pods that a run was shown, with the time and the runners that it was shown. -/
def WasShown (now : ℚ) (pods : List Pod) (runners : Except Failure (List Runner))
    (es : List Occurrence) : Prop :=
  [⟨.now, now⟩, ⟨.listPods, .ok pods⟩, ⟨.listRunners, runners⟩] <+: traceOf () es

/-- What a run may delete: pods that it was shown and that may be deleted, no runner that could not
be read at either pass, and no more than a part of the namespace. -/
structure BlastRadius (cfg : Config) (es : List Occurrence) : Prop where
  deletes : ∀ later e earlier name r, es = later ++ e :: earlier →
    e.call = some ((), ⟨.deletePod name, r⟩) → ∃ now pods runners pod,
      WasShown now pods runners earlier ∧ pod ∈ pods ∧ pod.name = name ∧
      IsDeletable cfg now pod ∧ (pod.isEphemeralRunnerPod = true → Except.isOk runners = true ∧
        ∃ er, (traceOf () earlier).getLast? = some ⟨.getRunner name, er⟩ ∧
          (lookupOf er).readFailed = false)
  count : deletions (traceOf () es) = 0 ∨ ∃ now pods runners, WasShown now pods runners es ∧
    deletions (traceOf () es) ≤ max (pods.length / 10) 10

section Runs

variable {cfg : Config} {env : Cluster → Cluster → Prop} {c : Cluster}
  {T : System Unit Op Op.Res Unit Cluster} {later earlier es : List Occurrence} {e : Occurrence}

/-- A deletion in a run is justified by what was answered before. -/
theorem justifies_of_deletePod
    (h : History Op.Answers env (beforeRun cfg c) (later ++ e :: earlier) T) {name : String}
    {r : Except Failure Unit} (hcall : e.call = some ((), ⟨.deletePod name, r⟩)) :
    Justifies cfg (earlier.filterMap (Happening.callOf ())) name :=
  h.heeds (heeds_main cfg).toEnd hcall name rfl

theorem wasShown_of_suffix {now now' : ℚ} {pods : List Pod}
    {runners : Except Failure (List Runner)}
    (h : findAnswers now pods runners now' <:+ es.filterMap (Happening.callOf ())) :
    WasShown now pods runners es := by
  have hfirst : [⟨.now, now⟩, ⟨.listPods, .ok pods⟩, ⟨.listRunners, runners⟩] <+:
      (findAnswers now pods runners now').reverse :=
    List.prefix_append _ [(⟨.now, now'⟩ : Program.Event Op Op.Res)]
  exact hfirst.trans (List.reverse_prefix.mpr h)

theorem getLast?_traceOf : (traceOf () es).getLast? =
    (es.filterMap (Happening.callOf ())).head? := by
  rw [traceOf, List.getLast?_reverse]

theorem deletions_traceOf : deletions (traceOf () es) =
    deletions (es.filterMap (Happening.callOf ())) := by
  rw [traceOf, deletions, List.countP_reverse, deletions]

theorem deletes_of_justifies {name : String}
    (h : Justifies cfg (earlier.filterMap (Happening.callOf ())) name) :
    ∃ now pods runners pod, WasShown now pods runners earlier ∧ pod ∈ pods ∧ pod.name = name ∧
      IsDeletable cfg now pod ∧ (pod.isEphemeralRunnerPod = true → Except.isOk runners = true ∧
        ∃ er, (traceOf () earlier).getLast? = some ⟨.getRunner name, er⟩ ∧
          (lookupOf er).readFailed = false) := by
  obtain ⟨-, -, now, pods, runners, now', pod, liveness, hanswers, hpod, rfl, hzombie, hrecheck,
    hdelete, -⟩ := h
  refine ⟨now, pods, runners, pod, wasShown_of_suffix hanswers, hpod, rfl,
    isDeletable_of_isZombie hzombie, fun hrunner => ⟨?_, ?_⟩⟩
  · simp only [isZombie, Bool.and_eq_true] at hzombie
    have hread := (classifyPod_isDelete hzombie.2).2 hrunner
    cases runners with
    | ok l => rfl
    | error f => simp [BusyState.livenessFor, hrunner, busyStateOf, buildBusyState] at hread
  · rw [Rechecked, show pod.anchor = some pod.name by simp [Pod.anchor, hrunner]] at hrecheck
    obtain ⟨er, hlast, rfl⟩ := hrecheck
    refine ⟨er, getLast?_traceOf.trans hlast, ?_⟩
    have hread := (classifyPod_isDelete hdelete).2 hrunner
    unfold Pod.livenessFrom at hread
    split at hread
    · cases hread
    · simpa using ‹¬ (lookupOf er).readFailed = true›

theorem WasShown.cons {now : ℚ} {pods : List Pod} {runners : Except Failure (List Runner)}
    (h : WasShown now pods runners es) (e : Occurrence) : WasShown now pods runners (e :: es) := by
  refine h.trans ?_
  rw [traceOf, traceOf, List.reverse_prefix, List.filterMap_cons]
  split
  · exact List.suffix_refl _
  · exact List.suffix_cons _ _

/-- A run deletes no more than a part of what it was shown. -/
theorem deletions_le (h : History Op.Answers env (beforeRun cfg c) es T) :
    deletions (traceOf () es) = 0 ∨ ∃ now pods runners, WasShown now pods runners es ∧
      deletions (traceOf () es) ≤ max (pods.length / 10) 10 := by
  induction es generalizing T with
  | nil => exact Or.inl rfl
  | cons e past ih =>
    obtain ⟨U, hU, -, -⟩ := h.tail
    have hpast := ih hU
    rw [deletions_traceOf] at hpast ⊢
    have hsame : deletions ((e :: past).filterMap (Happening.callOf ())) =
        deletions (past.filterMap (Happening.callOf ())) →
          deletions ((e :: past).filterMap (Happening.callOf ())) = 0 ∨ ∃ now pods runners,
            WasShown now pods runners (e :: past) ∧
            deletions ((e :: past).filterMap (Happening.callOf ())) ≤
              max (pods.length / 10) 10 := by
      intro hcount
      rw [hcount]
      exact hpast.imp_right fun ⟨now, pods, runners, hshown, hle⟩ =>
        ⟨now, pods, runners, hshown.cons e, hle⟩
    cases hcall : e.call with
    | none => exact hsame (by simp [Happening.callOf, hcall])
    | some call =>
      obtain ⟨⟨⟩, op, r⟩ := call
      have hcons : (e :: past).filterMap (Happening.callOf ()) =
          ⟨op, r⟩ :: past.filterMap (Happening.callOf ()) := by
        simp [Happening.callOf, hcall]
      cases op with
      | deletePod name =>
        obtain ⟨-, -, now, pods, runners, now', -, -, hanswers, -, -, -, -, -, hlt⟩ :=
          justifies_of_deletePod (show History _ _ _ ([] ++ e :: past) T from h) hcall
        refine Or.inr ⟨now, pods, runners, (wasShown_of_suffix hanswers).cons e, ?_⟩
        rw [hcons]
        exact (deletions_deletePod name r).trans_le hlt
      | _ => exact hsame (by rw [hcons]; simp [deletions])

/-- The blast radius of a run, whatever it is answered and whatever changes meanwhile. -/
theorem blastRadius (h : History Op.Answers env (beforeRun cfg c) es T) : BlastRadius cfg es where
  deletes := by
    rintro later e earlier name r rfl hcall
    exact deletes_of_justifies (justifies_of_deletePod h hcall)
  count := deletions_le h

end Runs

/-! ### A run -/

/-- An API server that accepts what it can, at a time. -/
def serve (now : ℚ) : (op : Op) → Cluster → op.Res × Cluster
  | .now, c => (now, c)
  | .listPods, c => (.ok c.pods, c)
  | .listRunners, c => (.ok c.runners, c)
  | .getRunner name, c =>
    match c.runner name with
    | some er => (.ok er, c)
    | none => (.error (.api 404), c)
  | .deletePod name, c => (.ok (), c.terminate name)

theorem answers_serve (now : ℚ) (op : Op) (c : Cluster) :
    op.Answers c (serve now op c).1 (serve now op c).2 := by
  cases op with
  | now => rfl
  | deletePod name => rfl
  | getRunner name =>
    simp only [serve]
    split
    · exact ⟨rfl, fun x hx => by cases hx; assumption, nofun⟩
    · exact ⟨rfl, nofun, fun _ => ‹_›⟩
  | _ => exact ⟨rfl, fun l hl => by cases hl; rfl⟩

/-- The default thresholds. -/
def thresholds : Config := ⟨24, 24, 48, false⟩

/-- A runner at work, a runner that has been idle for too long, and a job pod that its runner has
left behind. -/
def leftBehind : Cluster where
  pods := [
    ⟨"busy", ["EphemeralRunner"], none, some "Running", some 252000, false⟩,
    ⟨"idle", ["EphemeralRunner"], none, some "Running", some 252000, false⟩,
    ⟨"idle-workflow", [], some "gone", some "Pending", some 252000, false⟩]
  runners := [⟨"busy", some "17"⟩, ⟨"idle", none⟩]
  podNames := by decide
  runnerNames := by decide

theorem blastRadius_leftBehind :
    BlastRadius thresholds
      (play (serve 360000) (beforeRun thresholds leftBehind) (List.replicate 8 (.call ()))).1 := by
  have hplay : History Op.Answers Eq (beforeRun thresholds leftBehind) _ _ :=
    History.of_play (answers_serve 360000) (beforeRun thresholds leftBehind)
      (List.replicate 8 (.call ())) (by simp)
  exact blastRadius hplay

end CiInfra.Zombies

import CiInfra.GpuDev.WarmOwnership

/-!
# Claims that fail

A claim of a warm pod takes its pod out of the pool first, and half a dozen calls that may raise
follow. Whatever is raised, the claim reports a plain miss and the handler goes on with the cold
path. A miss leaves nothing behind exactly if it comes before the pod has been taken.
-/

namespace CiInfra.GpuDev

open Interaction Fallible Program

/-- A call with its answer and the worlds around it. -/
abbrev Exchange := Served Op Op.Res World

/-- A run ends with one GPU pod for the reservation: it adds none to those of `w` but the pod
that is named after the reservation, and if it makes the record active, it is with that pod,
which is there. -/
structure EndsWithOnePod (r : String) (w : World) (t : List Exchange) (w' : World) : Prop where
  atMost : ∀ p pod, w'.pods.lookup p = some pod → pod.labels "app" = some "gpu-dev-pod" →
    p = podNameOf r ∨ ∃ pod', w.pods.lookup p = some pod' ∧ pod'.labels "app" = some "gpu-dev-pod"
  bound : ∀ x ∈ t, ∀ p, x.op.binds r p = true →
    p = podNameOf r ∧ (w'.pods.lookup p).isSome = true

/-- What a claim that reports a miss is to leave: each idle pod of the pool is idle or gone, the
record is as it was, and the cold path ends with one GPU pod. -/
structure LeavesNothing (cfg : Settings) (body : Attributes) (w w' : World) : Prop where
  pool : ∀ p pod pod', w.pods.lookup p = some pod → pod.isIdleWarm = true →
    w'.pods.lookup p = some pod' → pod'.labels "warm-state" = some "ready"
  record : w'.table.get body.key = w.table.get body.key
  onePod : warmPoolEligible cfg body = true → ∀ t res w'',
    Exec Op.Answers (processReservationRequest cfg body).run w' t res w'' →
      EndsWithOnePod body.key w t w''

/-- The call has taken a pod out of the pool. -/
def Takes (x : Exchange) : Prop := x.op.taken.isSome = true ∧ x.op.effect x.before = some x.after

/-! ### The run of a claim -/

/-- A call made before a pod is taken: at most it stores the keys of the user. -/
def Op.LooksOnly : Op → Prop
  | putItem item condition => IsKeyCachePut item condition
  | op => op.IsQuiet = true

instance : AllowsQuiet Op.LooksOnly where
  quiet op h := by cases op <;> first | exact h | cases h

/-- The pods and the records of reservations are the same. -/
structure SameReservations (w w' : World) : Prop where
  pods : w'.pods = w.pods
  records : ∀ r, isReservationKey r = true → w'.table.get r = w.table.get r

theorem SameReservations.refl (w : World) : SameReservations w w := ⟨rfl, fun _ _ => rfl⟩

theorem SameReservations.trans {w w₁ w₂ : World} (h : SameReservations w w₁)
    (h' : SameReservations w₁ w₂) : SameReservations w w₂ :=
  ⟨h'.pods.trans h.pods, fun r hr => (h'.records r hr).trans (h.records r hr)⟩

theorem Op.LooksOnly.same {op : Op} {w w' : World} {res : op.Res} (hop : op.LooksOnly)
    (h : op.Answers w res w') : SameReservations w w' := by
  rcases h.cases with rfl | heffect
  · exact .refl w'
  cases op with
  | putItem item condition =>
    obtain ⟨user, hkey, -⟩ := hop
    obtain ⟨t', ht, rfl⟩ := World.withTable_eq_some heffect
    obtain ⟨-, rfl⟩ := Table.put_eq_some ht
    refine ⟨rfl, fun r hr => Table.get_store_of_ne _ ?_ _⟩
    rintro rfl
    rw [hkey, isReservationKey_sshKeyCacheKey] at hr
    cases hr
  | updateItem _ _ | deleteItem _ | createPod _ _ | patchPod _ _ _ | deletePod _
  | createVolume _ _ => cases hop
  | _ => cases heffect; exact .refl _

theorem Op.LooksOnly.taken {op : Op} (hop : op.LooksOnly) : op.taken = none := by
  cases op <;> first | rfl | cases hop

theorem Op.IsRecording.taken {r : String} {op : Op} (hop : op.IsRecording r) : op.taken = none := by
  cases op <;> first | rfl | cases hop

/-- What a recording leaves of the pods. -/
theorem Op.IsRecording.pods {r : String} {op : Op} {w w' : World} {res : op.Res}
    (hop : op.IsRecording r) (h : op.Answers w res w') : w'.pods = w.pods := by
  rcases h.cases with rfl | heffect
  · rfl
  cases op with
  | putItem item condition =>
    obtain ⟨t', -, rfl⟩ := World.withTable_eq_some heffect
    rfl
  | updateItem id u =>
    obtain ⟨t', -, rfl⟩ := World.withTable_eq_some heffect
    rfl
  | deleteItem _ | createPod _ _ | patchPod _ _ _ | deletePod _ | createVolume _ _ => cases hop
  | _ => cases heffect; rfl

section Run

variable {cfg : Settings} {body : Attributes} {w w' : World} {t : List Exchange}

/-- A run that only looks leaves the pods and the records as they were. -/
theorem looks_of_exec {α : Type} {p : Lambda α} {r : Except Failure α}
    (h : Exec Op.Answers p.run w t r w') (hp : p.Issues Op.LooksOnly) :
    (∀ x ∈ t, x.op.LooksOnly) ∧ SameReservations w w' :=
  ⟨h.calls hp, h.keeps (fun _ _ _ _ hop hr hs => hs.trans (hop.same hr)) hp (.refl w)⟩

/-- A run begins with the label patch of an idle pod, and goes on with the record if the patch
is answered as one that went through. -/
def Patches (cfg : Settings) (body : Attributes) (w : World) (t : List Exchange)
    (r : Except Failure Bool) (w' : World) : Prop :=
  ∃ gpuCount candidate annotations res w₁ t',
    w.pods.lookup candidate.1 = some candidate.2 ∧ candidate.2.isIdleWarm = true ∧
    t = ⟨.patchPod candidate.1 graduationLabels annotations, res, w, w₁⟩ :: t' ∧
    (Op.patchPod candidate.1 graduationLabels annotations).Answers w res w₁ ∧
    ((∃ e, r = .error e ∧ res = .error e ∧ t' = [] ∧ w' = w₁) ∨
      (res = .ok () ∧ Exec Op.Answers (recordClaim cfg body gpuCount candidate).run w₁ t' r w'))

/-- A run looks, and then it ends or patches the pod that it has found. -/
def LooksThenPatches (cfg : Settings) (body : Attributes) (w : World) (t : List Exchange)
    (r : Except Failure Bool) (w' : World) : Prop :=
  ((∀ x ∈ t, x.op.LooksOnly) ∧ SameReservations w w') ∨
    ∃ w₁ t₁ t₂, t = t₁ ++ t₂ ∧ (∀ x ∈ t₁, x.op.LooksOnly) ∧ SameReservations w w₁ ∧
      Patches cfg body w₁ t₂ r w'

/-- A program that only looks may come first. -/
theorem looksThenPatches_bind {α : Type} {p : Lambda α} {f : α → Lambda Bool}
    {r : Except Failure Bool} (h : Exec Op.Answers (p >>= f).run w t r w')
    (hp : p.Issues Op.LooksOnly) (hf : ∀ a w₁ t₁ t₂, Exec Op.Answers p.run w t₁ (.ok a) w₁ →
      Exec Op.Answers (f a).run w₁ t₂ r w' → LooksThenPatches cfg body w₁ t₂ r w') :
    LooksThenPatches cfg body w t r w' := by
  rcases exec_bind h with ⟨e, -, h₁⟩ | ⟨a, w₁, t₁, t₂, rfl, h₁, h₂⟩
  · exact Or.inl (looks_of_exec h₁ hp)
  · obtain ⟨hcalls, hsame⟩ := looks_of_exec h₁ hp
    rcases hf a w₁ t₁ t₂ h₁ h₂ with ⟨hcalls₂, hsame₂⟩ | ⟨w₂, t, t₃, rfl, hcalls₂, hsame₂, hpatches⟩
    · exact Or.inl ⟨List.forall_mem_append.mpr ⟨hcalls, hcalls₂⟩, hsame.trans hsame₂⟩
    · exact Or.inr ⟨w₂, t₁ ++ t, t₃, by simp, List.forall_mem_append.mpr ⟨hcalls, hcalls₂⟩,
        hsame.trans hsame₂, hpatches⟩

/-- A candidate is an idle pod that is there. -/
theorem claimCandidate_idle {gpuCount : ℤ} {candidate : NamedPod} {gpuType : String}
    (h : claimCandidate gpuCount (w.warmPods (some gpuType) (some "ready")) = some candidate) :
    w.pods.lookup candidate.1 = some candidate.2 ∧ candidate.2.isIdleWarm = true := by
  obtain ⟨hmem, hmatches⟩ := List.mem_filter.mp (List.mem_of_find?_eq_some h)
  simp only [Pod.matchesWarm, Option.all_some, Bool.and_eq_true] at hmatches
  refine ⟨World.mem_namedPods.mp hmem, ?_⟩
  simp only [Pod.isIdleWarm, Bool.and_eq_true]
  exact hmatches.1

theorem exec_claimWarmPod {r : Except Failure Bool}
    (h : Exec Op.Answers (claimWarmPod cfg body).run w t r w') :
    LooksThenPatches cfg body w t r w' := by
  refine looksThenPatches_bind h (issues_intOf _ _ _) fun gpuCount w t₁ t _ h => ?_
  split at h
  · exact Or.inl (looks_of_exec h (issues_pure false))
  refine looksThenPatches_bind h (issues_getGithubPublicKey
    (fun _ user hkey => ⟨user, hkey, rfl⟩) _) fun key w t₁ t _ h => ?_
  split at h
  · exact Or.inl (looks_of_exec h (issues_pure false))
  refine looksThenPatches_bind h (issues_quiet rfl) fun pods w₁ t₁ t hlist h => ?_
  obtain ⟨res, -, hanswers, hpods⟩ := exec_request hlist
  obtain ⟨rfl, hlisted⟩ := hanswers
  cases hlisted pods hpods.symm
  split at h
  · exact Or.inl (looks_of_exec h (issues_pure false))
  · rename_i candidate hcandidate
    obtain ⟨hpod, hidle⟩ := claimCandidate_idle hcandidate
    refine Or.inr ⟨w₁, [], t, rfl, by simp, .refl w₁, ?_⟩
    rcases exec_bind h with ⟨e, rfl, hpatch⟩ | ⟨a, w₂, t₂, t₃, rfl, hpatch, hrecord⟩
    · obtain ⟨res, rfl, hanswers, hres⟩ := exec_request hpatch
      exact ⟨gpuCount, candidate, _, res, w', [], hpod, hidle, rfl, hanswers,
        Or.inl ⟨e, rfl, hres.symm, rfl, rfl⟩⟩
    · obtain ⟨res, rfl, hanswers, hres⟩ := exec_request hpatch
      exact ⟨gpuCount, candidate, _, res, w₂, t₃, hpod, hidle, rfl, hanswers,
        Or.inr ⟨hres.symm, hrecord⟩⟩

/-- A claim that has not taken a pod leaves the pods and the records as they were, if it
misses. -/
theorem same_of_not_takes
    (h : Exec Op.Answers (tryClaimWarmPod cfg body).run w t (.ok false) w')
    (htakes : ∀ x ∈ t, ¬ Takes x) : SameReservations w w' := by
  obtain ⟨r, h⟩ := exec_orElseGive h
  rcases exec_claimWarmPod h with ⟨-, hsame⟩ | ⟨w₁, t₁, t₂, rfl, -, hsame, hpatches⟩
  · exact hsame
  obtain ⟨gpuCount, candidate, annotations, res, w₂, t', -, -, rfl, hanswers, hends⟩ := hpatches
  have hpatch := htakes ⟨.patchPod candidate.1 graduationLabels annotations, res, w₁, w₂⟩ (by simp)
  have hrefused : (Op.patchPod candidate.1 graduationLabels annotations).effect w₁ ≠ some w₂ :=
    fun heffect => hpatch ⟨rfl, heffect⟩
  rcases hends with ⟨e, -, -, -, rfl⟩ | ⟨rfl, -⟩
  · rcases hanswers.cases with rfl | heffect
    · exact hsame
    · exact (hrefused heffect).elim
  · exact (hrefused hanswers).elim

/-- A pod that a claim has taken is no longer ready when the claim ends. -/
theorem not_ready_of_takes {r : Except Failure Bool}
    (h : Exec Op.Answers (tryClaimWarmPod cfg body).run w t r w') {x : Exchange} (hx : x ∈ t)
    (htakes : Takes x) :
    ∃ p pod pod', w.pods.lookup p = some pod ∧ pod.isIdleWarm = true ∧
      w'.pods.lookup p = some pod' ∧ pod'.labels "warm-state" = none := by
  obtain ⟨hop, heffect⟩ := htakes
  have hlooks : ∀ {op : Op}, op.taken = none → op ≠ x.op := by
    rintro op hnone rfl
    rw [hnone] at hop
    cases hop
  obtain ⟨r, h⟩ := exec_orElseGive h
  rcases exec_claimWarmPod h with ⟨hcalls, -⟩ | ⟨w₁, t₁, t₂, rfl, hcalls, hsame, hpatches⟩
  · exact (hlooks (hcalls x hx).taken rfl).elim
  obtain ⟨gpuCount, candidate, annotations, res, w₂, t', hpod, hidle, rfl, -, hends⟩ := hpatches
  -- Only the label patch takes a pod, and nothing after it touches pods.
  have hafter : x ∉ t' ∧ w'.pods = w₂.pods := by
    rcases hends with ⟨e, -, -, rfl, rfl⟩ | ⟨-, hrecord⟩
    · exact ⟨by simp, rfl⟩
    · have hissues := @issues_recordClaim cfg body gpuCount candidate
      exact ⟨fun hx => hlooks (hrecord.calls hissues x hx).taken rfl,
        hrecord.keeps (K := fun v => v.pods = w₂.pods)
          (fun _ _ _ _ hop hr hs => (hop.pods hr).trans hs) hissues rfl⟩
  have hxeq : x = ⟨.patchPod candidate.1 graduationLabels annotations, res, w₁, w₂⟩ := by
    rcases List.mem_append.mp hx with hx | hx
    · exact (hlooks (hcalls x hx).taken rfl).elim
    · rcases List.mem_cons.mp hx with rfl | hx
      · rfl
      · exact (hafter.1 hx).elim
  subst hxeq
  have heffect : (Op.patchPod candidate.1 graduationLabels annotations).effect w₁ = some w₂ :=
    heffect
  obtain ⟨pod, hpod', rfl⟩ := World.modifyPod_eq_some heffect
  refine ⟨candidate.1, candidate.2, pod.patch graduationLabels annotations, hsame.pods ▸ hpod,
    hidle, ?_, rfl⟩
  rw [hafter.2]
  exact AList.lookup_insert _

end Run

/-! ### Connected to its own pod -/

/-- The answer does not say that the pod is there. -/
def SaysNoPod (p : String) : Event Op Op.Res → Prop
  | ⟨.readPod name, .ok _⟩ => name ≠ p
  | ⟨.createPod name _, .ok _⟩ => name ≠ p
  | _ => True

section Connected

variable {cfg : Settings} {r : String} {P : Op → Prop} [Serves r P]

theorem meets_podExists :
    (podExists (podNameOf r)).Meets (SaysNoPod (podNameOf r)) P (fun exist => exist = false)
      fun _ => True := by
  refine Meets.tryCatch (E := fun _ => True) ?_ fun e _ => ?_
  · exact (meets_request (Q := fun _ => False) (AllowsQuiet.quiet _ rfl)
      (fun res a h ha => by cases ha; exact h rfl) fun _ _ _ _ => trivial).bind fun _ h => h.elim
  · cases e with
    | notFound => exact meets_pure rfl
    | _ => exact meets_throw trivial

theorem meets_createPodAndServices {pod : PodParameters} (hpod : pod.podName = podNameOf r)
    (sshPort : Option ℚ) :
    (createPodAndServices r pod false sshPort).Meets (SaysNoPod (podNameOf r)) P (fun _ => False)
      fun _ => True := by
  refine Meets.bind (Q := fun _ => False) (Meets.whenever (fun h => nomatch h) fun _ => ?_)
    fun _ h => h.elim
  refine (issues_updateReservationStatus (by decide) _ _).meets.bind fun _ _ =>
    Meets.bind (Q := fun _ => False) ?_ fun _ h => h.elim
  unfold createPod
  rw [hpod]
  exact meets_request (Serves.createPod _) (fun res a h ha => by cases ha; exact h rfl)
    fun _ _ _ _ => trivial

theorem meets_ensureResources {pod : PodParameters} (hpod : pod.podName = podNameOf r) :
    (ensureResources r pod).Meets (SaysNoPod (podNameOf r)) P (fun _ => False) fun _ => True := by
  unfold ensureResources
  rw [hpod]
  refine meets_podExists.bind fun exist hexist => ?_
  subst hexist
  refine (issues_pure none).meets.bind fun sshPort _ => (issues_findService _).meets.bind
    fun jupyterPort _ => ?_
  split
  · exact (issues_portOr _).meets.bind fun _ _ => (issues_portOr _).meets.bind fun _ _ =>
      (meets_createPodAndServices hpod _).bind fun _ h => h.elim
  · exact (issues_portOr _).meets.bind fun _ _ =>
      (meets_createPodAndServices hpod _).bind fun _ h => h.elim

theorem meets_createKubernetesResources {pod : PodParameters} (hpod : pod.podName = podNameOf r) :
    (createKubernetesResources r pod).Meets (SaysNoPod (podNameOf r)) P (fun _ => False)
      fun _ => True := (meets_ensureResources hpod).bind fun _ h => h.elim

theorem meets_allocateWithImage (params : AllocationParameters) (image : Option Value) :
    (allocateWithImage cfg r params image).Meets (SaysNoPod (podNameOf r)) P (fun _ => True)
      fun _ => True := by
  refine (issues_wantsPersistentDisk _).meets.bind fun wanted _ =>
    (issues_reserveDiskSlot _).meets.bind fun use _ =>
    (issues_inThreeThreads (AllowsQuiet.quiet _ rfl) (issues_getGithubPublicKey (Serves.cache r) _)
      (issues_setUpDiskIf _ _ _) (issues_setUpEfs _)).meets.bind fun results _ =>
    (issues_ofExcept _).meets.bind fun key _ => (issues_settleDisk _ _).meets.bind fun disk _ => ?_
  split
  · exact meets_throw trivial
  · exact (issues_recordDisk _ _).meets.bind fun _ _ =>
      (issues_updateReservationStatus (by decide) _ _).meets.bind fun _ _ =>
      (meets_createKubernetesResources rfl).bind fun _ h => h.elim

end Connected

/-! ### The cold path after a miss -/

/-- A pod that is there stays there. -/
theorem Op.Answers.isSome_lookup {op : Op} {w w' : World} {res : op.Res} (h : op.Answers w res w')
    {p : String} (hp : (w.pods.lookup p).isSome = true) : (w'.pods.lookup p).isSome = true := by
  rcases h.pod_cases p with hsame | ⟨_, _, _, -, -, hafter⟩ | ⟨_, -, -, hafter⟩ |
    ⟨_, -, -, hafter⟩
  · rw [hsame, hp]
  all_goals
    rw [hafter]
    rfl

/-- The processing of a request leaves the labels of pods alone and creates its own pod only. -/
theorem Op.IsFor.pod_before {r : String} {puts : Attributes → Prop} {op : Op} {w w' : World}
    {res : op.Res} (hop : op.IsFor r puts) (h : op.Answers w res w') {p : String} {pod : Pod}
    (hpod : w'.pods.lookup p = some pod) :
    p = podNameOf r ∨ ∃ pod', w.pods.lookup p = some pod' ∧ pod.labels = pod'.labels := by
  rcases h.pod_cases p with hsame | ⟨_, _, _, rfl, -, -⟩ | ⟨pod', -, hpod', hafter⟩ |
    ⟨_, rfl, -, -⟩
  · exact Or.inr ⟨pod, hsame ▸ hpod, rfl⟩
  · exact hop.elim
  · cases hafter.symm.trans hpod
    exact Or.inr ⟨pod', hpod', rfl⟩
  · exact Or.inl hop

/-- An answer that says that the pod is there is given where it is. -/
theorem isSome_of_sawPod {op : Op} {w w' : World} {res : op.Res} (h : op.Answers w res w')
    {p : String} (hsaw : ¬ SaysNoPod p ⟨op, res⟩) : (w'.pods.lookup p).isSome = true := by
  unfold SaysNoPod at hsaw
  split at hsaw
  · rename_i name pod heq
    cases heq
    obtain ⟨rfl, hpresent⟩ := h
    rw [← not_not.mp hsaw, hpresent pod rfl]
    rfl
  · rename_i name pod _ heq
    cases heq
    obtain ⟨-, rfl⟩ := World.createPod_eq_some h
    rw [← not_not.mp hsaw]
    simp
  · exact (hsaw trivial).elim

instance {r p : String} : Serves r (Op.BindsNot p) where
  update u hu s := by
    by_contra hbinds
    obtain ⟨fields, hop, -, hname⟩ := Op.binds_iff.mp (by simpa using hbinds)
    cases hop
    exact absurd (hname.symm.trans hu.pod) (by simp)
  cache _ _ _ _ := rfl
  deletePod _ _ := rfl
  createVolume _ _ _ := rfl
  createPod _ _ := rfl

section ColdPath

variable {cfg : Settings} {body : Attributes} {w w' : World} {t : List Exchange}
  {r : Except Failure Bool}

theorem issues_coldPath (hkey : body.key ≠ "") (hsingle : body.truthy "is_multinode" = false) :
    (processReservationRequest cfg body).Issues (Op.IsFor body.key (IsRecordOf cfg body)) :=
  (meets_processReservationRequest (fun _ hitem hrecord => Or.inl ⟨hitem, rfl, hrecord⟩)
    (fun _ _ => (issues_allocateGpuResources _ _ _).meets) hkey hsingle).issues

/-- In the cold path, a pod is bound only after it has been seen or created. -/
theorem sawPod_of_binds (hkey : body.key ≠ "") (hsingle : body.truthy "is_multinode" = false)
    (h : Exec Op.Answers (processReservationRequest cfg body).run w t r w') {x : Exchange}
    (hx : x ∈ t) {s p : String} (hbinds : x.op.binds s p = true) :
    ∃ y ∈ t, ¬ SaysNoPod (podNameOf body.key) ⟨y.op, y.res⟩ := by
  by_contra hnone
  simp only [not_exists, not_and, not_not] at hnone
  have hmeets : (processReservationRequest cfg body).Meets (SaysNoPod (podNameOf body.key))
      (Op.BindsNot p) (fun _ => True) fun _ => True := meets_processReservationRequest
    (fun _ _ _ _ => rfl)
    (fun _ _ => meets_allocateGpuResources (fun _ => meets_allocateWithImage _ _) _) hkey hsingle
  have hnot := (h.within hmeets hnone).1 x hx s
  rw [hbinds] at hnot
  cases hnot

/-- The cold path of a request for one node ends with one GPU pod for it. -/
theorem endsWithOnePod_coldPath (hkey : body.key ≠ "")
    (hsingle : body.truthy "is_multinode" = false)
    (h : Exec Op.Answers (processReservationRequest cfg body).run w t r w') :
    EndsWithOnePod body.key w t w' where
  atMost := by
    refine h.keeps (K := fun v => ∀ p pod, v.pods.lookup p = some pod →
      pod.labels "app" = some "gpu-dev-pod" → p = podNameOf body.key ∨
        ∃ pod', w.pods.lookup p = some pod' ∧ pod'.labels "app" = some "gpu-dev-pod")
      (fun op v res v' hop hr hK p pod hpod happ => ?_) (issues_coldPath hkey hsingle)
      fun p pod hpod happ => Or.inr ⟨pod, hpod, happ⟩
    rcases hop.pod_before hr hpod with hown | ⟨pod', hpod', hlabels⟩
    · exact Or.inl hown
    · exact hK p pod' hpod' (hlabels ▸ happ)
  bound x hx p hbinds := by
    have hp : p = podNameOf body.key := by
      obtain ⟨fields, hop, -, hname⟩ := Op.binds_iff.mp hbinds
      have hfor := h.calls (issues_coldPath hkey hsingle) x hx
      rw [hop] at hfor
      rcases hfor.2.2 with hnone | hown
      · exact absurd (hname.symm.trans hnone) (by simp)
      · have heq := hname.symm.trans hown
        simpa using heq
    refine ⟨hp, ?_⟩
    subst hp
    obtain ⟨y, hy, hsaw⟩ := sawPod_of_binds hkey hsingle h hx hbinds
    refine h.keeps_since (P := fun _ => True) (K := fun v =>
      (v.pods.lookup (podNameOf body.key)).isSome = true)
      (fun op v res v' _ hr hK => hr.isSome_lookup hK) ?_ hy ?_
    · exact (issues_coldPath hkey hsingle).mono fun _ _ => trivial
    · exact isSome_of_sawPod (h.served y hy) hsaw

end ColdPath

/-! ### What a miss leaves -/

theorem single_of_warmPoolEligible {cfg : Settings} {body : Attributes}
    (h : warmPoolEligible cfg body = true) : body.truthy "is_multinode" = false := by
  simp only [warmPoolEligible, Bool.and_eq_true, Bool.not_eq_true'] at h
  exact h.1.1.2

/-- A claim that reports a miss leaves nothing behind exactly if it has taken no pod. -/
theorem failedClaim_leavesNothing_iff {cfg : Settings} {body : Attributes} {w w' : World}
    {t : List Exchange} (hbody : body.NamesReservation)
    (h : Exec Op.Answers (tryClaimWarmPod cfg body).run w t (.ok false) w') :
    LeavesNothing cfg body w w' ↔ ∀ x ∈ t, ¬ Takes x := by
  constructor
  · intro hnothing x hx htakes
    obtain ⟨p, pod, pod', hpod, hidle, hpod', hnone⟩ := not_ready_of_takes h hx htakes
    have hready := hnothing.pool p pod pod' hpod hidle hpod'
    rw [hnone] at hready
    cases hready
  · intro htakes
    obtain ⟨hpods, hrecords⟩ := same_of_not_takes h htakes
    refine ⟨fun p pod pod' hpod hidle hpod' => ?_, hrecords _ hbody.2,
    fun heligible t' r w'' h' => ?_⟩
    · rw [hpods, hpod] at hpod'
      cases hpod'
      simp only [Pod.isIdleWarm, Bool.and_eq_true, beq_iff_eq] at hidle
      exact hidle.2
    · have hcold := endsWithOnePod_coldPath hbody.1 (single_of_warmPoolEligible heligible) h'
      exact ⟨hpods ▸ hcold.atMost, hcold.bound⟩

/-- One idle warm pod and an empty table. -/
def oneWarmPod : World := ⟨∅, AList.insert "gpu-dev-cpu-x86-4f8c1e" idleWarmPod ∅, [], ∅⟩

/-- The script of a day on which no command runs in a pod. -/
def Script.execFails : Script :=
  { Script.fine with ask := fun
    | .exec _ => .error (.error "Handshake status 500 Internal Server Error")
    | _ => .ok true }

/-- The claim of a pod from an empty pool. -/
theorem failedClaim_leavesNothing_emptyPool :
    LeavesNothing .usual (cpuRequest "r1") ⟨∅, ∅, [], ∅⟩
      ((tryClaimWarmPod .usual (cpuRequest "r1")).result Script.fine.serve ⟨∅, ∅, [], ∅⟩).2 := by
  have hmiss : ((tryClaimWarmPod .usual (cpuRequest "r1")).result Script.fine.serve
      ⟨∅, ∅, [], ∅⟩).1 = .ok false := by decide +kernel
  have hrun := exec_run Script.fine.answers_serve (tryClaimWarmPod .usual (cpuRequest "r1")).run
    ⟨∅, ∅, [], ∅⟩
  have htaken : ∀ x ∈ (tryClaimWarmPod .usual (cpuRequest "r1")).run.exchanges Script.fine.serve
      ⟨∅, ∅, [], ∅⟩, x.op.taken.isSome = false := by decide +kernel
  refine (failedClaim_leavesNothing_iff (by decide) (hmiss ▸ hrun)).mpr fun x hx htakes => ?_
  rw [Takes, htaken x hx] at htakes
  cases htakes.1

/-- A claim that cannot run its command reports a miss, and the pod has left the pool. -/
theorem failedClaim_not_leavesNothing_execFails :
    (∃ t, Exec Op.Answers (tryClaimWarmPod .usual (cpuRequest "r1")).run oneWarmPod t (.ok false)
      ((tryClaimWarmPod .usual (cpuRequest "r1")).result Script.execFails.serve oneWarmPod).2) ∧
    ¬ LeavesNothing .usual (cpuRequest "r1") oneWarmPod
      ((tryClaimWarmPod .usual (cpuRequest "r1")).result Script.execFails.serve oneWarmPod).2 := by
  have hmiss : ((tryClaimWarmPod .usual (cpuRequest "r1")).result Script.execFails.serve
      oneWarmPod).1 = .ok false := by decide +kernel
  refine ⟨⟨_, hmiss ▸ exec_run Script.execFails.answers_serve _ oneWarmPod⟩, fun hnothing => ?_⟩
  have hleft : (((tryClaimWarmPod .usual (cpuRequest "r1")).result Script.execFails.serve
      oneWarmPod).2.pods.lookup "gpu-dev-cpu-x86-4f8c1e").any
        (fun pod => (pod.labels "warm-state").isNone) = true := by decide +kernel
  obtain ⟨pod', hpod', hnone⟩ := (Option.any_eq_true _ _).mp hleft
  have hready := hnothing.pool _ idleWarmPod pod' (AList.lookup_insert _) (by decide) hpod'
  rw [hready] at hnone
  cases hnone

end CiInfra.GpuDev

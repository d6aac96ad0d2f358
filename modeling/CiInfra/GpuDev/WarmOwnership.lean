import CiInfra.GpuDev.EndedReservations

/-!
# Whose a warm pod is

Claims, the upkeep of the pool and evictions each act on a listing of pods that they have read,
and nothing they do to a pod carries a condition. A warm pod has one owner if none of them
takes or deletes a pod that has left the pool since its listing, and no claim takes a pod that
was being deleted already.
-/

namespace CiInfra.GpuDev

open Interaction Fallible

/-! ### The parties -/

/-- What acts on the warm pool. -/
inductive PoolActivity
  /-- `try_claim_warm_pod`. -/
  | claim (body : Attributes)
  /-- `reconcile_warm_pool`. -/
  | upkeep
  /-- `_evict_warm_for_capacity`. -/
  | eviction (gpuType : String) (gpusRequested : ℕ) (readyNodes : List ReadyNode)

/-- The program of an activity. -/
def PoolActivity.program (cfg : Settings) : PoolActivity → Program Op Op.Res Unit
  | claim body => toItsEnd (tryClaimWarmPod cfg body)
  | upkeep => toItsEnd (reconcileWarmPool cfg)
  | eviction gpuType gpusRequested readyNodes =>
    toItsEnd (evictWarmForCapacity gpuType gpusRequested readyNodes)

/-- A call made in the upkeep of the pool or in an eviction: no record is written, and labels are
left alone. -/
def Op.IsUpkeep : Op → Prop
  | updateItem _ _ | putItem _ _ | deleteItem _ | createVolume _ _ => False
  | patchPod _ labels _ => labels = []
  | _ => True

instance : AllowsQuiet Op.IsUpkeep where
  quiet op h := by cases op <;> first | cases h; done | trivial

section Upkeep

variable {cfg : Settings}

theorem issues_recycleWarmPod (p : NamedPod) : (recycleWarmPod p).Issues Op.IsUpkeep := by
  refine Issues.orElseGive ?_ _
  refine Issues.bind (issues_request ?_) fun _ => (Issues.logged (issues_quiet rfl)).bind fun _ =>
    (Issues.whenever _ (Issues.logged (issues_quiet rfl))).bind fun _ => trivial
  trivial

theorem issues_recycle (p : NamedPod) : (recycle p).Issues Op.IsUpkeep :=
  (issues_recycleWarmPod p).bind fun _ => trivial

theorem issues_createWarmPod (gpuType : String) (gpuCount : ℕ) :
    (createWarmPod gpuType gpuCount).Issues Op.IsUpkeep := by
  refine (issues_quiet rfl).bind fun _ => Issues.bind (issues_request ?_) fun _ => Issues.logged
    ((issues_quiet rfl).bind fun _ => issues_quiet rfl)
  trivial

theorem issues_provisionWarmPod (p : NamedPod) : (provisionWarmPod p).Issues Op.IsUpkeep := by
  have hdomain : ∀ dnsEnabled : Bool, Issues Op.IsUpkeep (if dnsEnabled then (do
      let domain ← read (.dnsName "warm")
      attempt (.domainMapping domain)
      return domain) else return "-" : Lambda String) := by
    intro dnsEnabled
    split
    · exact (issues_quiet rfl).bind fun _ => (issues_quiet rfl).bind fun _ => trivial
    · trivial
  unfold provisionWarmPod
  split
  · trivial
  · refine Issues.bind (Issues.orElseGive ?_ _) fun nodePort => ?_
    · exact (issues_quiet rfl).bind fun _ => trivial
    · split
      · trivial
      · refine (issues_quiet rfl).bind fun _ => (Issues.orElseGive (issues_quiet rfl) _).bind
          fun _ => (Issues.orElseGive (issues_quiet rfl) _).bind fun _ =>
          (issues_quiet rfl).bind fun dnsEnabled =>
          (Issues.orElseGive (hdomain dnsEnabled) _).bind fun _ => issues_request ?_
        exact rfl

theorem issues_recycleSpent (pods : List NamedPod) :
    (recycleSpent cfg pods).Issues Op.IsUpkeep := by
  induction pods with
  | nil => trivial
  | cons p ps ih =>
    rw [recycleSpent]
    split
    · exact ih
    · refine Issues.bind ?_ fun spent => ?_
      · exact (Issues.orElseGive (issues_quiet rfl) _).bind fun _ => trivial
      · split
        · exact (issues_recycle p).bind fun _ => ih
        · exact ih.bind fun _ => trivial

theorem issues_rotateOne (desired : String) (pods : List NamedPod) :
    (rotateOne desired pods).Issues Op.IsUpkeep := by
  induction pods with
  | nil => trivial
  | cons p ps ih =>
    rw [rotateOne]
    split
    · exact ih.bind fun _ => trivial
    · refine (Issues.orElseGive (issues_quiet rfl) _).bind fun running => ?_
      split
      · refine (issues_recycleWarmPod p).bind fun recycled => ?_
        split <;> trivial
      · exact ih.bind fun _ => trivial

theorem issues_reconcileType (desired gpuType : String) (target : ℕ) :
    (reconcileType cfg desired gpuType target).Issues Op.IsUpkeep := by
  have hrest : ∀ live : List NamedPod, Issues Op.IsUpkeep (do
      (live.filter fun p => p.2.labels "warm-state" == some "ready").forM fun p =>
        logged (provisionWarmPod p)
      logged ((List.replicate (target - live.length) gpuType).forM fun t =>
        createWarmPod t (warmGpuCount t)) : Lambda Unit) := fun live =>
    (Issues.forM fun p _ => (issues_provisionWarmPod p).logged).bind fun _ =>
      Issues.logged (Issues.forM fun _ _ => issues_createWarmPod _ _)
  refine (issues_quiet rfl).bind fun pods => (issues_recycleSpent pods).bind fun live =>
    (Issues.forM fun p _ => issues_recycle p).bind fun _ => ?_
  dsimp only
  split
  · exact (issues_rotateOne _ _).bind fun live => hrest live
  · exact (issues_pure _).bind fun live => hrest live

theorem issues_reconcileWarmPool : (reconcileWarmPool cfg).Issues Op.IsUpkeep := by
  refine (Issues.orElseGive (issues_quiet rfl) _).bind fun desired =>
    (Issues.forM fun t _ => (issues_reconcileType desired t.1 t.2).logged).bind fun _ =>
    Issues.logged ((issues_quiet rfl).bind fun pods => Issues.forM fun p _ => ?_)
  exact Issues.whenever _ (issues_recycle p)

end Upkeep

/-- A call of any activity. -/
def Op.IsPooling (r : String) (op : Op) : Prop := op.IsClaimFor r ∨ op.IsUpkeep

/-- The reservation that an activity serves, if any. -/
def PoolActivity.reservation : PoolActivity → String
  | claim body => body.key
  | _ => ""

theorem PoolActivity.pooling (cfg : Settings) (activity : PoolActivity) :
    (activity.program cfg).OnlyCalls (Op.IsPooling activity.reservation) := by
  cases activity with
  | claim body => exact (onlyCalls_toItsEnd issues_tryClaimWarmPod).mono fun _ h => Or.inl h
  | upkeep => exact (onlyCalls_toItsEnd issues_reconcileWarmPool).mono fun _ h => Or.inr h
  | eviction gpuType gpusRequested readyNodes =>
    exact (onlyCalls_toItsEnd (issues_evictWarmForCapacity (P := Op.IsUpkeep) (fun _ => trivial)
      gpuType gpusRequested readyNodes)).mono fun _ h => Or.inr h

/-! ### One owner -/

/-- The pod is labelled as an idle standby and is not being deleted. -/
def Pod.isClaimable (pod : Pod) : Bool := pod.isIdleWarm && !pod.deletionRequested

namespace World

/-- The pod is in the pool and can be claimed. -/
def isClaimable (w : World) (p : String) : Bool := (w.pods.lookup p).any Pod.isClaimable

/-- The pod is one of the pool, whatever its state. -/
def isWarm (w : World) (p : String) : Bool :=
  (w.pods.lookup p).any fun pod => pod.labels "app" == some "gpu-dev-warm"

/-- The pod has been graduated out of the pool. -/
def isGraduated (w : World) (p : String) : Bool :=
  (w.pods.lookup p).any fun pod => pod.labels "app" == some "gpu-dev-pod"

/-- The deletion of the pod has been requested. -/
def isBeingDeleted (w : World) (p : String) : Bool := (w.pods.lookup p).any (·.deletionRequested)

end World

/-- The surroundings start pods, let them vanish and change the table as they like, but they keep
the labels of pods and do not ask for their deletion. -/
def KeepsLabels (w w' : World) : Prop :=
  ∀ p pod pod', w.pods.lookup p = some pod → w'.pods.lookup p = some pod' →
    pod'.labels = pod.labels ∧ pod'.deletionRequested = pod.deletionRequested

/-- The call binds a pod to a reservation: it makes the record active with that pod. -/
def Op.binds (r p : String) : Op → Bool
  | updateItem id (.set fields) => id = r &&
    (Attributes.ofList fields).isOneOf "status" ["active"] &&
    (Attributes.ofList fields).isOneOf "pod_name" [p]
  | _ => false

theorem Attributes.isOneOf_singleton {a : Attributes} {name s : String} :
    a.isOneOf name [s] = true ↔ a name = some (.text s) := by
  unfold isOneOf
  split
  · rename_i t h
    simp [h]
  · rename_i h
    simpa using h s

/-- A call that binds is an update with the status and the name of the pod. -/
theorem Op.binds_iff {r p : String} {op : Op} : op.binds r p = true ↔
    ∃ fields, op = .updateItem r (.set fields) ∧
      Attributes.ofList fields "status" = some (.text "active") ∧
      Attributes.ofList fields "pod_name" = some (.text p) := by
  constructor
  · intro h
    unfold binds at h
    split at h
    · simp only [Bool.and_eq_true, decide_eq_true_eq, Attributes.isOneOf_singleton] at h
      obtain ⟨⟨rfl, hstatus⟩, hpod⟩ := h
      exact ⟨_, rfl, hstatus, hpod⟩
    · cases h
  · rintro ⟨fields, rfl, hstatus, hpod⟩
    simp [binds, Attributes.isOneOf_singleton, hstatus, hpod]

/-- The pod that a call takes out of the pool, if it can. -/
def Op.taken : Op → Option String
  | patchPod name (_ :: _) _ => some name
  | _ => none

/-- The pod whose deletion a call asks for. -/
def Op.deleted : Op → Option String
  | deletePod name => some name
  | _ => none

section Ownership

variable {ι : Type}

/-- Each pod is bound to one reservation at most, none is bound whose deletion has been requested,
and the deletion of none is requested once it has been graduated. -/
structure OneOwner (es : List (Occurrence ι)) : Prop where
  unique : ∀ d ∈ es, ∀ e ∈ es, ∀ c ∈ d.call, ∀ c' ∈ e.call, ∀ p r r',
    c.2.1.binds r p = true → c'.2.1.binds r' p = true → r = r'
  alive : ∀ later e earlier, es = later ++ e :: earlier → ∀ c ∈ e.call, ∀ p r,
    c.2.1.binds r p = true →
    ∀ d ∈ e :: earlier, d.before.isBeingDeleted p = false
  kept : ∀ later e earlier, es = later ++ e :: earlier → ∀ c ∈ e.call, ∀ p ∈ c.2.1.deleted,
    ∀ d ∈ e :: earlier, d.before.isGraduated p = false

/-! ### Acting on a listing that is up to date -/

variable [DecidableEq ι]

/-- An activity lists a pod that satisfies a condition. -/
def lists (c : Pod → Bool) (i : ι) (p : String) (e : Occurrence ι) : Bool :=
  match e.call with
  | some (j, ⟨.listWarmPods _ _, .ok pods⟩) => j = i && pods.any fun q => q.1 = p && c q.2
  | _ => false

/-- A call by which a pod leaves the pool. -/
def leavesPool (p : String) (e : Occurrence ι) : Bool :=
  e.call.isSome && e.before.isClaimable p && !e.after.isClaimable p

/-- A call by which a pod is graduated. -/
def graduates (p : String) (e : Occurrence ι) : Bool :=
  e.call.isSome && e.before.isWarm p && !e.after.isWarm p

/-- A pod that is taken has been listed as idle and not being deleted, and has not left the pool
since; a pod whose deletion is requested has been listed and has not been graduated since; and a
new pod has a name that none has had. -/
structure OnFreshListing (past : List (Occurrence ι)) (e : Occurrence ι) : Prop where
  takes : ∀ c ∈ e.call, ∀ p ∈ c.2.1.taken,
    LookedSince (fun _ l => lists Pod.isClaimable c.1 p l = true)
      (fun d => leavesPool p d = true) past
  deletes : ∀ c ∈ e.call, ∀ p ∈ c.2.1.deleted,
    LookedSince (fun _ l => lists (fun _ => true) c.1 p l = true)
      (fun d => graduates p d = true) past
  fresh : ∀ p ∈ e.after.pods.keys, e.before.pods.lookup p = none →
    ∀ d ∈ past, d.before.pods.lookup p = none

end Ownership

/-! ### What happens to one pod -/

/-- What a call makes of a pod: it leaves it alone, patches it, asks for its deletion or
creates it. -/
theorem Op.Answers.pod_cases {op : Op} {w w' : World} {res : op.Res} (h : op.Answers w res w')
    (p : String) :
    w'.pods.lookup p = w.pods.lookup p ∨
      (∃ pod labels annotations, op = .patchPod p labels annotations ∧
        w.pods.lookup p = some pod ∧ w'.pods.lookup p = some (pod.patch labels annotations)) ∨
      (∃ pod, op = .deletePod p ∧ w.pods.lookup p = some pod ∧
        w'.pods.lookup p = some { pod with deletionRequested := true }) ∨
      ∃ pod, op = .createPod p pod ∧ w.pods.lookup p = none ∧ w'.pods.lookup p = some pod := by
  rcases h.cases with rfl | heffect
  · exact Or.inl rfl
  cases op with
  | patchPod name labels annotations =>
    obtain ⟨pod, hpod, rfl⟩ := World.modifyPod_eq_some heffect
    by_cases hname : p = name
    · subst hname
      exact Or.inr (Or.inl ⟨pod, labels, annotations, rfl, hpod, AList.lookup_insert _⟩)
    · exact Or.inl (AList.lookup_insert_ne hname)
  | deletePod name =>
    obtain ⟨pod, hpod, rfl⟩ := World.modifyPod_eq_some heffect
    by_cases hname : p = name
    · subst hname
      exact Or.inr (Or.inr (Or.inl ⟨pod, rfl, hpod, AList.lookup_insert _⟩))
    · exact Or.inl (AList.lookup_insert_ne hname)
  | createPod name new =>
    obtain ⟨hnone, rfl⟩ := World.createPod_eq_some heffect
    by_cases hname : p = name
    · subst hname
      exact Or.inr (Or.inr (Or.inr ⟨new, rfl, hnone, AList.lookup_insert _⟩))
    · exact Or.inl (AList.lookup_insert_ne hname)
  | putItem item condition =>
    obtain ⟨t', -, rfl⟩ := World.withTable_eq_some heffect
    exact Or.inl rfl
  | updateItem id u =>
    obtain ⟨t', -, rfl⟩ := World.withTable_eq_some heffect
    exact Or.inl rfl
  | deleteItem id =>
    obtain ⟨t', -, rfl⟩ := World.withTable_eq_some heffect
    exact Or.inl rfl
  | _ => cases heffect; exact Or.inl rfl

theorem patch_graduationLabels (labels : Kube.Dict) :
    labels.patch graduationLabels "app" = some "gpu-dev-pod" := rfl

/-! ### A claim binds what it has taken -/

/-- The call does not bind a pod to any reservation. -/
def Op.BindsNot (p : String) (op : Op) : Prop := ∀ r, op.binds r p = false

instance {p : String} : AllowsQuiet (Op.BindsNot p) where
  quiet op h := by cases op <;> first | exact fun _ => rfl | cases h

/-- The answer to a call does not say that it has taken the pod. -/
def HasNotTaken (p : String) (c : Program.Event Op Op.Res) : Prop :=
  ¬ (p ∈ c.1.taken ∧ c.1.wentThrough c.2 = true)

section Claim

variable {cfg : Settings} {body : Attributes} {p : String}

/-- The record of a claim is bound to its candidate. -/
theorem bindsNot_recordClaim {gpuCount : ℤ} {candidate : NamedPod} (hne : candidate.1 ≠ p) :
    (recordClaim cfg body gpuCount candidate).Issues (Op.BindsNot p) := by
  refine issues_recordClaim_of (fun _ _ _ r => rfl)
    (fun info hinfo v _ _ _ _ _ _ r => ?_) fun trace r => ?_
  · by_contra hbinds
    obtain ⟨fields, h, -, hpod⟩ := Op.binds_iff.mp (by simpa using hbinds)
    cases h
    rw [podName_activeFields, hinfo] at hpod
    exact hne (by simpa using hpod)
  · by_contra hbinds
    obtain ⟨fields, h, hactive, -⟩ := Op.binds_iff.mp (by simpa using hbinds)
    cases h
    cases hactive

/-- A claim binds a pod only after it has been told that it has taken it. -/
theorem within_claimWarmPod :
    (claimWarmPod cfg body).Meets (HasNotTaken p) (Op.BindsNot p) (fun _ => True)
      fun _ => True := by
  refine (issues_intOf _ _ _).meets.bind fun gpuCount _ => ?_
  split
  · exact meets_pure trivial
  · refine (issues_getGithubPublicKey (fun _ _ _ r => rfl) _).meets.bind fun key _ => ?_
    split
    · exact meets_pure trivial
    · refine (issues_quiet rfl).meets.bind fun pods _ => ?_
      split
      · exact meets_pure trivial
      · rename_i candidate hcandidate
        refine Meets.bind (Q := fun _ => candidate.1 ≠ p) (meets_request (fun r => rfl)
          (fun res a htaken hok hname => ?_) fun _ _ _ _ => trivial)
          fun _ hne => (bindsNot_recordClaim hne).meets
        refine htaken ⟨congrArg some hname, ?_⟩
        have hres : res = .ok a := hok
        rw [hres]
        rfl

theorem PoolActivity.within (activity : PoolActivity) :
    (activity.program cfg).Within (HasNotTaken p) (Op.BindsNot p) fun _ => True := by
  have hupkeep : ∀ op : Op, op.IsUpkeep → op.BindsNot p := by
    intro op hop r
    cases op with
    | updateItem id u => exact hop.elim
    | _ => rfl
  cases activity with
  | claim body =>
    have hclaim : (tryClaimWarmPod cfg body).Meets (HasNotTaken p) (Op.BindsNot p) (fun _ => True)
        fun _ => True := within_claimWarmPod.orElseGive trivial
    exact within_toItsEnd hclaim
  | upkeep =>
    exact ((onlyCalls_toItsEnd issues_reconcileWarmPool).mono hupkeep).within
  | eviction gpuType gpusRequested readyNodes =>
    exact ((onlyCalls_toItsEnd (issues_evictWarmForCapacity (P := Op.IsUpkeep) (fun _ => trivial)
      gpuType gpusRequested readyNodes)).mono hupkeep).within

end Claim

section Runs

variable {cfg : Settings} {ι : Type} [DecidableEq ι] {activity : ι → PoolActivity} {w : World}
  {S T : System ι Op Op.Res Unit World} {es later earlier : List (Occurrence ι)}
  {e l : Occurrence ι}
  {i : ι} {p : String}

/-- A pod that has vanished is not replaced by another of its name. -/
theorem stays_vanished (hfresh : Throughout OnFreshListing (later ++ e :: earlier))
    (hl : l ∈ earlier) (hpresent : l.before.pods.lookup p ≠ none)
    (hnone : e.before.pods.lookup p = none) : e.after.pods.lookup p = none := by
  by_contra hback
  have hkey : p ∈ e.after.pods.keys := AList.lookup_isSome.mp (Option.isSome_iff_ne_none.mpr hback)
  exact hpresent (hfresh.at.fresh p hkey hnone l hl)

/-- What holds of a pod after a happening holds of it later, as long as it is there and no
happening ends it. -/
theorem kept_after (h : History Op.Answers KeepsLabels S (later ++ l :: earlier) T)
    (hfresh : Throughout OnFreshListing (later ++ l :: earlier))
    (hpresent : l.before.pods.lookup p ≠ none) {K : Pod → Prop}
    (hl : ∀ pod, l.after.pods.lookup p = some pod → K pod)
    (hkeep : ∀ d ∈ later, ∀ pod pod', d.before.pods.lookup p = some pod →
      d.after.pods.lookup p = some pod' → K pod → K pod') :
    ∀ pod, T.state.pods.lookup p = some pod → K pod := by
  refine h.holds_since (K := fun w => ∀ pod, w.pods.lookup p = some pod → K pod) hl
    fun d hd hbefore pod' hafter => ?_
  cases hpod : d.before.pods.lookup p with
  | some pod => exact hkeep d hd pod pod' hpod hafter (hbefore pod hpod)
  | none =>
    obtain ⟨x, y, rfl⟩ := List.append_of_mem hd
    rw [List.append_assoc] at hfresh
    have hgone := stays_vanished hfresh (by simp) hpresent hpod
    rw [hgone] at hafter
    cases hafter

/-- What holds of a pod when something happens holds of it later, as long as it is there and no
happening ends it. -/
theorem kept_from (h : History Op.Answers KeepsLabels S (later ++ l :: earlier) T)
    (hfresh : Throughout OnFreshListing (later ++ l :: earlier)) {K : Pod → Prop} {pod : Pod}
    (hpod : l.before.pods.lookup p = some pod) (hl : K pod)
    (hkeep : ∀ d ∈ later ++ [l], ∀ pod pod', d.before.pods.lookup p = some pod →
      d.after.pods.lookup p = some pod' → K pod → K pod') :
    ∀ pod, T.state.pods.lookup p = some pod → K pod :=
  kept_after h hfresh (by rw [hpod]; exact Option.some_ne_none pod)
    (fun pod' hafter => hkeep l (by simp) pod pod' hpod hafter hl)
    fun d hd => hkeep d (List.mem_append_left _ hd)

/-- A listing shows a pod as it is, and leaves it so. -/
theorem lists_eq_true {c : Pod → Bool} (h : History Op.Answers KeepsLabels S es T) (hl : l ∈ es)
    (hlists : lists c i p l = true) : l.after = l.before ∧
      ∃ pod, l.before.pods.lookup p = some pod ∧ pod.labels "app" = some "gpu-dev-warm" ∧
        c pod = true := by
  unfold lists at hlists
  split at hlists
  · rename_i j gpuType state pods hcall
    rw [Bool.and_eq_true, List.any_eq_true] at hlists
    obtain ⟨-, q, hq, hqp⟩ := hlists
    rw [Bool.and_eq_true, decide_eq_true_eq] at hqp
    obtain ⟨heq, hread⟩ := h.served hl hcall
    have hpods : l.before.warmPods gpuType state = pods := Option.some.inj (hread pods rfl)
    rw [← hpods, World.warmPods, List.mem_filter, World.mem_namedPods, hqp.1] at hq
    refine ⟨heq, q.2, hq.1, ?_, hqp.2⟩
    have hwarm := hq.2
    simp only [Pod.matchesWarm, Bool.and_eq_true, beq_iff_eq] at hwarm
    exact hwarm.1.1
  · cases hlists

/-- A listing takes no pod. -/
theorem taken_of_lists {c : Pod → Bool} (hlists : lists c i p l = true)
    {a : ι × Program.Event Op Op.Res} (ha : a ∈ l.call) : a.2.1.taken = none := by
  unfold lists at hlists
  split at hlists
  · rename_i hcall
    rw [hcall] at ha
    cases ha
    rfl
  · cases hlists

/-- What a happening makes of a pod that stays: its labels are kept or show that it has been
graduated, and its deletion is requested if it was before or by this happening. -/
theorem pod_step
    (h : History Op.Answers KeepsLabels ⟨w, fun i => (activity i).program cfg⟩ es T) (he : e ∈ es)
    {pod pod' : Pod} (hpod : e.before.pods.lookup p = some pod)
    (hafter : e.after.pods.lookup p = some pod') :
    (pod'.labels = pod.labels ∨ pod'.labels "app" = some "gpu-dev-pod") ∧
      (pod'.deletionRequested = pod.deletionRequested ∨
        pod'.deletionRequested = true ∧ ∃ c ∈ e.call, p ∈ c.2.1.deleted) := by
  cases hcall : e.call with
  | none =>
    obtain ⟨hlabels, hdeleted⟩ := (h.changed he hcall : KeepsLabels _ _) p pod pod' hpod hafter
    exact ⟨Or.inl hlabels, Or.inl hdeleted⟩
  | some c =>
    obtain ⟨i, op, res⟩ := c
    have hop := h.calls (fun i => (activity i).pooling cfg) he hcall
    rcases (h.served he hcall).pod_cases p with hsame | ⟨q, labels, annotations, rfl, hq, hq'⟩ |
      ⟨q, rfl, hq, hq'⟩ | ⟨-, -, hnone, -⟩
    · rw [hafter, hpod] at hsame
      cases hsame
      exact ⟨Or.inl rfl, Or.inl rfl⟩
    · rw [hpod] at hq
      cases hq
      rw [hafter] at hq'
      cases hq'
      refine ⟨?_, Or.inl rfl⟩
      rcases hop with hclaim | hupkeep
      · obtain rfl : labels = graduationLabels := hclaim
        exact Or.inr (patch_graduationLabels pod.labels)
      · obtain rfl : labels = [] := hupkeep
        exact Or.inl rfl
    · rw [hpod] at hq
      cases hq
      rw [hafter] at hq'
      cases hq'
      exact ⟨Or.inl rfl, Or.inr ⟨rfl, _, rfl, rfl⟩⟩
    · rw [hpod] at hnone
      cases hnone

/-- A graduated pod stays so as long as it is there. -/
theorem graduated_from
    (h : History Op.Answers KeepsLabels ⟨w, fun i => (activity i).program cfg⟩
      (later ++ l :: earlier) T)
    (hfresh : Throughout OnFreshListing (later ++ l :: earlier))
    (hl : l.before.isGraduated p = true) :
    ∀ pod, T.state.pods.lookup p = some pod → pod.labels "app" = some "gpu-dev-pod" := by
  obtain ⟨pod, hpod, hgraduated⟩ : ∃ pod, l.before.pods.lookup p = some pod ∧
      pod.labels "app" = some "gpu-dev-pod" := by
    simpa [World.isGraduated, Option.any_eq_true] using hl
  refine kept_from h hfresh hpod hgraduated fun d hd pod pod' hbefore hafter hK => ?_
  have hmem : d ∈ later ++ l :: earlier := by
    rcases List.mem_append.mp hd with hd | hd
    · exact List.mem_append_left _ hd
    · simp [List.mem_singleton.mp hd]
  rcases (pod_step h hmem hbefore hafter).1 with hlabels | hgraduated
  · rw [hlabels, hK]
  · exact hgraduated

/-- A pod that is taken in time is claimable, if it is still there. -/
theorem claimable_of_lookedSince
    (h : History Op.Answers KeepsLabels ⟨w, fun i => (activity i).program cfg⟩ es T)
    (hfresh : Throughout OnFreshListing es)
    (hsince : LookedSince (fun _ l => lists Pod.isClaimable i p l = true)
      (fun d => leavesPool p d = true) es) :
    ∀ pod, T.state.pods.lookup p = some pod → pod.isClaimable = true := by
  obtain ⟨later, l, earlier, rfl, hlists, huntouched⟩ := hsince.split
  obtain ⟨hsame, pod, hpod, -, hclaimable⟩ := lists_eq_true h (by simp) hlists
  refine kept_from h hfresh hpod hclaimable fun d hd pod pod' hbefore hafter hK => ?_
  have hmem : d ∈ later ++ l :: earlier := by
    rcases List.mem_append.mp hd with hd | hd
    · exact List.mem_append_left _ hd
    · simp [List.mem_singleton.mp hd]
  cases hcall : d.call with
  | none =>
    obtain ⟨hlabels, hdeleted⟩ := (h.changed hmem hcall : KeepsLabels _ _) p pod pod' hbefore hafter
    simpa only [Pod.isClaimable, Pod.isIdleWarm, hlabels, hdeleted] using hK
  | some c =>
    have hstays := huntouched d hd
    simpa [leavesPool, hcall, World.isClaimable, hbefore, hafter, hK] using hstays

/-- A listed pod of the pool is one of the pool as long as it is there, if no call graduates it. -/
theorem warm_of_lookedSince
    (h : History Op.Answers KeepsLabels ⟨w, fun i => (activity i).program cfg⟩
      (later ++ l :: earlier) T)
    (hfresh : Throughout OnFreshListing (later ++ l :: earlier)) {c : Pod → Bool}
    (hlists : lists c i p l = true) (huntouched : ∀ d ∈ later ++ [l], ¬ graduates p d = true) :
    ∀ pod, T.state.pods.lookup p = some pod → pod.labels "app" = some "gpu-dev-warm" := by
  obtain ⟨hsame, pod, hpod, hwarm, -⟩ := lists_eq_true h (by simp) hlists
  refine kept_from h hfresh hpod hwarm fun d hd pod pod' hbefore hafter hK => ?_
  have hmem : d ∈ later ++ l :: earlier := by
    rcases List.mem_append.mp hd with hd | hd
    · exact List.mem_append_left _ hd
    · simp [List.mem_singleton.mp hd]
  cases hcall : d.call with
  | none =>
    rw [((h.changed hmem hcall : KeepsLabels _ _) p pod pod' hbefore hafter).1, hK]
  | some c =>
    have hstays := huntouched d hd
    simpa [graduates, hcall, World.isWarm, hbefore, hafter, hK] using hstays

/-- A pod that is listed as one of the pool has never been graduated. -/
theorem not_graduated_of_listed
    (h : History Op.Answers KeepsLabels ⟨w, fun i => (activity i).program cfg⟩
      (later ++ l :: earlier) T)
    (hfresh : Throughout OnFreshListing (later ++ l :: earlier)) {c : Pod → Bool}
    (hlists : lists c i p l = true) : ∀ d ∈ l :: earlier, d.before.isGraduated p = false := by
  obtain ⟨-, pod, hpod, hwarm, -⟩ := lists_eq_true h (by simp) hlists
  intro d hd
  rcases List.mem_cons.mp hd with rfl | hd
  · simp [World.isGraduated, hpod, hwarm]
  · obtain ⟨x, y, rfl⟩ := List.append_of_mem hd
    obtain ⟨U, hU, hbefore⟩ := h.before
    by_contra hgraduated
    have hK := graduated_from hU hfresh.earlier.2 (by simpa using hgraduated) pod (hbefore ▸ hpod)
    simp [hwarm] at hK

/-- A pod whose deletion is requested in time has not been graduated. -/
theorem not_graduated_of_deleted
    (h : History Op.Answers KeepsLabels ⟨w, fun i => (activity i).program cfg⟩
      (later ++ e :: earlier) T)
    (hfresh : Throughout OnFreshListing (later ++ e :: earlier)) {c : ι × Program.Event Op Op.Res}
    (hc : c ∈ e.call) (hp : p ∈ c.2.1.deleted) :
    ∀ d ∈ e :: earlier, d.before.isGraduated p = false := by
  intro d hd
  obtain ⟨y, l, z, rfl, hlists, huntouched⟩ := (hfresh.at.deletes c hc p hp).split
  rw [← List.cons_append, List.mem_append] at hd
  rcases hd with hd | hd
  · -- Since the listing, no call has graduated the pod.
    obtain ⟨a, b, hab⟩ := List.append_of_mem hd
    have hb : ∀ m ∈ b, m ∈ y := by
      cases a with
      | nil => cases hab; exact fun m hm => hm
      | cons _ a => cases hab; exact fun m hm => by simp [hm]
    rw [← List.cons_append, hab, List.append_assoc, ← List.append_assoc,
      List.cons_append] at h hfresh
    obtain ⟨U, hU, hbefore⟩ := h.before
    have hK := warm_of_lookedSince hU hfresh.earlier.2 hlists fun m hm => huntouched m <| by
      rcases List.mem_append.mp hm with hm | hm
      · exact List.mem_append_left _ (hb m hm)
      · exact List.mem_append_right _ hm
    by_contra hgraduated
    obtain ⟨pod, hpod, hgraduated⟩ : ∃ pod, d.before.pods.lookup p = some pod ∧
        pod.labels "app" = some "gpu-dev-pod" := by
      simpa [World.isGraduated, Option.any_eq_true] using hgraduated
    simp [hK pod (hbefore ▸ hpod)] at hgraduated
  · rw [← List.cons_append, ← List.append_assoc] at h hfresh
    exact not_graduated_of_listed h hfresh hlists d hd

/-- A pod that a call takes out of the pool with success is graduated by it. -/
theorem graduated_of_taken {op : Op} {w w' : World} {res : op.Res} (h : op.Answers w res w')
    (hop : ∃ r, op.IsPooling r) (hp : p ∈ op.taken) (hok : op.wentThrough res = true) :
    ∃ pod pod', w.pods.lookup p = some pod ∧ w'.pods.lookup p = some pod' ∧
      pod'.labels "app" = some "gpu-dev-pod" := by
  cases op with
  | patchPod name labels annotations =>
    cases labels with
    | nil => cases hp
    | cons label labels =>
      obtain rfl : name = p := Option.some.inj hp
      obtain ⟨pod, hpod, rfl⟩ := World.modifyPod_eq_some (Op.effect_of_wentThrough h hok)
      refine ⟨pod, _, hpod, AList.lookup_insert _, ?_⟩
      obtain ⟨r, hclaim | hupkeep⟩ := hop
      · have hlabels : label :: labels = graduationLabels := hclaim
        rw [hlabels]
        exact patch_graduationLabels pod.labels
      · cases hupkeep
  | _ => cases hp

/-- A pod that has been taken with success is not taken again. -/
theorem not_taken_again
    (h : History Op.Answers KeepsLabels ⟨w, fun i => (activity i).program cfg⟩
      (later ++ e :: earlier) T)
    (hfresh : Throughout OnFreshListing (later ++ e :: earlier)) {c : ι × Program.Event Op Op.Res}
    (hc : c ∈ e.call) (hp : p ∈ c.2.1.taken) {d : Occurrence ι} (hd : d ∈ earlier)
    {c' : ι × Program.Event Op Op.Res} (hc' : c' ∈ d.call) (hp' : p ∈ c'.2.1.taken)
    (hok : c'.2.1.wentThrough c'.2.2 = true) : False := by
  have hmem : d ∈ later ++ e :: earlier := by simp [hd]
  obtain ⟨pod, pod', hpod, hpod', hgraduated⟩ := graduated_of_taken (h.served hmem hc')
    ⟨_, h.calls (fun i => (activity i).pooling cfg) hmem hc'⟩ hp' hok
  obtain ⟨y, l, z, rfl, hlists, huntouched⟩ := (hfresh.at.takes c hc p hp).split
  rw [← List.cons_append, ← List.append_assoc] at h hfresh
  rcases List.mem_append.mp hd with hdy | hdz
  · -- The pod was claimable until it was taken, and has not left the pool since the listing.
    obtain ⟨a, b, hab⟩ := List.append_of_mem hdy
    have hclaimable : pod.isClaimable = true := by
      have hsplit : later ++ e :: y ++ l :: z = (later ++ e :: a) ++ d :: (b ++ l :: z) := by
        simp [hab]
      rw [hsplit] at h hfresh
      obtain ⟨U, hU, hbefore⟩ := h.before
      exact claimable_of_lookedSince hU hfresh.earlier.2 (hfresh.at.takes c' hc' p hp') pod
        (hbefore ▸ hpod)
    have hnot : pod'.isClaimable = false := by
      simp [Pod.isClaimable, Pod.isIdleWarm, hgraduated]
    have hstays := huntouched d (List.mem_append_left _ hdy)
    simp [leavesPool, Option.isSome_of_mem hc', World.isClaimable, hpod, hpod', hclaimable,
      hnot] at hstays
  · rcases List.mem_cons.mp hdz with rfl | hdz
    · rw [taken_of_lists hlists hc'] at hp'
      cases hp'
    · obtain ⟨d', hd', heq⟩ := h.next hdz
      have hnone := not_graduated_of_listed h hfresh hlists d' hd'
      simp [World.isGraduated, heq, hpod', hgraduated] at hnone

/-- A pod that is bound has been taken by the same claim before. -/
theorem taken_of_binds {r : String}
    (h : History Op.Answers KeepsLabels ⟨w, fun i => (activity i).program cfg⟩
      (later ++ e :: earlier) T) {c : ι × Program.Event Op Op.Res} (hc : c ∈ e.call)
    (hbinds : c.2.1.binds r p = true) :
    ∃ d ∈ earlier, ∃ c' ∈ d.call, c'.1 = c.1 ∧ p ∈ c'.2.1.taken ∧
      c'.2.1.wentThrough c'.2.2 = true := by
  obtain ⟨d, hd, c', hcall, hnot⟩ := h.exists_before (@PoolActivity.within cfg p (activity c.1))
    hc fun hbindsNot => by rw [hbindsNot r] at hbinds; cases hbinds
  exact ⟨d, hd, (c.1, c'), hcall, rfl, not_not.mp hnot⟩

/-- A pod is taken with success at most once. -/
theorem taken_once
    (h : History Op.Answers KeepsLabels ⟨w, fun i => (activity i).program cfg⟩ es T)
    (hfresh : Throughout OnFreshListing es) {d : Occurrence ι} (hd : d ∈ es) (he : e ∈ es)
    {c c' : ι × Program.Event Op Op.Res} (hc : c ∈ d.call) (hc' : c' ∈ e.call)
    (hp : p ∈ c.2.1.taken) (hok : c.2.1.wentThrough c.2.2 = true) (hp' : p ∈ c'.2.1.taken)
    (hok' : c'.2.1.wentThrough c'.2.2 = true) : d = e := by
  obtain ⟨later, earlier, rfl⟩ := List.append_of_mem hd
  rcases List.mem_append.mp he with he | he
  · -- The second one is later.
    obtain ⟨x, y, rfl⟩ := List.append_of_mem he
    rw [List.append_assoc, List.cons_append] at h hfresh
    exact (not_taken_again h hfresh hc' hp' (by simp) hc hp hok).elim
  · rcases List.mem_cons.mp he with rfl | he
    · rfl
    · exact (not_taken_again h hfresh hc hp he hc' hp' hok').elim

/-- A pod whose deletion has been requested is so as long as it is there. -/
theorem beingDeleted_from
    (h : History Op.Answers KeepsLabels ⟨w, fun i => (activity i).program cfg⟩
      (later ++ l :: earlier) T)
    (hfresh : Throughout OnFreshListing (later ++ l :: earlier))
    (hl : l.before.isBeingDeleted p = true) :
    ∀ pod, T.state.pods.lookup p = some pod → pod.deletionRequested = true := by
  obtain ⟨pod, hpod, hdeleted⟩ : ∃ pod, l.before.pods.lookup p = some pod ∧
      pod.deletionRequested = true := by
    simpa [World.isBeingDeleted, Option.any_eq_true] using hl
  refine kept_from h hfresh hpod hdeleted fun d hd pod pod' hbefore hafter hK => ?_
  have hmem : d ∈ later ++ l :: earlier := by
    rcases List.mem_append.mp hd with hd | hd
    · exact List.mem_append_left _ hd
    · simp [List.mem_singleton.mp hd]
  rcases (pod_step h hmem hbefore hafter).2 with hsame | ⟨htrue, -⟩
  · rw [hsame, hK]
  · exact htrue

/-- No call asks for the deletion of a pod that has been taken with success. -/
theorem not_deleted_of_taken
    (h : History Op.Answers KeepsLabels ⟨w, fun i => (activity i).program cfg⟩
      (later ++ e :: earlier) T)
    (hfresh : Throughout OnFreshListing (later ++ e :: earlier)) (hl : l ∈ e :: earlier)
    {c c' : ι × Program.Event Op Op.Res} (hc : c ∈ l.call) (hp : p ∈ c.2.1.taken)
    (hok : c.2.1.wentThrough c.2.2 = true) (hc' : c' ∈ e.call) : p ∉ c'.2.1.deleted := by
  intro hp'
  rcases List.mem_cons.mp hl with rfl | hl
  · cases hc.symm.trans hc'
    unfold Op.taken at hp
    split at hp
    · rename_i hop
      rw [hop] at hp'
      cases hp'
    · cases hp
  · have hmem : l ∈ later ++ e :: earlier := by simp [hl]
    obtain ⟨-, pod', -, hpod', hgraduated⟩ := graduated_of_taken (h.served hmem hc)
      ⟨_, h.calls (fun i => (activity i).pooling cfg) hmem hc⟩ hp hok
    obtain ⟨d, hd, heq⟩ := h.next hl
    have hnot := not_graduated_of_deleted h hfresh hc' hp' d hd
    simp [World.isGraduated, heq, hpod', hgraduated] at hnot

/-- A pod that is taken with success is claimable. -/
theorem claimable_of_taken
    (h : History Op.Answers KeepsLabels ⟨w, fun i => (activity i).program cfg⟩
      (later ++ e :: earlier) T)
    (hfresh : Throughout OnFreshListing (later ++ e :: earlier)) {c : ι × Program.Event Op Op.Res}
    (hc : c ∈ e.call) (hp : p ∈ c.2.1.taken) (hok : c.2.1.wentThrough c.2.2 = true) :
    ∃ pod, e.before.pods.lookup p = some pod ∧ pod.isClaimable = true := by
  have hmem : e ∈ later ++ e :: earlier := by simp
  obtain ⟨pod, -, hpod, -⟩ := graduated_of_taken (h.served hmem hc)
    ⟨_, h.calls (fun i => (activity i).pooling cfg) hmem hc⟩ hp hok
  obtain ⟨U, hU, hbefore⟩ := h.before
  exact ⟨pod, hpod, claimable_of_lookedSince hU hfresh.earlier.2 (hfresh.at.takes c hc p hp) pod
    (hbefore ▸ hpod)⟩

/-- A pod that is bound has not been asked to be deleted. -/
theorem alive_of_binds {r : String}
    (h : History Op.Answers KeepsLabels ⟨w, fun i => (activity i).program cfg⟩
      (later ++ e :: earlier) T)
    (hfresh : Throughout OnFreshListing (later ++ e :: earlier)) {c : ι × Program.Event Op Op.Res}
    (hc : c ∈ e.call) (hbinds : c.2.1.binds r p = true) :
    ∀ d ∈ e :: earlier, d.before.isBeingDeleted p = false := by
  intro d hd
  obtain ⟨l, hl, c', hc', -, hp, hok⟩ := taken_of_binds h hc hbinds
  obtain ⟨y, z, rfl⟩ := List.append_of_mem hl
  have hsplit : later ++ e :: (y ++ l :: z) = (later ++ e :: y) ++ l :: z := by simp
  obtain ⟨pod, hpod, hclaimable⟩ := claimable_of_taken (hsplit ▸ h) (hsplit ▸ hfresh) hc' hp hok
  have halive : pod.deletionRequested = false := by
    simp only [Pod.isClaimable, Bool.and_eq_true, Bool.not_eq_true'] at hclaimable
    exact hclaimable.2
  rw [← List.cons_append, List.mem_append] at hd
  rcases hd with hd | hd
  · -- After it has been taken, nothing asks for its deletion.
    obtain ⟨a, b, hab⟩ := List.append_of_mem hd
    have hlist : later ++ e :: (y ++ l :: z) = (later ++ a) ++ d :: (b ++ l :: z) := by
      rw [← List.cons_append, hab]
      simp
    rw [hlist] at h hfresh
    obtain ⟨U, hU, hbefore⟩ := h.before
    have hundeleted : ∀ m ∈ b ++ [l], ∀ a ∈ m.call, p ∉ a.2.1.deleted := by
      intro m hm a ha
      rcases List.mem_append.mp hm with hm | hm
      · obtain ⟨x, x', rfl⟩ := List.append_of_mem hm
        rw [List.append_assoc, List.cons_append] at hU
        exact not_deleted_of_taken hU (by simpa using hfresh.earlier.2) (by simp) hc' hp hok ha
      · cases List.mem_singleton.mp hm
        exact not_deleted_of_taken hU hfresh.earlier.2 (by simp) hc' hp hok ha
    have hK := kept_from (K := fun q => q.deletionRequested = false) hU hfresh.earlier.2 hpod halive
      fun m hm q q' hq hq' hK => by
        have hmem : m ∈ b ++ l :: z := by
          rcases List.mem_append.mp hm with hm | hm
          · exact List.mem_append_left _ hm
          · simp [List.mem_singleton.mp hm]
        rcases (pod_step hU hmem hq hq').2 with hsame | ⟨-, a, ha, hdeleted⟩
        · rw [hsame, hK]
        · exact (hundeleted m hm a ha hdeleted).elim
    cases hpod' : d.before.pods.lookup p with
    | none => simp [World.isBeingDeleted, hpod']
    | some q => simp [World.isBeingDeleted, hpod', hK q (hbefore ▸ hpod')]
  · rcases List.mem_cons.mp hd with rfl | hd
    · simp [World.isBeingDeleted, hpod, halive]
    · obtain ⟨a, b, rfl⟩ := List.append_of_mem hd
      rw [hsplit] at h hfresh
      obtain ⟨U, hU, hbefore⟩ := h.before
      by_contra hdeleted
      have hK := beingDeleted_from hU hfresh.earlier.2
        (by simpa using hdeleted) pod (hbefore ▸ hpod)
      rw [halive] at hK
      cases hK

/-- Every warm pod has one owner in every run in which claims, upkeep and evictions act on fresh
listings. -/
theorem warmPods_oneOwner
    (h : History Op.Answers KeepsLabels ⟨w, fun i => (activity i).program cfg⟩ es T)
    (hfresh : Throughout OnFreshListing es) : OneOwner es where
  unique d hd e he c hc c' hc' p r r' hbinds hbinds' := by
    have hreservation : ∀ (r : String) (e : Occurrence ι), e ∈ es →
        ∀ c ∈ e.call, c.2.1.binds r p = true → r = (activity c.1).reservation := by
      rintro r e he ⟨i, op, res⟩ hc hbinds
      obtain ⟨fields, hop, -⟩ := Op.binds_iff.mp hbinds
      have hop : op = .updateItem r (.set fields) := hop
      subst hop
      rcases h.calls (fun i => (activity i).pooling cfg) he hc with hclaim | hupkeep
      · exact hclaim.1
      · exact hupkeep.elim
    have htaken : ∀ (r : String) (e : Occurrence ι), e ∈ es → ∀ c ∈ e.call, c.2.1.binds r p = true →
        ∃ f ∈ es, ∃ c' ∈ f.call, c'.1 = c.1 ∧ p ∈ c'.2.1.taken ∧
          c'.2.1.wentThrough c'.2.2 = true := by
      intro r e he c hc hbinds
      obtain ⟨later, earlier, rfl⟩ := List.append_of_mem he
      obtain ⟨f, hf, htaken⟩ := taken_of_binds h hc hbinds
      exact ⟨f, by simp [hf], htaken⟩
    obtain ⟨f, hf, a, ha, hai, hap, haok⟩ := htaken r d hd c hc hbinds
    obtain ⟨g, hg, b, hb, hbi, hbp, hbok⟩ := htaken r' e he c' hc' hbinds'
    obtain rfl := taken_once h hfresh hf hg ha hb hap haok hbp hbok
    cases ha.symm.trans hb
    rw [hreservation r d hd c hc hbinds, hreservation r' e he c' hc' hbinds', ← hai, ← hbi]
  alive later e earlier hsplit c hc p r hbinds := by
    subst hsplit
    exact alive_of_binds h hfresh hc hbinds
  kept later e earlier hsplit c hc p hp := by
    subst hsplit
    exact not_graduated_of_deleted h hfresh hc hp

end Runs

instance {ι : Type} [DecidableEq ι] (past : List (Occurrence ι)) (e : Occurrence ι) :
    Decidable (OnFreshListing past e) :=
  decidable_of_iff
    ((∀ c ∈ e.call, ∀ p ∈ c.2.1.taken,
        LookedSince (fun _ l => lists Pod.isClaimable c.1 p l = true)
          (fun d => leavesPool p d = true) past) ∧
      (∀ c ∈ e.call, ∀ p ∈ c.2.1.deleted,
        LookedSince (fun _ l => lists (fun _ => true) c.1 p l = true)
          (fun d => graduates p d = true) past) ∧
      ∀ p ∈ e.after.pods.keys, (e.before.pods.lookup p).isNone = true →
        ∀ d ∈ past, (d.before.pods.lookup p).isNone = true)
    ⟨fun h => ⟨h.1, h.2.1, by simpa using h.2.2⟩, fun h => ⟨h.1, h.2, by simpa using h.3⟩⟩

/-! ### Two claims of one pod -/

/-- An idle warm pod. -/
def idleWarmPod : Pod where
  labels := dictOf [("app", "gpu-dev-warm"), ("warm-state", "ready"), ("warm-gpu-type", "cpu-x86"),
    ("warm-gpu-count", "0")]
  annotations := dictOf []
  phase := "Running"
  nodeName := some "node-1"
  containers := [[]]
  deletionRequested := false
  peerPods := []
  volume := none

/-- A request that the pool can serve. -/
def cpuRequest (reservationId : String) : Attributes := .ofList
  [("reservation_id", .text reservationId), ("user_id", .text "mira"), ("gpu_count", .number 0),
    ("gpu_type", .text "cpu-x86"), ("github_user", .text "mira")]

/-- A claim for each of two reservations. -/
def claimOf : Bool → PoolActivity
  | true => .claim (cpuRequest "r1")
  | false => .claim (cpuRequest "r2")

/-- Two claims before either has begun, with one pod in the pool. -/
def twoClaims : System Bool Op Op.Res Unit World :=
  ⟨⟨∅, AList.insert "gpu-dev-cpu-x86-4f8c1e" idleWarmPod ∅, [], ∅⟩,
    fun i => (claimOf i).program .usual⟩

/-- One claim after the other. -/
def claimsInTurn : List (Turn Bool World) :=
  List.replicate 22 (.call true) ++ List.replicate 22 (.call false)

/-- Each claim lists the pods before either has taken one. -/
def claimsOverlapping : List (Turn Bool World) :=
  List.replicate 2 (.call true) ++ List.replicate 22 (.call false) ++ List.replicate 20 (.call true)

/-- The first claim in turn takes the pod, and the other one finds none. -/
theorem warmPods_oneOwner_claimsInTurn :
    OneOwner (play Script.fine.serve twoClaims claimsInTurn).1 :=
  warmPods_oneOwner
    (History.of_play Script.fine.answers_serve twoClaims claimsInTurn (by simp [claimsInTurn]))
    (by decide +kernel)

/-- Two claims that overlap bind the same pod to two reservations. -/
theorem claimsOverlapping_not_oneOwner :
    History Op.Answers KeepsLabels twoClaims (play Script.fine.serve twoClaims claimsOverlapping).1
      (play Script.fine.serve twoClaims claimsOverlapping).2 ∧
    ¬ OneOwner (play Script.fine.serve twoClaims claimsOverlapping).1 := by
  refine ⟨History.of_play Script.fine.answers_serve twoClaims claimsOverlapping
    (by simp [claimsOverlapping]), fun h => ?_⟩
  have hboth : ∃ d ∈ (play Script.fine.serve twoClaims claimsOverlapping).1,
      ∃ e ∈ (play Script.fine.serve twoClaims claimsOverlapping).1, ∃ c ∈ d.call, ∃ c' ∈ e.call,
        c.2.1.binds "r1" "gpu-dev-cpu-x86-4f8c1e" = true ∧
          c'.2.1.binds "r2" "gpu-dev-cpu-x86-4f8c1e" = true := by decide +kernel
  obtain ⟨d, hd, e, he, c, hc, c', hc', hr1, hr2⟩ := hboth
  exact absurd (h.unique d hd e he c hc c' hc' _ _ _ hr1 hr2) (by decide)

end CiInfra.GpuDev

import CiInfra.GpuDev.Footprints

/-!
# What runs in the Lambdas

The handler is invoked for reservation messages and once a minute for the queue sweep, threads
watch pods in the background, and other handlers cancel and expire reservations. For each of
these: the calls it can make.
-/

namespace CiInfra.GpuDev

open Interaction Fallible

/-! ### A request for one node -/

/-- The records that a request is put as. -/
def IsRecordOf (cfg : Settings) (request item : Attributes) : Prop :=
  (∃ now expiresAt,
    item = initialRecord request (request.number "duration_hours" 8) now expiresAt) ∨
  ∃ userId now expiresAt, request "user_id" = some userId ∧
    item = createdRecord cfg request request.key userId now expiresAt
      (request.number "duration_hours" cfg.defaultTimeoutHours)

namespace Attributes

theorem carry_of_ne (a dest : Attributes) (name : String) {field other : String}
    (h : other ≠ field) : a.carry name dest field other = dest other := by
  unfold carry
  cases a name with
  | none => rfl
  | some v => exact Function.update_of_ne h _ _

theorem carryTruthy_of_ne (a dest : Attributes) (name : String) {field other : String}
    (h : other ≠ field) : a.carryTruthy name dest field other = dest other := by
  unfold carryTruthy
  cases a name with
  | none => rfl
  | some v =>
    dsimp only
    split
    · exact Function.update_of_ne h _ _
    · rfl

theorem set_of_ne (a : Attributes) {name other : String} (h : other ≠ name) (v : Value) :
    a.set name v other = a other := Function.update_of_ne h _ _

theorem key_eq_of_text {a : Attributes} {s : String} (h : a "reservation_id" = some (.text s)) :
    a.key = s := by simp [key, text, h]

/-- A key that is not empty is the id, whatever the default. -/
theorem text_eq_key {a : Attributes} (h : a.key ≠ "") (default : String) :
    a.text "reservation_id" default = a.key := by
  unfold key text at *
  split <;> simp_all

end Attributes

theorem key_initialRecord (request : Attributes) (durationHours : ℚ) (now expiresAt : String) :
    (initialRecord request durationHours now expiresAt).key = request.key := by
  refine Attributes.key_eq_of_text ?_
  simp only [initialRecord]
  rw [Attributes.carryTruthy_of_ne _ _ _ (by decide), Attributes.carry_of_ne _ _ _ (by decide),
    Attributes.carry_of_ne _ _ _ (by decide), Attributes.carryTruthy_of_ne _ _ _ (by decide),
    Attributes.carryTruthy_of_ne _ _ _ (by decide), Attributes.carryTruthy_of_ne _ _ _ (by decide),
    Attributes.carryTruthy_of_ne _ _ _ (by decide)]
  rfl

/-- An attribute that none of the options of `create_reservation` is. -/
theorem createdRecord_apply (cfg : Settings) (request : Attributes) (id : String) (userId : Value)
    (now expiresAt : String) (durationHours : ℚ) {name : String}
    (h : name ∉ ["name", "instance_preference", "jupyter_enabled", "github_user", "cli_version",
      "preserve_entrypoint", "disk_name", "no_persistent_disk", "recreate_env", "lambda_version"]) :
    createdRecord cfg request id userId now expiresAt durationHours name =
      Attributes.ofList ([("reservation_id", .text id),
        ("user_id", userId),
        ("gpu_count", (request "gpu_count").getD (.number 1)),
        ("gpu_type", (request "gpu_type").getD (.text "a100")),
        ("status", .text "preparing"),
        ("created_at", (request "created_at").getD (.text now)),
        ("expires_at", .text expiresAt),
        ("duration_hours", .number durationHours),
        ("pod_name", .text (podNameOf id)),
        ("namespace", .text "gpu-dev")] ++ multinodeFields request) name := by
  simp only [List.mem_cons, List.not_mem_nil, or_false, not_or] at h
  obtain ⟨h₁, h₂, h₃, h₄, h₅, h₆, h₇, h₈, h₉, h₁₀⟩ := h
  simp only [createdRecord, List.foldl_cons, List.foldl_nil]
  rw [Attributes.set_of_ne _ h₁₀, Attributes.carry_of_ne _ _ _ h₉, Attributes.carry_of_ne _ _ _ h₈,
    Attributes.carry_of_ne _ _ _ h₇, Attributes.carry_of_ne _ _ _ h₆,
    Attributes.carry_of_ne _ _ _ h₅, Attributes.carry_of_ne _ _ _ h₄,
    Attributes.carry_of_ne _ _ _ h₃, Attributes.carry_of_ne _ _ _ h₂,
    Attributes.carry_of_ne _ _ _ h₁]

theorem key_createdRecord (cfg : Settings) (request : Attributes) (id : String) (userId : Value)
    (now expiresAt : String) (durationHours : ℚ) :
    (createdRecord cfg request id userId now expiresAt durationHours).key = id := by
  refine Attributes.key_eq_of_text ?_
  rw [createdRecord_apply _ _ _ _ _ _ _ (by decide), Attributes.ofList_append,
    Attributes.ofList_eq_none (l := multinodeFields request)]
  · rfl
  · unfold multinodeFields
    split
    · simp
    · simp

section Request

variable {cfg : Settings} {request : Attributes}

theorem issues_putReservationRecord {P : Op → Prop} {item : Attributes}
    (h : P (.putItem item (some .notTerminated))) : (putReservationRecord item).Issues P := by
  refine Issues.tryCatch (issues_request h) fun e => ?_
  cases e <;> trivial

theorem issues_spotCpuWithoutNodes {P : Op → Prop} [AllowsQuiet P] (gpuType : String)
    (maxSingleNode : ℕ) : (spotCpuWithoutNodes cfg gpuType maxSingleNode).Issues P := by
  unfold spotCpuWithoutNodes
  split
  · exact (issues_checkGpuAvailability _).bind fun _ => trivial
  · trivial

theorem issues_queueMessage {P : Op → Prop} [AllowsQuiet P] (gpuType : String)
    (requestedGpus availableGpus maxSingleNode : ℕ) (info : QueueInfo) :
    (queueMessage cfg gpuType requestedGpus availableGpus maxSingleNode info).Issues P := by
  unfold queueMessage
  split
  · split
    · exact (Issues.logged (issues_quiet rfl)).bind fun _ => trivial
    · trivial
  · split <;> trivial

theorem meets_allocateAdmitted {A : Program.Event Op Op.Res → Prop} {r : String} {P : Op → Prop}
    [Serves r P] (hallocate : ∀ params trace,
      (allocateGpuResources cfg r params trace).Meets A P (fun _ => True) fun _ => True) :
    (allocateAdmitted cfg request r).Meets A P (fun _ => True) fun _ => True := by
  refine (hallocate _ _).tryCatch fun e _ => ?_
  cases e with
  | snapshotPending message =>
    exact ((issues_reservationIsTerminated r).bind fun _ =>
      Issues.whenever _ (issues_updateReservationStatus (by decide) _ _)).meets
  | _ => exact meets_throw trivial

section

variable {P : Op → Prop} [Serves request.key P]

theorem issues_queueRequest (availableGpus maxSingleNode : ℕ) :
    (queueRequest cfg request availableGpus maxSingleNode).Issues P :=
  Issues.whenever _ ((issues_calculateQueuePositionAndWaitTime _ _).bind fun _ =>
    (issues_updateReservationWithQueueInfo _ _ _).bind fun _ => (issues_queueMessage _ _ _ _ _).bind
      fun _ => issues_updateReservationStatus (by decide) _ _)

variable (hput : ∀ item, item.key = request.key → IsRecordOf cfg request item →
  P (.putItem item (some .notTerminated)))

/-- The cold path does what the part for several nodes or the part for one node does. -/
theorem meets_processReservationRequest_of {A : Program.Event Op Op.Res → Prop}
    (hmultinode : request.truthy "is_multinode" = true →
      (processMultinodeReservationRequest cfg request).Meets A P (fun _ => True) fun _ => True)
    (hsingle : request.truthy "is_multinode" = false →
      (processSingleNodeRequest cfg request).Meets A P (fun _ => True) fun _ => True) :
    (processReservationRequest cfg request).Meets A P (fun _ => True) fun _ => True := by
  have hrest : ∀ terminated : Bool, Meets A P (fun _ => True) (fun _ => True)
      (if terminated = true then return true
        else if request.truthy "is_multinode" = true then
          processMultinodeReservationRequest cfg request
        else processSingleNodeRequest cfg request : Lambda Bool) := by
    intro terminated
    split
    · exact meets_pure trivial
    · split
      · exact hmultinode ‹_›
      · exact hsingle (by simpa using ‹¬ request.truthy "is_multinode" = true›)
  refine Meets.tryCatch (E := fun _ => True) ?_ fun e _ =>
    (Issues.whenever _ (issues_updateReservationStatus (by decide) _ _)).meets.bind fun _ _ =>
      meets_throw trivial
  dsimp only
  split
  · exact (issues_reservationIsTerminated _).meets.bind fun terminated _ => hrest terminated
  · exact (issues_pure false).meets.bind fun terminated _ => hrest terminated

include hput

theorem issues_createInitialRecord : (createInitialRecord request).Issues P := by
  unfold createInitialRecord
  split
  · trivial
  · refine Issues.tryCatch (Meets.issues (Q := fun _ => True) (E := fun _ => True) ?_) fun e => ?_
    · refine (meets_floatOf _ _ _).bind fun durationHours hduration => ?_
      subst hduration
      exact (issues_quiet rfl).meets.bind fun _ _ => (issues_quiet rfl).meets.bind fun _ _ =>
        (issues_putReservationRecord (hput _ (key_initialRecord _ _ _ _)
          (Or.inl ⟨_, _, rfl⟩))).meets.bind fun _ _ => meets_pure trivial
    · cases e <;> trivial

variable {A : Program.Event Op Op.Res → Prop}

/-- What `create_reservation` creates has the id of the request, if there is one. -/
theorem meets_createUnlessTerminated (hkey : request.key ≠ "") :
    (createUnlessTerminated cfg request).Meets A P (fun r => ∀ id, r = some id → id = request.key)
      fun _ => True := by
  refine Meets.tryCatch (E := fun _ => True) ?_ fun e _ => ?_
  · refine (Meets.bind (Q := fun id => id = request.key) ?_ fun id hid => ?_)
    · refine (issues_quiet rfl).meets.bind fun generated _ => ?_
      dsimp only
      rw [Attributes.text_eq_key hkey]
      refine (issues_quiet rfl).meets.bind fun _ _ => (meets_floatOf _ _ _).bind
        fun durationHours hduration => ?_
      subst hduration
      exact (issues_quiet rfl).meets.bind fun _ _ => (meets_required _ _).bind fun _ huser =>
        (issues_putReservationRecord (hput _ (key_createdRecord _ _ _ _ _ _ _)
          (Or.inr ⟨_, _, _, huser, rfl⟩))).meets.bind fun _ _ => meets_pure rfl
    · exact meets_pure fun _ h => by cases h; exact hid
  · cases e with
    | reservationTerminated id => exact meets_pure fun _ h => nomatch h
    | _ => exact meets_throw trivial

variable (hallocate : ∀ params trace, (allocateGpuResources cfg request.key params trace).Meets
  A P (fun _ => True) fun _ => True)

include hallocate

theorem meets_startRequest (hkey : request.key ≠ "") (availableGpus : ℕ) :
    (startRequest cfg request availableGpus).Meets A P (fun _ => True) fun _ => True := by
  refine (Issues.whenever _ (issues_updateReservationStatus (by decide) _ _)).meets.bind fun _ _ =>
    (meets_createUnlessTerminated hput hkey).bind fun created hcreated => ?_
  cases created with
  | none => exact meets_pure trivial
  | some r =>
    cases hcreated r rfl
    exact meets_allocateAdmitted hallocate

theorem meets_startOrQueue (hkey : request.key ≠ "") :
    (startOrQueue cfg request).Meets A P (fun _ => True) fun _ => True := by
  refine (issues_checkGpuAvailability _).meets.bind fun availableGpus _ =>
    (issues_checkMaxGpusOnSingleNode _).meets.bind fun maxSingleNode _ =>
    (issues_spotCpuWithoutNodes _ _).meets.bind fun noNodes _ => ?_
  split
  · exact meets_startRequest hput hallocate hkey _
  · exact (issues_queueRequest _ _).meets

/-- The processing of a request for one node touches its own record and pod only. -/
theorem meets_processSingleNodeRequest (hkey : request.key ≠ "") :
    (processSingleNodeRequest cfg request).Meets A P (fun _ => True) fun _ => True := by
  refine (issues_createInitialRecord hput).meets.bind fun terminated _ => ?_
  split
  · exact meets_pure trivial
  · split
    · exact (issues_updateReservationStatus (by decide) _ _).meets.bind fun _ _ =>
        meets_pure trivial
    · exact (meets_startOrQueue hput hallocate hkey).bind fun _ _ => meets_pure trivial

/-- The cold path of a request for one node. -/
theorem meets_processReservationRequest (hkey : request.key ≠ "")
    (hsingle : request.truthy "is_multinode" = false) :
    (processReservationRequest cfg request).Meets A P (fun _ => True) fun _ => True :=
  meets_processReservationRequest_of (fun h => nomatch hsingle.symm.trans h) fun _ =>
    meets_processSingleNodeRequest hput hallocate hkey

end

/-! ### The queue sweep -/

section

variable {P : Op → Prop} {r : String}

variable {A : Program.Event Op Op.Res → Prop}

theorem meets_allocateQueued [Serves r P] (hallocate : ∀ params trace,
      (allocateGpuResources cfg r params trace).Meets A P (fun _ => True) fun _ => True)
    (reservation : Attributes) :
    (allocateQueued cfg r reservation).Meets A P (fun _ => True) fun _ => True := by
  refine (hallocate _ _).tryCatch fun e _ => ?_
  cases e with
  | snapshotPending message =>
    exact ((issues_reservationIsTerminated r).bind fun _ =>
      Issues.whenever _ (issues_updateReservationStatus (by decide) _ _)).meets
  | _ => exact (issues_updateReservationStatus (by decide) _ _).meets

theorem meets_startQueued [Serves r P] (hallocate : ∀ params trace,
      (allocateGpuResources cfg r params trace).Meets A P (fun _ => True) fun _ => True)
    (reservation : Attributes) (availableGpus : ℕ) :
    (startQueued cfg r reservation availableGpus).Meets A P (fun _ => True) fun _ => True := by
  refine (issues_getItemOrEmpty r).meets.bind fun current _ => ?_
  split
  · exact meets_pure trivial
  · exact (issues_updateReservationStatus (by decide) _ _).meets.bind fun _ _ =>
      meets_allocateQueued hallocate _

theorem issues_updateQueued [Serves r P] (reservation : Attributes)
    (position availableGpus : ℕ) (spotStatus : SpotStatus) :
    (updateQueued cfg r reservation position availableGpus spotStatus).Issues P := by
  refine Issues.bind ?_ fun wait => (issues_updateReservationWithQueueInfo _ _ _).bind fun _ =>
    Issues.bind ?_ fun _ => trivial
  · unfold estimateWait
    split
    · split
      · exact (Issues.logged (issues_quiet rfl)).bind fun _ =>
          (Issues.orElseGive (issues_quiet rfl) _).bind fun _ => trivial
      · trivial
    · exact (Issues.orElseGive (issues_quiet rfl) _).bind fun _ => trivial
  · unfold reportQueued
    split
    · split
      · exact issues_updateReservationStatus (by decide) _ _
      · trivial
    · exact Issues.whenever _ (issues_updateReservationStatus (by decide) _ _)

theorem issues_cpuSpotReady [AllowsQuiet P] (gpuType : String)
    (requestedGpus : ℕ) : (cpuSpotReady cfg gpuType requestedGpus).Issues P := by
  unfold cpuSpotReady
  split
  · refine (issues_checkSchedulableGpusForType _).bind fun _ => Issues.orElseGive ?_ _
    exact (issues_quiet rfl).bind fun _ => trivial
  · trivial

theorem meets_processQueued {reservation : Attributes} [Serves reservation.key P]
    (hallocate : ∀ params trace, (allocateGpuResources cfg reservation.key params trace).Meets A P
      (fun _ => True) fun _ => True) (position : ℕ) (spotStatus : SpotStatus) :
    (processQueued cfg position reservation spotStatus).Meets A P (fun _ => True)
      fun _ => True := by
  refine (issues_required _ _).meets.bind fun _ _ => (issues_checkGpuAvailability _).meets.bind
    fun availableGpus _ => (issues_checkMaxGpusOnSingleNode _).meets.bind fun maxSingleNode _ =>
    (issues_cpuSpotReady _ _).meets.bind fun ready _ => ?_
  split
  · exact (meets_startQueued hallocate _ _).bind fun _ _ => meets_pure trivial
  · exact (issues_updateQueued _ _ _ _).meets

/-- A sweep touches the reservations that it goes over. -/
theorem meets_sweepLoop (position : ℕ) (spotStatus : SpotStatus) {queued : List Attributes}
    (h : ∀ reservation ∈ queued, ∀ position spotStatus,
      (processQueued cfg position reservation spotStatus).Meets A P (fun _ => True) fun _ => True) :
    (sweepLoop cfg position spotStatus queued).Meets A P (fun _ => True) fun _ => True := by
  induction queued generalizing position spotStatus with
  | nil => exact meets_pure trivial
  | cons reservation rest ih =>
    exact (Meets.orElseGive (h reservation List.mem_cons_self position spotStatus) trivial).bind
      fun _ _ => ih _ _ fun other hother => h other (List.mem_cons_of_mem _ hother)

end

end Request

/-! ### A claim of a warm pod -/

/-- A call made in a claim once it has its pod: it writes no other record and touches no pod. -/
def Op.IsRecording (r : String) : Op → Prop
  | updateItem id u => id = r ∧ u.IsLawful
  | putItem item condition =>
    condition = none ∧ item.key = r ∧ item "status" = some (.text "preparing")
  | op => op.IsQuiet = true

instance {r : String} : Covers r (Op.IsRecording r) where
  quiet op h := by cases op <;> first | exact h | cases h
  update _ hu := ⟨rfl, hu.toIsLawful⟩

/-- A call made in a claim: the only thing it does to a pod is to take it out of the pool. -/
def Op.IsClaimFor (r : String) : Op → Prop
  | patchPod _ labels _ => labels = graduationLabels
  | putItem item condition => (putItem item condition).IsRecording r ∨ IsKeyCachePut item condition
  | op => op.IsRecording r

theorem Op.IsRecording.isClaimFor {r : String} {op : Op} (h : op.IsRecording r) :
    op.IsClaimFor r := by
  cases op with
  | putItem item condition => exact Or.inl h
  | patchPod name labels annotations => cases h
  | _ => exact h

instance {r : String} : AllowsQuiet (Op.IsClaimFor r) where
  quiet op h := Op.IsRecording.isClaimFor (AllowsQuiet.quiet op h)

section Claim

variable {cfg : Settings} {body : Attributes} {P : Op → Prop}

theorem issues_intOf (a : Attributes) (name : String) (d : ℤ) : (intOf a name d).Issues P := by
  unfold intOf
  split
  · trivial
  · trivial
  · split <;> trivial
  · trivial

theorem key_claimedRecord (gpuCount : ℤ) (durationHours : ℚ) (createdAt expiresAt : String) :
    (claimedRecord cfg body gpuCount durationHours createdAt expiresAt).key = body.key := by
  have hid : claimedRecord cfg body gpuCount durationHours createdAt expiresAt "reservation_id" =
      some ((body "reservation_id").getD .null) := rfl
  unfold Attributes.key Attributes.text
  rw [hid]
  cases body "reservation_id" <;> rfl

section

variable [AllowsQuiet P]

theorem issues_lookUpAddress (podName reservationId : String) :
    (lookUpAddress podName reservationId).Issues P := by
  refine Issues.bind ?_ fun _ => (issues_quiet rfl).bind fun _ =>
    (Issues.orElseGive (issues_quiet rfl) _).bind fun _ =>
    (Issues.orElseGive (issues_quiet rfl) _).bind fun _ => (issues_quiet rfl).bind
      fun dnsEnabled => ?_
  · exact (issues_quiet rfl).tryCatch fun _ => (Issues.orElseGive (issues_quiet rfl) _).bind
      fun _ => (issues_quiet rfl).bind fun _ => trivial
  · split
    · exact (issues_quiet rfl).bind fun _ => trivial
    · trivial

theorem issues_claimedAddress (candidate : NamedPod) (reservationId : String) :
    (claimedAddress candidate reservationId).Issues P := by
  unfold claimedAddress
  dsimp only
  split
  · split <;> trivial
  · exact issues_lookUpAddress _ _

theorem issues_bindDomain (domain : Option String) : (bindDomain domain).Issues P := by
  cases domain with
  | none => trivial
  | some domain =>
    refine Issues.orElseGive ?_ _
    exact (issues_quiet rfl).bind fun _ => trivial

end

/-- What a claim writes once it has its pod: the record, its connection and its trace. -/
theorem issues_recordClaim_of [AllowsQuiet P] {gpuCount : ℤ} {candidate : NamedPod}
    (hput : ∀ durationHours createdAt expiresAt,
      P (.putItem (claimedRecord cfg body gpuCount durationHours createdAt expiresAt) none))
    (hactive : ∀ info : ConnectionInfo, info.podName = candidate.1 →
      ∀ v expiresAt launchedAt instanceType gpuType token jupyter,
        P (.updateItem body.key (.set (("last_updated", v) ::
          activeFields info expiresAt launchedAt instanceType gpuType token jupyter))))
    (htrace : ∀ trace, P (.updateItem body.key
      (.set [("trace_data", .text trace), ("claim_path", .text "warm")]))) :
    (recordClaim cfg body gpuCount candidate).Issues P := by
  refine (issues_quiet rfl).bind fun _ => (issues_floatOf _ _ _).bind fun durationHours =>
    (issues_quiet rfl).bind fun _ => (issues_quiet rfl).bind fun _ =>
    (issues_request (hput _ _ _)).bind fun _ =>
    (issues_claimedAddress _ _).bind fun _ => (issues_bindDomain _).bind fun _ =>
    (issues_connectionInfo (hactive _ rfl)).bind fun _ => Issues.bind ?_ fun _ =>
    (Issues.logged (issues_quiet rfl)).bind fun _ => (Issues.logged (issues_quiet rfl)).bind
      fun _ => (Issues.logged (issues_quiet rfl)).bind fun _ => trivial
  exact Issues.whenever _ (Issues.logged ((issues_quiet rfl).bind fun trace =>
    issues_request (htrace trace)))

/-- What a claim does once it has its pod. -/
theorem issues_recordClaim (gpuCount : ℤ) (candidate : NamedPod) :
    (recordClaim cfg body gpuCount candidate).Issues (Op.IsRecording body.key) := by
  refine issues_recordClaim_of (fun _ _ _ => ⟨rfl, key_claimedRecord _ _ _ _, rfl⟩)
    (fun info _ _ _ _ _ _ _ _ => ⟨rfl, Update.isLawful_activeFields info _ _ _ _ _ _ _⟩)
    fun trace => ⟨rfl, Or.inl ?_, ?_⟩
  · simp [Update.IsNeutral]
  · simp [Update.KeepsParameters, parameterNames]

/-- A claim writes its own record only, and takes pods out of the pool. -/
theorem issues_claimWarmPod : (claimWarmPod cfg body).Issues (Op.IsClaimFor body.key) := by
  refine (issues_intOf _ _ _).bind fun gpuCount => ?_
  split
  · trivial
  · refine (issues_getGithubPublicKey (fun _ user h => Or.inr ⟨user, h, rfl⟩) _).bind
      fun key => ?_
    split
    · trivial
    · refine (issues_quiet rfl).bind fun pods => ?_
      split
      · trivial
      · refine Issues.bind (issues_request ?_) fun _ =>
          (issues_recordClaim _ _).mono fun _ h => h.isClaimFor
        exact rfl

theorem issues_tryClaimWarmPod : (tryClaimWarmPod cfg body).Issues (Op.IsClaimFor body.key) :=
  Issues.orElseGive issues_claimWarmPod false

/-- A reservation message is served from the warm pool or on the cold path. -/
theorem meets_handleReservationMessage {A : Program.Event Op Op.Res → Prop}
    (hclaim : (tryClaimWarmPod cfg body).Meets A P (fun _ => True) fun _ => True)
    (hcold : (processReservationRequest cfg body).Meets A P (fun _ => True) fun _ => True) :
    (handleReservationMessage cfg body).Meets A P (fun _ => True) fun _ => True := by
  have hrest : ∀ claimed : Bool, Meets A P (fun _ => True) (fun _ => True)
      (if claimed = true then return true
        else processReservationRequest cfg body : Lambda Bool) := by
    intro claimed
    split
    · exact meets_pure trivial
    · exact hcold
  unfold handleReservationMessage
  dsimp only
  split
  · exact hclaim.bind fun claimed _ => hrest claimed
  · exact (issues_pure false).meets.bind fun claimed _ => hrest claimed

end Claim

/-! ### Any invocation -/

/-- A call as any of the Lambdas makes them: a lock is the only record that is put under the
condition of locks, and that is deleted. -/
def Op.IsLawful : Op → Prop
  | updateItem _ u => u.IsLawful
  | putItem item condition => ∀ now, condition = some (.lockFree now) →
    isReservationKey item.key = false
  | deleteItem id => isReservationKey id = false
  | _ => True

instance : AllowsQuiet Op.IsLawful where
  quiet op h := by cases op <;> first | cases h; done | trivial

instance : Pervades Op.IsLawful where
  connects _ :=
    { update _ hu := hu.toIsLawful
      cache _ _ _ _ h := nomatch h
      deletePod _ := trivial
      createVolume _ _ := trivial
      createPod _ := trivial
      connection _ hu _ := hu }

theorem Op.IsClaimFor.isLawful {r : String} {op : Op} (h : op.IsClaimFor r) : op.IsLawful := by
  cases op with
  | updateItem id u => exact h.2
  | putItem item condition =>
    rintro now rfl
    rcases h with ⟨h, -⟩ | ⟨-, -, h⟩ <;> cases h
  | deleteItem id => cases h
  | _ => trivial

/-! ### What the table shows -/

/-- All that is shown under the answers `A`, and every fresh id, is of the kind `K`. -/
structure ShowsOnly (A : Program.Event Op Op.Res → Prop) (K : String → Prop) : Prop where
  found : ∀ s items, A ⟨.find s, .ok items⟩ → ∀ item ∈ items, K item.key
  got : ∀ id consistentRead item, A ⟨.getItem id consistentRead, .ok (some item)⟩ → K item.key
  fresh : ∀ id, A ⟨.freshId, id⟩ → K id

theorem showsOnly_any : ShowsOnly (fun _ => True) fun _ => True :=
  ⟨fun _ _ _ _ _ => trivial, fun _ _ _ _ => trivial, fun _ _ => trivial⟩

/-- The id of a record, or a default if it has none. -/
theorem Attributes.text_key_or (a : Attributes) (default : String) :
    a.text "reservation_id" default = a.key ∨ a.text "reservation_id" default = default := by
  unfold key text
  split
  · exact Or.inl rfl
  · exact Or.inr rfl

section Shown

variable {cfg : Settings} {A : Program.Event Op Op.Res → Prop} {K : String → Prop}
  {P : Op → Prop}

theorem meets_find [AllowsQuiet P] (hA : ShowsOnly A K) (s : Selection) :
    (find s).Meets A P (fun items => ∀ item ∈ items, K item.key) fun _ => True := by
  refine meets_request (AllowsQuiet.quiet _ rfl) (fun r items hr h => ?_) fun _ _ _ _ => trivial
  obtain rfl : r = .ok items := h
  exact hA.found s items hr

theorem meets_getItem [AllowsQuiet P] (hA : ShowsOnly A K) (id : String) (consistentRead : Bool) :
    (getItem id consistentRead).Meets A P (fun item => ∀ a, item = some a → K a.key)
      fun _ => True := by
  refine meets_request (AllowsQuiet.quiet _ rfl) (fun r item hr h => ?_) fun _ _ _ _ => trivial
  obtain rfl : r = .ok item := h
  rintro a rfl
  exact hA.got id consistentRead a hr

theorem meets_freshId [AllowsQuiet P] (hA : ShowsOnly A K) :
    freshId.Meets A P K fun _ => True := by
  refine meets_request (AllowsQuiet.quiet _ rfl) (fun r id hr h => ?_) fun _ _ _ _ => trivial
  cases h
  exact hA.fresh r hr

theorem meets_allInThreads {α : Type} (hturn : P .turn) {ps : List (Lambda α)}
    (h : ∀ p ∈ ps, p.Meets A P (fun _ => True) fun _ => True) :
    (allInThreads ps).Meets A P (fun _ => True) fun _ => True := by
  refine (Program.within_allTogether hturn (Q := fun _ => True) fun p hp => ?_).bind
    fun _ _ => trivial
  obtain ⟨q, hq, rfl⟩ := List.mem_map.mp hp
  exact Program.Within.mono (h q hq) (fun _ h => h) fun _ _ => trivial

/-! #### Multinode requests -/

/-- The calls made for a group of nodes with ids of the kind `K`: all for any of them, and those
on the lock of the group. -/
structure Coordinates (K : String → Prop) (P : Op → Prop) (master : String) : Prop
    extends AllowsQuiet P where
  connects : ∀ r, K r → Connects r P
  created : ∀ item, K item.key → P (.putItem item (some .notTerminated))
  lock : ∀ createdAt (now : ℤ),
    P (.putItem (lockItem master createdAt (now + 300)) (some (.lockFree now)))
  unlock : P (.deleteItem (lockKey master))

theorem issues_calculateMultinodeQueuePosition [AllowsQuiet P] (master gpuType : String)
    (totalGpusNeeded availableGpus : ℕ) :
    (calculateMultinodeQueuePosition master gpuType totalGpusNeeded availableGpus).Issues P := by
  refine Issues.orElseGive ((issues_quiet rfl).bind fun queued => ?_) _
  dsimp only
  split
  · trivial
  · split
    · trivial
    · exact (Issues.orElseGive (issues_quiet rfl) _).bind fun _ => trivial

theorem issues_updateMultinodePodStatus {r : String} [Covers r P] (podStatus : String)
    (nodeIndex totalNodes : ℕ) :
    (updateMultinodePodStatus r podStatus nodeIndex totalNodes).Issues P :=
  issues_updateReservationStatus (by decide) _ _

theorem meets_forEachNode {f : String → Lambda Unit} {nodes : List Attributes}
    (h : ∀ node ∈ nodes, (f node.key).Meets A P (fun _ => True) fun _ => True) :
    (forEachNode f nodes).Meets A P (fun _ => True) fun _ => True :=
  Meets.forM fun node hnode => h node (List.mem_of_mem_filter hnode)

theorem key_nodeRequest (node : Attributes) (peerPods : List String) :
    (nodeRequest node peerPods).key = node.key := by
  unfold nodeRequest
  split
  · rfl
  · unfold Attributes.key Attributes.text
    rw [Attributes.set_of_ne _ (by decide)]

section Group

variable {master : String} (hA : ShowsOnly A K) (hP : Coordinates K P master)

include hA hP

theorem meets_failAll (errorMessage : String) :
    (failAllMultinodeReservations master errorMessage).Meets A P (fun _ => True)
      fun _ => True := by
  have := hP.toAllowsQuiet
  refine Meets.logged (E := fun _ => True) ((meets_find hA _).bind fun nodes hnodes =>
    meets_forEachNode fun node hnode => ?_)
  have := hP.connects _ (hnodes node hnode)
  exact (issues_updateReservationStatus (by decide) _ _).meets

theorem meets_queueAll (totalGpusNeeded : ℕ) (gpuType : String) (availableGpus : ℕ) :
    (queueAllMultinodeReservations master totalGpusNeeded gpuType availableGpus).Meets A P
      (fun _ => True) fun _ => True := by
  have := hP.toAllowsQuiet
  refine Meets.tryCatch (E := fun _ => True) ?_ fun e _ => meets_failAll hA hP _
  refine (meets_find hA _).bind fun nodes hnodes =>
    (issues_calculateMultinodeQueuePosition _ _ _ _).meets.bind fun info _ =>
    meets_forEachNode fun node hnode => ?_
  have := hP.connects _ (hnodes node hnode)
  exact ((issues_updateReservationWithQueueInfo _ _ _).bind fun _ =>
    issues_updateReservationStatus (by decide) _ _).meets

theorem meets_createReservation {request : Attributes} (hkey : K request.key) :
    (createReservation cfg request).Meets A P K fun _ => True := by
  have := hP.toAllowsQuiet
  refine (meets_freshId hA).bind fun generated hgenerated => (issues_quiet rfl).meets.bind
    fun _ _ => (issues_floatOf _ _ _).meets.bind fun _ _ => (issues_quiet rfl).meets.bind
    fun _ _ => (issues_required _ _).meets.bind fun _ _ => ?_
  have hid : K (request.text "reservation_id" generated) := by
    rcases request.text_key_or generated with h | h <;> rw [h]
    · exact hkey
    · exact hgenerated
  refine (issues_putReservationRecord (hP.created _ ?_)).meets.bind fun _ _ => meets_pure hid
  rw [key_createdRecord]
  exact hid

theorem meets_processMultinodeIndividualNode {r : String} (hr : K r) (nodeIndex totalNodes : ℕ)
    (peerPods : List String) :
    (processMultinodeIndividualNode cfg r nodeIndex totalNodes peerPods).Meets A P
      (fun _ => True) fun _ => True := by
  have := hP.toAllowsQuiet
  have := hP.connects r hr
  refine Meets.tryCatch (E := fun _ => True) ?_ fun e _ =>
    ((issues_updateMultinodePodStatus _ _ _).bind fun _ => issues_pure false).meets
  refine (meets_getItem hA _ _).bind fun item hitem => ?_
  split
  · exact ((issues_updateMultinodePodStatus _ _ _).bind fun _ => issues_pure false).meets
  · rename_i node
    have hkey : K (nodeRequest node peerPods).key := key_nodeRequest node peerPods ▸ hitem node rfl
    refine (issues_updateMultinodePodStatus _ _ _).meets.bind fun _ _ =>
      (meets_createReservation hA hP hkey).bind fun created hcreated => ?_
    split
    · exact ((issues_updateMultinodePodStatus _ _ _).bind fun _ => issues_pure false).meets
    · have := hP.connects created hcreated
      exact ((issues_updateMultinodePodStatus _ _ _).bind fun _ =>
        (issues_allocateGpuResources _ _ _).bind fun _ => issues_pure true).meets

theorem meets_startNodes (totalNodes : ℕ) {nodes : List Attributes}
    (hnodes : ∀ node ∈ nodes, K node.key) :
    (startNodes cfg master totalNodes nodes).Meets A P (fun _ => True) fun _ => True := by
  have := hP.toAllowsQuiet
  refine (meets_allInThreads (AllowsQuiet.quiet _ rfl) fun p hp => ?_).bind fun results _ => ?_
  · obtain ⟨⟨node, i⟩, hnode, rfl⟩ := List.mem_map.mp hp
    exact meets_processMultinodeIndividualNode hA hP
      (hnodes node (List.fst_mem_of_mem_zipIdx hnode)) _ _ _
  · dsimp only
    split
    · exact ((Issues.logged (issues_quiet rfl)).bind fun _ => issues_pure true).meets
    · exact (meets_failAll hA hP _).bind fun _ _ => meets_pure trivial

omit hA in
theorem issues_releaseMultinodeLock : (releaseMultinodeLock master).Issues P :=
  Issues.logged (issues_request hP.unlock)

omit hA in
theorem issues_acquireMultinodeLock : (acquireMultinodeLock master).Issues P := by
  have := hP.toAllowsQuiet
  refine Issues.orElseGive ?_ false
  exact (issues_quiet rfl).bind fun now => (issues_quiet rfl).bind fun createdAt =>
    (issues_request (hP.lock createdAt now.floor)).bind fun _ => trivial

theorem meets_coordinateLocked (totalNodes : ℕ) :
    (coordinateLocked cfg master totalNodes).Meets A P (fun _ => True) fun _ => True := by
  have := hP.toAllowsQuiet
  refine (meets_find hA _).bind fun nodes hnodes => ?_
  split
  · exact (meets_failAll hA hP _).bind fun _ _ => meets_pure trivial
  · split
    · exact meets_throw trivial
    · refine (issues_checkGpuAvailability _).meets.bind fun availableGpus _ => ?_
      split
      · exact (issues_releaseMultinodeLock hP).meets.bind fun _ _ =>
          meets_startNodes hA hP _ hnodes
      · exact (meets_queueAll hA hP _ _ _).bind fun _ _ => meets_pure trivial

theorem meets_coordinate (totalNodes : ℕ) :
    (coordinateMultinodeReservation cfg master totalNodes).Meets A P (fun _ => True)
      fun _ => True := by
  refine Meets.andFinally (Meets.tryCatch (E := fun _ => True) ?_ fun e _ =>
    (meets_failAll hA hP _).bind fun _ _ => meets_pure trivial)
    (issues_releaseMultinodeLock hP).meets
  refine (issues_acquireMultinodeLock hP).meets.bind fun acquired _ => ?_
  split
  · exact meets_coordinateLocked hA hP _
  · exact meets_pure trivial

end Group

/-- The processing of a request for several nodes. -/
theorem meets_processMultinode {request : Attributes} (hA : ShowsOnly A K)
    (hP : Coordinates K P (request.text "master_reservation_id"))
    (hrecord : ∀ now expiresAt, P (.putItem (multinodeRecord cfg request now expiresAt) none)) :
    (processMultinodeReservationRequest cfg request).Meets A P (fun _ => True)
      fun _ => True := by
  have := hP.toAllowsQuiet
  refine Meets.tryCatch (E := fun _ => True) ?_ fun e _ =>
    (Meets.whenever (fun _ => trivial) fun _ => meets_failAll hA hP _).bind fun _ _ =>
      meets_pure trivial
  refine (Issues.whenever _ (Issues.logged ?_)).meets.bind fun _ _ => Issues.meets ?_ |>.bind
    fun ready _ => ?_
  · exact (issues_floatOf _ _ _).bind fun _ => (issues_quiet rfl).bind fun _ =>
      (issues_quiet rfl).bind fun _ => issues_request (hrecord _ _)
  · refine Issues.orElseGive ?_ _
    exact (issues_quiet rfl).bind fun _ => trivial
  · split
    · exact meets_coordinate hA hP _
    · exact meets_pure trivial

/-! #### Sweeps and endings -/

theorem meets_sortQueued (queued : List Attributes) :
    (sortQueued queued).Meets A P (fun sorted => ∀ item ∈ sorted, item ∈ queued)
      fun _ => True := by
  unfold sortQueued
  split
  · exact meets_pure fun item hitem => List.mem_mergeSort.mp hitem
  · exact meets_throw trivial

/-- A sweep touches the reservations that it is shown. -/
theorem meets_processScheduledQueueManagement [AllowsQuiet P] (hA : ShowsOnly A K)
    (hP : ∀ r, K r → Connects r P) :
    (processScheduledQueueManagement cfg).Meets A P (fun _ => True) fun _ => True := by
  refine (issues_quiet rfl).meets.bind fun now _ =>
    (Meets.orElseGive (meets_find hA _) (by simp)).bind fun queued hqueued => ?_
  dsimp only
  split
  · exact meets_pure trivial
  · refine (Issues.orElseGive (issues_quiet rfl) _).meets.bind fun _ _ =>
      (meets_sortQueued _).bind fun sorted hsorted =>
        meets_sweepLoop _ _ fun reservation hreservation _ _ => ?_
    have := hP _ (hqueued _ (List.mem_of_mem_filter (hsorted _ hreservation)))
    exact meets_processQueued (fun _ _ => (issues_allocateGpuResources _ _ _).meets) _ _

section

variable {reservation : Attributes} [Serves reservation.key P]

theorem issues_cleanupPod (podName : String) : (cleanupPod podName reservation).Issues P := by
  have hdelete : (deletePod podName).Issues P :=
    issues_request (Serves.deletePod reservation.key podName)
  exact Issues.logged ((Issues.whenever _ (Issues.logged (issues_quiet rfl))).bind fun _ =>
    (Issues.logged (issues_quiet rfl)).bind fun _ => hdelete.tryCatch fun _ => hdelete)

theorem issues_freeDisk : (freeDisk reservation).Issues P :=
  Issues.whenever _ (Issues.logged (issues_quiet rfl))

theorem issues_cancelReservation : (cancelReservation reservation).Issues P := by
  refine (Issues.logged (issues_quiet rfl)).bind fun _ => (issues_quiet rfl).bind fun now =>
    Issues.bind ?_ fun _ => (Issues.whenever _ (issues_cleanupPod _)).bind fun _ =>
    (Issues.whenever _ (Issues.logged (issues_quiet rfl))).bind fun _ => issues_freeDisk
  refine issues_updateReservationFields fun v =>
    ⟨⟨Or.inr ⟨"cancelled", by decide, rfl⟩, ?_⟩, rfl⟩
  simp [cancellationFields, Update.KeepsParameters, parameterNames]

theorem issues_endReservation {status mark : String} (reason : String) {cleanUp : Lambda Unit}
    (hstatus : status ∈ writtenStatuses)
    (hmark : mark ∈ ["expired_at", "failed_at", "cancelled_at"]) (h : cleanUp.Issues P) :
    (endReservation reservation status mark reason cleanUp).Issues P := by
  refine (issues_quiet rfl).bind fun now => (issues_updateItem ⟨⟨Or.inr ⟨status, hstatus, ?_⟩,
    ?_⟩, ?_⟩).bind fun _ => Issues.logged h
  · simp only [List.mem_cons, List.not_mem_nil, or_false] at hmark
    obtain rfl | rfl | rfl := hmark <;> by_cases hreason : reason = "" <;>
      simp [Update.status, endingFields, Attributes.ofList, hreason, List.lookup_cons]
  · simp only [List.mem_cons, List.not_mem_nil, or_false] at hmark
    obtain rfl | rfl | rfl := hmark <;> by_cases hreason : reason = "" <;>
      simp [Update.KeepsParameters, endingFields, hreason, parameterNames]
  · simp only [List.mem_cons, List.not_mem_nil, or_false] at hmark
    obtain rfl | rfl | rfl := hmark <;> by_cases hreason : reason = "" <;>
      simp [Update.podName, endingFields, Attributes.ofList, hreason, List.lookup_cons]

theorem issues_cleanupNamedPod : (cleanupNamedPod reservation).Issues P :=
  Issues.whenever _ (issues_cleanupPod _)

theorem issues_noteWarning {name : String} (h : name ∈ ["last_oom_at", "last_warning_time"]) :
    (noteWarning reservation name).Issues P := by
  refine Issues.logged ((issues_quiet rfl).bind fun now =>
    issues_updateItem ⟨⟨Or.inl ?_, ?_⟩, ?_⟩) <;>
      simp only [List.mem_cons, List.not_mem_nil, or_false] at h <;> obtain rfl | rfl := h
  · simp [Update.IsNeutral]
  · simp [Update.IsNeutral]
  · simp [Update.KeepsParameters, parameterNames]
  · simp [Update.KeepsParameters, parameterNames]
  · rfl
  · rfl

theorem issues_expireActive : (expireActive reservation).Issues P := by
  refine Issues.logged ((issues_quiet rfl).bind fun isOver => ?_)
  split
  · exact issues_endReservation _ (by decide) (by decide) issues_cleanupNamedPod
  · refine (Issues.whenever _ ((issues_quiet rfl).bind fun missing => ?_)).bind fun _ =>
      (Issues.orElseGive (issues_quiet rfl) _).bind fun _ =>
        Issues.whenever _ (issues_noteWarning (by decide))
    split
    · exact Issues.logged (issues_endReservation _ (by decide) (by decide) issues_freeDisk)
    · refine (issues_quiet rfl).bind fun dead => ?_
      split
      · exact (issues_quiet rfl).bind fun reason => Issues.logged
          (issues_endReservation _ (by decide) (by decide) issues_cleanupNamedPod)
      · exact (Issues.orElseGive (issues_quiet rfl) _).bind fun _ =>
          Issues.whenever _ (issues_noteWarning (by decide))

theorem issues_expirePreparing : (expirePreparing reservation).Issues P :=
  Issues.logged ((issues_quiet rfl).bind fun _ => Issues.whenever _ (Issues.logged
    (issues_endReservation _ (by decide) (by decide) issues_cleanupNamedPod)))

theorem issues_expireQueued : (expireQueued reservation).Issues P :=
  (Issues.orElseGive (issues_quiet rfl) _).bind fun _ => Issues.whenever _ (Issues.logged
    (issues_endReservation _ (by decide) (by decide) issues_freeDisk))

end

theorem meets_findReservationByPrefix [AllowsQuiet P] (hA : ShowsOnly A K) (r : String)
    (user : Option String) :
    (findReservationByPrefix r user).Meets A P (fun item => K item.key) fun _ => True := by
  unfold findReservationByPrefix
  extract_lets rest
  have hrest : ∀ exact : Option Attributes, (∀ item, exact = some item → K item.key) →
      Meets A P (fun item => K item.key) (fun _ => True) (rest exact) := by
    intro exact hexact
    dsimp only [rest]
    split
    · exact meets_pure (hexact _ rfl)
    · refine (meets_find hA _).bind fun found hfound => ?_
      split
      · exact meets_pure (hfound _ (by simp))
      · exact meets_throw trivial
      · exact meets_throw trivial
  split
  · refine Meets.bind (Q := fun exact => ∀ item, exact = some item → K item.key)
      (Meets.orElseGive (E := fun _ => True) ?_ fun _ h => by cases h) fun exact hexact =>
        hrest exact hexact
    exact (meets_getItem hA _ _).bind fun item hitem => meets_pure fun a ha =>
      hitem a (Option.filter_eq_some_iff.mp ha).1
  · exact (meets_pure fun _ h => by cases h).bind fun exact hexact => hrest exact hexact

theorem meets_lookUpReservation [AllowsQuiet P] (hA : ShowsOnly A K) (r : String)
    (user : Option String) :
    (lookUpReservation r user).Meets A P (fun found => ∀ item, found = .ok item → K item.key)
      fun _ => True := by
  refine Meets.tryCatch (E := fun _ => True) ((meets_findReservationByPrefix hA _ _).bind
    fun item hitem => meets_pure fun a ha => ?_) fun e _ => ?_
  · cases ha
    exact hitem
  · split
    · exact meets_pure fun _ h => nomatch h
    · exact meets_pure fun _ h => nomatch h

/-- A cancellation touches the reservation that it is shown. -/
theorem meets_processCancellationRequest [AllowsQuiet P] (hA : ShowsOnly A K)
    (hP : ∀ r, K r → Connects r P) (message : Attributes) :
    (processCancellationRequest message).Meets A P (fun _ => True) fun _ => True := by
  unfold processCancellationRequest
  dsimp only
  split
  · exact meets_pure trivial
  · refine Meets.orElseGive (E := fun _ => True) ((meets_lookUpReservation hA _ _).bind
      fun found hfound => ?_) trivial
    split
    · exact meets_pure trivial
    · split
      · have := hP _ (hfound _ rfl)
        exact issues_cancelReservation.meets.bind fun _ _ => meets_pure trivial
      · exact meets_pure trivial

/-- The expiry handler touches the reservations that it is shown. -/
theorem meets_expiryHandler [AllowsQuiet P] (hA : ShowsOnly A K) (hP : ∀ r, K r → Connects r P) :
    expiryHandler.Meets A P (fun _ => True) fun _ => True := by
  have hfind : ∀ s, (orElseGive (find s) []).Meets A P (fun items => ∀ item ∈ items, K item.key)
      fun _ => True := fun s => Meets.orElseGive (meets_find hA s) fun _ h => nomatch h
  have hforM : ∀ {items : List Attributes} {f : Attributes → Lambda Unit},
      (∀ item ∈ items, K item.key) → (∀ item, Serves item.key P → (f item).Issues P) →
        (items.forM f).Meets A P (fun _ => True) fun _ => True :=
    fun hitems hf => Meets.forM fun item hitem =>
      (hf item (hP _ (hitems item hitem)).toServes).meets
  refine (hfind _).bind fun active hactive => (hfind _).bind fun preparing hpreparing =>
    (hforM hpreparing fun _ _ => issues_expirePreparing).bind fun _ _ =>
    (hforM hactive fun _ _ => issues_expireActive).bind fun _ _ =>
    (meets_find hA _).bind fun queued hqueued => (meets_find hA _).bind fun pending hpending =>
    (hforM (List.forall_mem_append.mpr ⟨hqueued, hpending⟩) fun _ _ => issues_expireQueued).bind
      fun _ _ => (hfind _).bind fun failed hfailed =>
    (hforM hfailed fun _ _ => Issues.logged issues_cleanupNamedPod).bind fun _ _ =>
    (hfind _).bind fun expired hexpired => (hfind _).bind fun cancelled hcancelled =>
    hforM (List.forall_mem_append.mpr ⟨hexpired, hcancelled⟩)
      fun _ _ => Issues.logged issues_cleanupNamedPod

end Shown

section Pervading

variable {cfg : Settings} {P : Op → Prop} [Pervades P]

theorem issues_processScheduledQueueManagement :
    (processScheduledQueueManagement cfg).Issues P :=
  (meets_processScheduledQueueManagement showsOnly_any fun _ _ => inferInstance).issues

theorem issues_processCancellationRequest (message : Attributes) :
    (processCancellationRequest message).Issues P :=
  (meets_processCancellationRequest showsOnly_any (fun _ _ => inferInstance) message).issues

theorem issues_expiryHandler : expiryHandler.Issues P :=
  (meets_expiryHandler showsOnly_any fun _ _ => inferInstance).issues

end Pervading

section Lawful

variable {cfg : Settings}

theorem Op.IsLawful.coordinates (master : String) :
    Coordinates (fun _ => True) Op.IsLawful master where
  connects _ _ := inferInstance
  created _ _ _ h := nomatch h
  lock _ _ _ _ := isReservationKey_lockKey master
  unlock := isReservationKey_lockKey master

theorem lawful_startRequest (request : Attributes) (availableGpus : ℕ) :
    (startRequest cfg request availableGpus).Issues Op.IsLawful := by
  refine (Issues.whenever _ (issues_updateReservationStatus (by decide) _ _)).bind fun _ =>
    Issues.bind ?_ fun created => ?_
  · refine Issues.tryCatch ((meets_createReservation showsOnly_any (Op.IsLawful.coordinates "")
      trivial).issues.bind fun _ => trivial) fun e => ?_
    cases e <;> trivial
  · cases created with
    | none => trivial
    | some r =>
      exact (meets_allocateAdmitted fun _ _ => (issues_allocateGpuResources _ _ _).meets).issues

theorem lawful_processSingleNodeRequest (request : Attributes) :
    (processSingleNodeRequest cfg request).Issues Op.IsLawful := by
  refine (@issues_createInitialRecord cfg request Op.IsLawful _ fun _ _ _ _ h => nomatch h).bind
    fun terminated => ?_
  split
  · trivial
  · split
    · exact (issues_updateReservationStatus (by decide) _ _).bind fun _ => trivial
    · refine Issues.bind ?_ fun _ => trivial
      refine (issues_checkGpuAvailability _).bind fun availableGpus =>
        (issues_checkMaxGpusOnSingleNode _).bind fun maxSingleNode =>
        (issues_spotCpuWithoutNodes _ _).bind fun noNodes => ?_
      split
      · exact lawful_startRequest _ _
      · exact issues_queueRequest _ _

theorem lawful_handleReservationMessage (body : Attributes) :
    (handleReservationMessage cfg body).Issues Op.IsLawful :=
  (meets_handleReservationMessage (issues_tryClaimWarmPod.mono fun _ h => h.isLawful).meets
    (meets_processReservationRequest_of
      (fun _ => meets_processMultinode showsOnly_any (Op.IsLawful.coordinates _)
        fun _ _ _ h => nomatch h)
      fun _ => (lawful_processSingleNodeRequest body).meets)).issues

end Lawful

/-- What is invoked, or runs in the background. -/
inductive Invocation
  /-- The handler with a reservation message. -/
  | message (body : Attributes)
  /-- The handler with the schedule of the queue sweep. -/
  | sweep
  /-- The thread that watches the pod of a reservation. -/
  | monitor (podName reservationId : String) (rounds : ℕ)
  /-- The handler with a cancellation message. -/
  | cancellation (request : Attributes)
  /-- The expiry handler. -/
  | expiry

/-- The program that runs a Lambda and forgets what it gives or raises. -/
def toItsEnd {α : Type} (p : Lambda α) : Program Op Op.Res Unit := p.run.bind fun _ => .done ()

theorem onlyCalls_toItsEnd {α : Type} {P : Op → Prop} {p : Lambda α} (h : p.Issues P) :
    (toItsEnd p).OnlyCalls P := Program.OnlyCalls.bind h fun _ => trivial

theorem within_toItsEnd {α : Type} {A : Program.Event Op Op.Res → Prop} {P : Op → Prop}
    {Q : α → Prop} {E : Failure → Prop} {p : Lambda α} (h : p.Meets A P Q E) :
    (toItsEnd p).Within A P fun _ => True := Program.Within.bind h fun _ _ => trivial

/-- The program of an invocation. -/
def Invocation.program (cfg : Settings) : Invocation → Program Op Op.Res Unit
  | message body => toItsEnd (handleReservationMessage cfg body)
  | sweep => toItsEnd (processScheduledQueueManagement cfg)
  | monitor podName reservationId rounds => toItsEnd (monitorLoop podName reservationId rounds)
  | cancellation request => toItsEnd (processCancellationRequest request)
  | expiry => toItsEnd expiryHandler

/-- All calls of all invocations are lawful. -/
theorem Invocation.lawful (cfg : Settings) (inv : Invocation) :
    (inv.program cfg).OnlyCalls Op.IsLawful := by
  cases inv with
  | message body => exact onlyCalls_toItsEnd (lawful_handleReservationMessage body)
  | sweep => exact onlyCalls_toItsEnd issues_processScheduledQueueManagement
  | monitor podName r rounds => exact onlyCalls_toItsEnd (issues_monitorLoop podName rounds)
  | cancellation request => exact onlyCalls_toItsEnd (issues_processCancellationRequest request)
  | expiry => exact onlyCalls_toItsEnd issues_expiryHandler

end CiInfra.GpuDev

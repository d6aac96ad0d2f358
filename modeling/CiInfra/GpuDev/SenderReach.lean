import CiInfra.GpuDev.Footprints
import CiInfra.GpuDev.Management

/-!
# Whom a message reaches

A message about a reservation names it by a prefix of its id. Most handlers insist on a user and
look among the reservations of that user only. The handler of extensions does not, and without a
user it looks among the reservations of everybody.
-/

namespace CiInfra.GpuDev

open Interaction Program Fallible

/-- What a call can change. -/
inductive Target
  | record (id : String)
  | pod (name : String)
  | disk (user disk : String)

/-- What the call changes: a record, a pod with what runs in it and its services, or a disk. -/
def Op.targets : Op → List Target
  | putItem item _ => if isReservationKey item.key then [.record item.key] else []
  | updateItem id _ => [.record id]
  | deleteItem id => [.record id]
  | createPod name _ => [.pod name]
  | patchPod name _ _ => [.pod name]
  | deletePod name => [.pod name]
  | createVolume _ v => [.disk v.user (v.diskName.getD "")]
  | ask (.exec podName) => [.pod podName]
  | ask (.service podName) => [.pod podName]
  | ask (.jupyterService podName) => [.pod podName]
  | ask (.diskTable user disk) => [.disk user disk]
  | ask (.detachment user disk) => [.disk user disk]
  | ask (.diskEntry user disk) => [.disk user disk]
  | ask (.diskDeletion user disk _ _) => [.disk user disk]
  | ask (.clonedEntry user disk _ _ _) => [.disk user disk]
  | _ => []

/-- The target belongs to a reservation of the user. -/
def World.Belongs (w : World) (user : Option Value) : Target → Prop
  | .record id => ∃ item, w.table.get id = some item ∧ item "user_id" = user
  | .pod name => ∃ id item, w.table.get id = some item ∧ item "user_id" = user ∧
      item.text "pod_name" = name
  | .disk owner disk => ∃ id item, w.table.get id = some item ∧ item "user_id" = user ∧
      item.text "user_id" = owner ∧ item.text "disk_name" = disk

/-- The attributes of a record that say what belongs to it. -/
def ownershipNames : List String := ["user_id", "pod_name", "disk_name"]

/-- The item is a version of a record in the table. -/
def World.HasVersion (w : World) (item : Attributes) : Prop :=
  ∃ stored, w.table.get item.key = some stored ∧ ∀ name ∈ ownershipNames, stored name = item name

/-- What a lookup shows is what it asks for, and in the table. -/
def World.Shows (w : World) : Event Op Op.Res → Prop
  | ⟨.find s, .ok items⟩ => ∀ item ∈ items, s.selects item = true ∧ w.HasVersion item
  | ⟨.getItem id _, .ok (some item)⟩ => item.key = id ∧ w.HasVersion item
  | _ => True

/-- Whatever is in the table, all that the processing of the message changes belongs to
reservations of its sender. -/
def ActsOnlyForSender (message : Attributes) : Prop :=
  ∀ (cfg : Settings) (minVersion : String) (w w' : World) (t : List (Served Op Op.Res World))
    (r : Except Failure Bool),
    Exec Op.Answers (handleMessage cfg minVersion message).run w t r w' →
      (∀ x ∈ t, w.Shows ⟨x.op, x.res⟩) →
        ∀ x ∈ t, ∀ target ∈ x.op.targets, w.Belongs (message "user_id") target

/-! ### What the handlers do with a reservation -/

theorem issues_extendedDuration {P : Op → Prop} (item : Attributes) (hours : ℚ) :
    (extendedDuration item hours).Issues P := by
  unfold extendedDuration
  split
  · trivial
  · exact (issues_floatOf _ _ _).bind fun _ => issues_pure _

/-- The calls that are allowed of a handler that has found a reservation. -/
structure Allows (P : Op → Prop) (item : Attributes) : Prop where
  aside : ∀ op : Op, op.targets = [] → P op
  record : ∀ u, P (.updateItem item.key u)
  pod : ∀ op : Op, op.targets = [.pod (item.text "pod_name")] → P op
  disk : ∀ op : Op, op.targets = [.disk (item.text "user_id") (item.text "disk_name")] → P op

namespace Allows

variable {P : Op → Prop} {item : Attributes} (h : Allows P item)

include h

theorem issues_updateReservationFields (fields : List (String × Value)) :
    (updateReservationFields item.key fields).Issues P :=
  Issues.logged <| Issues.whenever _ <|
    (issues_request (h.aside _ rfl)).bind fun _ => issues_request (h.record _)

theorem issues_appendStatusHistory (timestamp message : String) :
    (appendStatusHistory item.key timestamp message).Issues P :=
  (issues_request (h.record _)).tryCatch fun _ => issues_request (h.record _)

theorem issues_cleanupPod : (cleanupPod (item.text "pod_name") item).Issues P :=
  Issues.logged <|
    (Issues.whenever _ (Issues.logged (issues_request (h.aside _ rfl)))).bind fun _ =>
    (Issues.logged (issues_request (h.pod _ rfl))).bind fun _ =>
    (issues_request (h.pod _ rfl)).tryCatch fun _ => issues_request (h.pod _ rfl)

theorem issues_freeDisk : (freeDisk item).Issues P :=
  Issues.whenever _ (Issues.logged (issues_request (h.disk _ rfl)))

theorem issues_cancelReservation : (cancelReservation item).Issues P :=
  (Issues.logged (issues_request (h.aside _ rfl))).bind fun _ =>
    (issues_request (h.aside _ rfl)).bind fun _ =>
    (h.issues_updateReservationFields _).bind fun _ =>
    (Issues.whenever _ h.issues_cleanupPod).bind fun _ =>
    (Issues.whenever _ (Issues.logged (issues_request (h.aside _ rfl)))).bind fun _ =>
    h.issues_freeDisk

theorem issues_jupyterPort : (jupyterPort (item.text "pod_name")).Issues P := by
  refine (issues_request (h.aside _ rfl)).tryCatch fun e => ?_
  split
  · exact (issues_request (h.aside _ rfl)).bind fun _ =>
      (issues_request (h.pod _ rfl)).bind fun _ => trivial
  · trivial

theorem issues_enableJupyterInPod :
    (enableJupyterInPod (item.text "pod_name") item.key).Issues P := by
  refine Issues.orElseGive ((Issues.orElseGive (issues_request (h.aside _ rfl)) _).bind
    fun running => ?_) _
  split
  · exact (h.issues_updateReservationFields _).bind fun _ => trivial
  · refine (issues_request (h.pod _ rfl)).bind fun started => ?_
    split
    · refine (Issues.tryCatch ?_ fun _ => h.issues_updateReservationFields _).bind fun _ => trivial
      exact h.issues_jupyterPort.bind fun _ => (issues_request (h.aside _ rfl)).bind fun _ =>
        (issues_request (h.aside _ rfl)).bind fun _ =>
        (issues_request (h.aside _ rfl)).bind fun _ =>
        (issues_request (h.aside _ rfl)).bind fun _ => h.issues_updateReservationFields _
    · trivial

theorem issues_disableJupyterInPod :
    (disableJupyterInPod (item.text "pod_name") item.key).Issues P := by
  refine Issues.orElseGive ((issues_request (h.pod _ rfl)).bind fun stopped => ?_) _
  split
  · exact (Issues.logged (issues_request (h.pod _ rfl))).bind fun _ =>
      (issues_request (h.aside _ rfl)).bind fun _ =>
      (issues_request (h.record _)).bind fun _ => trivial
  · trivial

theorem issues_getGithubPublicKey (user : String) : (getGithubPublicKey user).Issues P := by
  refine (issues_request (h.aside _ rfl)).bind fun cached => ?_
  split
  · trivial
  · refine (Issues.orElseGive ((issues_request (h.aside _ rfl)).bind fun _ =>
      (issues_request (h.aside _ rfl)).bind fun _ => issues_pure _) _).bind fun stored => ?_
    split
    · trivial
    · refine Issues.orElseGive ((issues_request (h.aside _ rfl)).bind fun keys => ?_) _
      split
      · trivial
      · refine (issues_request (h.aside _ rfl)).bind fun _ =>
          (Issues.logged (issues_request (h.aside _ ?_))).bind fun _ => trivial
        exact if_neg (by simp [Attributes.key, Attributes.text, Attributes.ofList, List.lookup_cons,
          isReservationKey_sshKeyCacheKey])

theorem issues_addUserToPod (user : String) :
    (addUserToPod (item.text "pod_name") item.key user).Issues P := by
  refine Issues.orElseGive ((h.issues_getGithubPublicKey user).bind fun keys => ?_) _
  split
  · trivial
  · refine (issues_request (h.pod _ rfl)).bind fun added => ?_
    split
    · exact (Issues.logged ((issues_request (h.aside _ rfl)).bind fun _ =>
        Issues.whenever _ (h.issues_updateReservationFields _))).bind fun _ => trivial
    · trivial

theorem issues_writeExtension (newExpiresAt : String) (hours : ℚ) :
    (writeExtension item newExpiresAt hours).Issues P := by
  refine Issues.tryCatch ?_ fun _ => (h.issues_updateReservationFields _).bind fun _ => trivial
  exact (issues_request (h.aside _ rfl)).bind fun _ => (issues_extendedDuration item hours).bind
    fun _ => (issues_request (h.record _)).bind fun _ =>
    (Issues.whenever _ (Issues.logged (issues_request (h.aside _ rfl)))).bind fun _ =>
    (Issues.whenever _ (Issues.logged (issues_request (h.pod _ rfl)))).bind fun _ =>
    (Issues.logged ((issues_request (h.aside _ rfl)).bind fun _ =>
      h.issues_appendStatusHistory _ _)).bind fun _ => trivial

theorem issues_extendReservation (hours : Value) : (extendReservation item hours).Issues P := by
  have hrefuse : ∀ reason, (refuseExtension item.key reason).Issues P := fun reason =>
    (h.issues_updateReservationFields _).bind fun _ => trivial
  unfold extendReservation
  dsimp only
  split
  · exact hrefuse _
  · split
    · exact hrefuse _
    · refine (Issues.outcome ((issues_request (h.aside _ rfl)).bind fun _ => ?_)).bind
        fun calculated => ?_
      · refine (issues_floatOf _ _ _).bind fun _ => ?_
        split
        · exact (issues_request (h.aside _ rfl)).bind fun _ => issues_pure _
        · exact (issues_pure _).bind fun _ => issues_pure _
      · split
        · exact hrefuse _
        · split
          · exact hrefuse _
          · exact h.issues_writeExtension _ _

end Allows

/-! ### Lookups -/

theorem Attributes.eq_text_of_text_ne {a : Attributes} {name : String} (h : a.text name ≠ "") :
    a name = some (.text (a.text name)) := by
  unfold text at h ⊢
  split
  · assumption
  · simp_all

/-- The call is about nothing but what belongs to the user. -/
def Op.IsForSender (w : World) (user : Option Value) (op : Op) : Prop :=
  ∀ target ∈ op.targets, w.Belongs user target

theorem Op.isForSender_aside {w : World} {user : Option Value} {op : Op} (h : op.targets = []) :
    op.IsForSender w user := by simp [IsForSender, h]

/-- All calls about a reservation of the user are for the user. -/
theorem World.HasVersion.allows {w : World} {item : Attributes} {user : Option Value}
    (h : w.HasVersion item) (huser : item "user_id" = user) :
    Allows (Op.IsForSender w user) item := by
  obtain ⟨stored, hstored, hsame⟩ := h
  have howner : stored "user_id" = item "user_id" := hsame _ (by simp [ownershipNames])
  have hpod : stored "pod_name" = item "pod_name" := hsame _ (by simp [ownershipNames])
  have hdisk : stored "disk_name" = item "disk_name" := hsame _ (by simp [ownershipNames])
  refine ⟨fun _ h => Op.isForSender_aside h, fun u => ?_, fun op hop => ?_, fun op hop => ?_⟩
  · simp only [Op.IsForSender, Op.targets, List.mem_singleton, forall_eq]
    exact ⟨stored, hstored, howner.trans huser⟩
  · simp only [Op.IsForSender, hop, List.mem_singleton, forall_eq]
    exact ⟨item.key, stored, hstored, howner.trans huser, by rw [Attributes.text, hpod]; rfl⟩
  · simp only [Op.IsForSender, hop, List.mem_singleton, forall_eq]
    exact ⟨item.key, stored, hstored, howner.trans huser, by rw [Attributes.text, howner]; rfl,
      by rw [Attributes.text, hdisk]; rfl⟩

/-- A lookup with a user finds a reservation of that user. -/
theorem meets_findReservationByPrefix_user (w : World) (r user : String) :
    (findReservationByPrefix r (some user)).Meets w.Shows (Op.IsForSender w (some (.text user)))
      (fun item => w.HasVersion item ∧ item "user_id" = some (.text user)) fun _ => True := by
  have howner : ∀ {item : Attributes}, item.isOneOf "user_id" [user] = true →
      item "user_id" = some (.text user) := by
    intro item h
    unfold Attributes.isOneOf at h
    split at h
    · simpa [‹item "user_id" = _›] using h
    · cases h
  unfold findReservationByPrefix
  extract_lets rest
  have hrest : ∀ exact : Option Attributes, (∀ item, exact = some item →
      w.HasVersion item ∧ item "user_id" = some (.text user)) →
      Meets w.Shows (Op.IsForSender w (some (.text user)))
        (fun item => w.HasVersion item ∧ item "user_id" = some (.text user)) (fun _ => True)
        (rest exact) := by
    intro exact hexact
    dsimp only [rest]
    split
    · exact meets_pure (hexact _ rfl)
    · refine (meets_request (Q := fun items : List Attributes => ∀ item ∈ items,
        w.HasVersion item ∧ item "user_id" = some (.text user)) (Op.isForSender_aside rfl)
          (fun found items hshown hfound => ?_) fun _ _ _ _ => trivial).bind fun items hitems => ?_
      · obtain rfl : found = .ok items := hfound
        intro item hitem
        obtain ⟨hselected, hversion⟩ := hshown item hitem
        simp only [prefixSearch, Selection.selects, Bool.and_eq_true] at hselected
        exact ⟨hversion, howner hselected.1⟩
      · split
        · exact meets_pure (hitems _ (by simp))
        · exact meets_throw trivial
        · exact meets_throw trivial
  split
  · refine Meets.bind (Q := fun exact => ∀ item, exact = some item →
      w.HasVersion item ∧ item "user_id" = some (.text user))
      (Meets.orElseGive (E := fun _ => True) ?_ fun _ h => by cases h) fun exact hexact =>
        hrest exact hexact
    refine (meets_request (Q := fun found => ∀ item, found = some item → w.HasVersion item)
      (Op.isForSender_aside rfl) (fun found item hshown hfound => ?_) fun _ _ _ _ => trivial).bind
        fun found hfound => meets_pure fun item hitem => ?_
    · obtain rfl : found = .ok item := hfound
      rintro a rfl
      exact hshown.2
    · obtain ⟨hsome, hcheck⟩ := Option.filter_eq_some_iff.mp hitem
      exact ⟨hfound _ hsome, howner (by simpa using hcheck)⟩
  · exact (meets_pure fun _ h => by cases h).bind fun exact hexact => hrest exact hexact

theorem meets_lookUpReservation_user (w : World) (r user : String) :
    (lookUpReservation r (some user)).Meets w.Shows (Op.IsForSender w (some (.text user)))
      (fun found => ∀ item, found = .ok item →
        w.HasVersion item ∧ item "user_id" = some (.text user)) fun _ => True := by
  refine Meets.tryCatch (E := fun _ => True) ((meets_findReservationByPrefix_user w r user).bind
    fun item hitem => meets_pure fun a ha => ?_) fun e _ => ?_
  · cases ha
    exact hitem
  · split
    · exact meets_pure fun _ h => nomatch h
    · exact meets_pure fun _ h => nomatch h

theorem meets_lookUpField (A : Event Op Op.Res → Prop) (P : Op → Prop) (message : Attributes)
    (name : String) : (lookUpField message name).Meets A P
      (fun s => message name = some (.text s)) fun _ => True := by
  unfold lookUpField
  split
  · exact meets_pure ‹_›
  · exact meets_throw trivial

/-! ### The handlers -/

section Handlers

variable (w : World) (message : Attributes)

/-- What acts on the reservation that a lookup with the user of the message has found acts for
this user. -/
theorem meets_lookUpReservation_bind {r user : String} {f : Except Bool Attributes → Lambda Bool}
    (huser : message "user_id" = some (.text user)) (hdone : ∀ done, f (.error done) = pure done)
    (hf : ∀ item P, Allows P item → (f (.ok item)).Issues P) :
    (lookUpReservation r (some user) >>= f).Meets w.Shows (Op.IsForSender w (message "user_id"))
      (fun _ => True) fun _ => True := by
  rw [huser]
  refine (meets_lookUpReservation_user w r user).bind fun found hfound => ?_
  cases found with
  | error done =>
    rw [hdone]
    exact meets_pure trivial
  | ok item =>
    obtain ⟨hversion, howner⟩ := hfound item rfl
    exact (hf item _ (hversion.allows howner)).meets

theorem meets_onActiveReservation (fields : List String)
    {act : (podName reservationId : String) → Lambda Bool}
    (hact : ∀ item P, Allows P item → (act (item.text "pod_name") item.key).Issues P) :
    (onActiveReservation message fields act).Meets w.Shows (Op.IsForSender w (message "user_id"))
      (fun _ => True) fun _ => True := by
  unfold onActiveReservation
  split
  · exact meets_pure trivial
  · refine Meets.orElseGive (E := fun _ => True) ((meets_lookUpField _ _ _ _).bind fun r _ =>
      (meets_lookUpField _ _ _ _).bind fun user huser =>
      meets_lookUpReservation_bind w message huser (fun _ => rfl) fun item P hP => ?_) trivial
    dsimp only
    split
    · trivial
    · split
      · trivial
      · split
        · trivial
        · exact hact item P hP

theorem meets_processJupyterAction_sender : (processJupyterAction message).Meets w.Shows
    (Op.IsForSender w (message "user_id")) (fun _ => True) fun _ => True := by
  refine meets_onActiveReservation w message _ fun item P hP => ?_
  split
  · exact hP.issues_enableJupyterInPod
  · split
    · exact hP.issues_disableJupyterInPod
    · trivial

theorem meets_processAddUserAction_sender : (processAddUserAction message).Meets w.Shows
    (Op.IsForSender w (message "user_id")) (fun _ => True) fun _ => True := by
  unfold processAddUserAction
  dsimp only
  refine meets_onActiveReservation w message _ fun item P hP => ?_
  exact (hP.issues_addUserToPod _).bind fun _ =>
    (hP.issues_updateReservationFields _).bind fun _ => trivial

theorem meets_processCancellationRequest_sender : (processCancellationRequest message).Meets
    w.Shows (Op.IsForSender w (message "user_id")) (fun _ => True) fun _ => True := by
  unfold processCancellationRequest
  dsimp only
  split
  · exact meets_pure trivial
  · rename_i h
    simp only [Bool.or_eq_true, decide_eq_true_eq, not_or] at h
    have huser := Attributes.eq_text_of_text_ne h.2
    refine Meets.orElseGive (E := fun _ => True) (meets_lookUpReservation_bind w message huser
      (fun _ => rfl) fun item P hP => ?_) trivial
    dsimp only
    split
    · exact hP.issues_cancelReservation.bind fun _ => trivial
    · trivial

end Handlers

/-! ### Whom an extension reaches -/

/-- The message asks for an extension of a reservation and names no user. -/
def WidensReach (message : Attributes) : Prop :=
  dispatch message = .extendReservation ∧ message.carriesAll extensionRequestFields = true ∧
    message.truthy "user_id" = false ∧ ∃ r, message "reservation_id" = some (.text r)

theorem meets_processExtendReservationAction_sender (w : World) {message : Attributes}
    (hdispatch : dispatch message = .extendReservation) (h : ¬ WidensReach message) :
    (processExtendReservationAction message).Meets w.Shows
      (Op.IsForSender w (message "user_id")) (fun _ => True) fun _ => True := by
  unfold processExtendReservationAction
  split
  · exact meets_pure trivial
  · rename_i hcarries
    have hcarries : message.carriesAll extensionRequestFields = true := by simpa using hcarries
    refine Meets.orElseGive (E := fun _ => True) ((meets_lookUpField _ _ _ _).bind fun r hr => ?_)
      trivial
    by_cases huser : message.truthy "user_id" = true
    · rw [lookUpUser, if_pos huser]
      refine Meets.bind (Q := fun user => ∃ u, user = some u ∧ message "user_id" = some (.text u))
        ((meets_lookUpField _ _ _ _).bind fun u hu => meets_pure ⟨u, rfl, hu⟩) ?_
      rintro _ ⟨u, rfl, hu⟩
      exact meets_lookUpReservation_bind w message hu (fun _ => rfl)
        fun _ _ hP => hP.issues_extendReservation _
    · exact absurd ⟨hdispatch, hcarries, by simpa using huser, r, hr⟩ h

/-- A reservation of somebody that has failed. -/
def somebodysRecord (r : String) : Attributes :=
  .ofList [("reservation_id", .text r), ("user_id", .text "somebody"), ("status", .text "failed")]

/-- A table with one reservation. -/
def somebodysWorld (r : String) : World where
  table := (∅ : Table).store r (somebodysRecord r)
  pods := ∅
  nodes := []
  volumes := ∅

theorem hasVersion_somebodysRecord (r : String) :
    (somebodysWorld r).HasVersion (somebodysRecord r) :=
  ⟨somebodysRecord r, Table.get_store_self _ _ _, fun _ _ => rfl⟩

/-- Without a user, the lookup finds the reservation of somebody. -/
theorem exists_exec_lookUpReservation (r : String) :
    ∃ t, Exec Op.Answers (lookUpReservation r none).run (somebodysWorld r) t
        (.ok (.ok (somebodysRecord r))) (somebodysWorld r) ∧
      ∀ x ∈ t, (somebodysWorld r).Shows ⟨x.op, x.res⟩ := by
  suffices h : ∃ t, Exec Op.Answers (findReservationByPrefix r none).run (somebodysWorld r) t
      (.ok (somebodysRecord r)) (somebodysWorld r) ∧
      ∀ x ∈ t, (somebodysWorld r).Shows ⟨x.op, x.res⟩ by
    obtain ⟨t, hexec, hshown⟩ := h
    exact ⟨_, exec_tryCatch_ok (exec_bind_ok hexec (.done _ _)) _, by simpa using hshown⟩
  have hversion := hasVersion_somebodysRecord r
  unfold findReservationByPrefix
  dsimp only
  split
  · have hget : Op.Answers (.getItem r false) (somebodysWorld r) (.ok (some (somebodysRecord r)))
        (somebodysWorld r) := ⟨rfl, fun h => nomatch h⟩
    have hitem : Exec Op.Answers (getItem r).run (somebodysWorld r) _
        (.ok (some (somebodysRecord r))) (somebodysWorld r) := .call hget (.done _ _)
    refine ⟨_, exec_bind_ok (exec_tryCatch_ok (exec_bind_ok hitem (.done _ _)) _) (.done _ _), ?_⟩
    simp only [List.append_nil, List.mem_singleton, forall_eq]
    exact ⟨rfl, hversion⟩
  · have hfind : Op.Answers (.find (.startingWith r)) (somebodysWorld r)
        (.ok [somebodysRecord r]) (somebodysWorld r) := rfl
    have hfound : Exec Op.Answers (find (prefixSearch r none)).run (somebodysWorld r) _
        (.ok [somebodysRecord r]) (somebodysWorld r) := .call hfind (.done _ _)
    refine ⟨_, exec_bind_ok (.done _ _) (exec_bind_ok hfound (.done _ _)), ?_⟩
    have hselects : (Selection.startingWith r).selects (somebodysRecord r) = true := by
      simp [Selection.selects, somebodysRecord, Attributes.key, Attributes.text,
        Attributes.ofList, List.lookup_cons]
    simp only [List.nil_append, List.append_nil, List.mem_singleton, forall_eq]
    intro item hitem
    rw [List.mem_singleton.mp hitem]
    exact ⟨hselects, hversion⟩

/-- The refusal of an extension is written to the record. -/
theorem exists_exec_refuseExtension {r : String} (hr : r ≠ "") (reason : String) :
    ∃ u w' t, Exec Op.Answers (refuseExtension r reason).run (somebodysWorld r) t (.ok true) w' ∧
      ⟨.updateItem r u, .ok (), somebodysWorld r, w'⟩ ∈ t ∧
      ∀ x ∈ t, (somebodysWorld r).Shows ⟨x.op, x.res⟩ := by
  let u : Update := .set
    [("last_updated", .number (0 : ℚ).floor), ("extension_error", .text reason)]
  obtain ⟨w', hw'⟩ : ∃ w', Op.Answers (.updateItem r u) (somebodysWorld r) (.ok ()) w' := ⟨_, rfl⟩
  have hepoch : Op.Answers .epoch (somebodysWorld r) (0 : ℚ) (somebodysWorld r) := rfl
  let t : List (Served Op Op.Res World) := [⟨.epoch, (0 : ℚ), somebodysWorld r, somebodysWorld r⟩,
    ⟨.updateItem r u, .ok (), somebodysWorld r, w'⟩]
  have hfields : Exec Op.Answers (updateReservationFields r
      [("extension_error", .text reason)]).run (somebodysWorld r) t (.ok ()) w' := by
    refine exec_tryCatch_ok ?_ _
    rw [whenever, if_pos (by simp [hr])]
    exact .call hepoch (.call hw' (.done _ _))
  refine ⟨u, w', t, exec_bind_ok hfields (.done _ _), by simp [t], ?_⟩
  simp [t, World.Shows]

/-- An extension without a user writes to the record of somebody. -/
theorem WidensReach.not_onlyForSender {message : Attributes} (h : WidensReach message) :
    ¬ ActsOnlyForSender message := by
  obtain ⟨hdispatch, hcarries, huser, r, hr⟩ := h
  intro honly
  have hr0 : r ≠ "" := by
    rintro rfl
    simp [Attributes.carriesAll, extensionRequestFields, Attributes.truthy, hr,
      Value.truthy] at hcarries
  obtain ⟨t, hlookUp, hshown⟩ := exists_exec_lookUpReservation r
  obtain ⟨u, w', t', hupdate, hmem, hquiet⟩ :=
    exists_exec_refuseExtension hr0 "Cannot extend reservation in this status"
  have hplain : isPlainRequest message = false := by
    rw [← Bool.not_eq_true]
    intro hplain
    cases (dispatch_of_isPlainRequest hplain).symm.trans hdispatch
  have hfield : lookUpField message "reservation_id" = pure r := by rw [lookUpField, hr]
  have hnone : lookUpUser message = pure none := by rw [lookUpUser, huser]; rfl
  have hbody : Exec Op.Answers (handleMessage .usual "" message).run (somebodysWorld r)
      (t ++ t') (.ok true) w' := by
    rw [handleMessage_of_not_plain hplain, hdispatch]
    refine exec_tryCatch_ok ?_ _
    simp only [Action.handle, processExtendReservationAction, hcarries, hfield, hnone]
    exact exec_tryCatch_ok (exec_bind_ok (.done _ _) (exec_bind_ok (.done _ _)
      (exec_bind_ok hlookUp hupdate))) _
  obtain ⟨item, hitem, howner⟩ := honly _ _ _ _ _ _ hbody
    (List.forall_mem_append.mpr ⟨hshown, hquiet⟩) _ (List.mem_append_right t hmem)
    (.record r) List.mem_cons_self
  obtain rfl : somebodysRecord r = item :=
    Option.some.inj ((Table.get_store_self _ _ _).symm.trans hitem)
  have htruthy : message.truthy "user_id" = true := by
    rw [Attributes.truthy, ← howner]
    rfl
  rw [htruthy] at huser
  cases huser

/-- The message manages a reservation. -/
def ManagesReservation (message : Attributes) : Prop :=
  dispatch message ∈ [.cancellation, .jupyter, .addUser, .extendReservation]

instance (message : Attributes) : Decidable (ManagesReservation message) :=
  inferInstanceAs (Decidable (_ ∈ _))

/-- A message that manages a reservation acts only for its sender, unless it asks for an extension
and names no user. -/
theorem actsOnlyForSender_iff {message : Attributes} (h : ManagesReservation message) :
    ActsOnlyForSender message ↔ ¬ WidensReach message := by
  constructor
  · exact fun honly hwidens => hwidens.not_onlyForSender honly
  · intro hnot cfg minVersion w w' t r hexec hshown
    have hplain : isPlainRequest message = false := by
      rw [← Bool.not_eq_true]
      intro hplain
      rw [ManagesReservation, dispatch_of_isPlainRequest hplain] at h
      simp at h
    rw [handleMessage_of_not_plain hplain] at hexec
    have hhandle : ((dispatch message).handle cfg message).Meets w.Shows
        (Op.IsForSender w (message "user_id")) (fun _ => True) fun _ => True := by
      simp only [ManagesReservation, List.mem_cons, List.not_mem_nil, or_false] at h
      rcases h with h | h | h | h
      · rw [h]
        exact meets_processCancellationRequest_sender w message
      · rw [h]
        exact meets_processJupyterAction_sender w message
      · rw [h]
        exact meets_processAddUserAction_sender w message
      · rw [h]
        exact meets_processExtendReservationAction_sender w h hnot
    have hall : (orElseGive ((dispatch message).handle cfg message) false).Meets w.Shows
        (Op.IsForSender w (message "user_id")) (fun _ => True) fun _ => True :=
      Meets.orElseGive hhandle trivial
    exact (hexec.within hall hshown).1

/-- An extension with a user acts only for the user. -/
theorem actsOnlyForSender_extension : ActsOnlyForSender (.ofList
    [("action", .text "extend_reservation"), ("reservation_id", .text "5f0c"),
      ("user_id", .text "ada"), ("extension_hours", .number 2)]) :=
  (actsOnlyForSender_iff (by decide)).mpr fun h => nomatch h.2.2.1

/-- An extension without a user does not act only for its sender. -/
theorem not_actsOnlyForSender : ¬ ActsOnlyForSender (.ofList
    [("action", .text "extend_reservation"), ("reservation_id", .text "5f0c"),
      ("extension_hours", .number 2)]) :=
  WidensReach.not_onlyForSender ⟨by decide, by decide +kernel, by decide, "5f0c", rfl⟩

end CiInfra.GpuDev

import CiInfra.GpuDev.ExpiryFootprints

/-!
# What an acknowledged cancellation says

A cancellation updates the record of the reservation, then deletes its pod and clears the lock of
its disk, and the message is done with. `update_reservation_fields` logs whatever goes wrong, so
nothing that follows it depends on whether the record has been updated.
-/

namespace CiInfra.GpuDev.Lifecycle

open Interaction Fallible

/-- A call of a run with the worlds around it. -/
abbrev ServedCall := Program.Served Op Op.Res World

/-- The statuses in which a reservation can be cancelled. -/
def cancellableStatuses : List String := ["active", "queued", "pending", "preparing"]

/-- The stored record says that the reservation has been cancelled, and when. -/
def World.isCancelled (w : World) (id : String) : Prop :=
  ∃ x ∈ w.records.lookup id, x.status = "cancelled" ∧ x.cancelledAt ≠ none

/-- The call deletes a pod or clears the lock of a disk. -/
def Op.isDestructive : Op → Bool
  | deletePod _ _ | freeDisk _ _ _ => true
  | _ => false

/-- The message is done with only if the reservation is cancelled, and pods are deleted and locks
cleared only once it is. -/
def acknowledgesWhatHolds (id : String) (t : List ServedCall) (result : Except Failure Bool)
    (w' : World) : Prop :=
  (result = .ok true → w'.isCancelled id) ∧
    ∀ e ∈ t, e.op.isDestructive = true → e.before.isCancelled id

/-- The updates of the record that a run asks for take effect. -/
def updatesTakeEffect (id : String) (t : List ServedCall) : Prop :=
  ∀ e ∈ t, ∀ change, e.op = .update id change → e.after = e.before.update id change

/-- A run of `process_cancellation_request` that finds a reservation which can be cancelled. -/
structure Cancels (reservationId user : String) (r : Record) (w : World) (t : List ServedCall)
    (result : Except Failure Bool) (w' : World) : Prop where
  named : reservationId ≠ "" ∧ user ≠ ""
  found : ∃ t₁ t₂ w₁, t = t₁ ++ t₂ ∧
    Program.Exec Op.Answers (lookUpReservation reservationId user).run w t₁ (.ok (.ok r)) w₁
  shown : r.status ∈ cancellableStatuses
  stored : ∃ x ∈ w.records.lookup r.id, x.status ∈ cancellableStatuses
  runs : Program.Exec Op.Answers (processCancellationRequest reservationId user).run w t result w'

/-! ### What a cancellation does -/

/-- The call leaves all records as they are. -/
def Op.keepsRecords : Op → Bool
  | update _ _ => false
  | _ => true

theorem Op.not_isIncidental_of_isDestructive {op : Op} (h : op.isDestructive = true) :
    ¬ op.IsIncidental = true := by
  cases op <;> first | exact Bool.false_ne_true | cases h

theorem Op.Answers.records {op : Op} {w w' : World} {res : op.Res}
    (hop : op.keepsRecords = true) (h : op.Answers w res w') (id : String) :
    w'.records.lookup id = w.records.lookup id := by
  rcases h.record id with hsame | ⟨change, rfl, -⟩
  · exact hsame
  · cases hop

/-- Calls that keep all records keep that a reservation is cancelled. -/
theorem Op.Answers.isCancelled {op : Op} {w w' : World} {res : op.Res} {id : String}
    (hop : op.keepsRecords = true) (h : op.Answers w res w') (hw : w.isCancelled id) :
    w'.isCancelled id := by
  unfold World.isCancelled
  rwa [h.records hop id]

/-- Where the update takes effect, the reservation is cancelled. -/
theorem World.isCancelled_update (w : World) (id : String) (now : ℚ) :
    (w.update id (.cancelled now)).isCancelled id :=
  ⟨_, w.lookup_update_self id _, rfl, by simp [Change.apply]⟩

/-- A reservation that can be cancelled is not cancelled. -/
theorem World.not_isCancelled {w w' : World} {id : String}
    (hw : ∃ x ∈ w.records.lookup id, x.status ∈ cancellableStatuses)
    (h : w'.records.lookup id = w.records.lookup id) : ¬ w'.isCancelled id := by
  rintro ⟨y, hy, hstatus, -⟩
  obtain ⟨x, hx, hlive⟩ := hw
  rw [h] at hy
  obtain rfl := Option.some.inj (hx.symm.trans hy)
  rw [hstatus] at hlive
  revert hlive
  decide

instance : AllowsIncidental fun op : Op => op.IsIncidental = true := ⟨fun _ h => h⟩

theorem Op.keepsRecords_of_isIncidental (op : Op) (h : op.IsIncidental = true) :
    op.keepsRecords = true := by
  cases op <;> first | rfl | cases h

instance : AllowsIncidental fun op : Op => op.keepsRecords = true :=
  ⟨Op.keepsRecords_of_isIncidental⟩

/-- Looking a reservation up touches nothing. -/
theorem issues_lookUpReservation (reservationId user : String) :
    (lookUpReservation reservationId user).Issues fun op => op.IsIncidental = true :=
  (meets_lookUpReservation (A := fun _ => True) (F := fun _ => True) (fun _ _ _ => trivial)
    (fun _ _ _ _ _ _ => trivial) reservationId user).issues

/-- What `process_cancellation_request` does after the update of the record. -/
def afterCancelledUpdate (reservation : Record) (user : String) : Lambda Unit := do
  whenever (reservation.status = "active" && reservation.podName ≠ "" && reservation.user ≠ "")
    (cancelActive reservation)
  whenever (reservation.domainName ≠ "")
    (logged (errand (.domainMapping reservation.domainName)))
  whenever (reservation.diskName ≠ "" && reservation.status ≠ "active")
    (markDiskInUseFalse user reservation.diskName (some reservation.id))

theorem cancelReservation_eq (reservation : Record) (user : String) :
    cancelReservation reservation user = (do
      logged (errand (.stopMonitoring reservation.id))
      let now ← utcnow
      updateReservationFields reservation.id (.cancelled now)
      afterCancelledUpdate reservation user) := rfl

/-- What follows the update leaves all records as they are, and raises nothing. -/
theorem meets_afterCancelledUpdate (x : Record) (user : String) :
    (afterCancelledUpdate x user).Meets (fun _ => True) (fun op => op.keepsRecords = true)
      (fun _ => True) fun _ => False := by
  have hfree : ∀ user disk : String, (markDiskInUseFalse user disk (some x.id)).Meets
      (fun _ => True) (fun op => op.keepsRecords = true) (fun _ => True) fun _ => False :=
    fun _ _ => Meets.logged (E := fun _ => True) 
      (issues_request (P := fun op : Op => op.keepsRecords = true) rfl).meets
  have herrand : ∀ c what, (whenever c (logged (errand what))).Meets (fun _ => True)
      (fun op => op.keepsRecords = true) (fun _ => True) fun _ => False := fun _ _ =>
    Meets.whenever (fun _ => trivial) fun _ =>
      Meets.logged (E := fun _ => True) (issues_incidental rfl).meets
  refine Meets.bind (Q := fun _ => True) (Meets.whenever (fun _ => trivial) fun _ => ?_) fun _ _ =>
    (herrand _ _).bind fun _ _ => Meets.whenever (fun _ => trivial) fun _ => hfree _ _
  refine Meets.bind (Q := fun _ => True) (Meets.logged (E := fun _ => True) ?_) fun _ _ =>
    Meets.whenever (fun _ => trivial) fun _ => hfree _ _
  refine Meets.bind (Q := fun _ => True) (Meets.whenever (fun _ => trivial) fun _ =>
      (Issues.whenever _ (Issues.logged (issues_incidental rfl))).meets.bind fun _ _ =>
      (keeps_safeCreateSnapshot _ _ _).bind fun _ _ => meets_pure trivial) fun _ _ =>
    (keeps_cleanupPodResources fun _ => rfl).bind fun _ _ =>
    (Issues.whenever _ (Issues.logged (issues_incidental rfl))).meets

/-- A cancellation updates the record, once, before anything is taken down; whatever becomes of
the update, it goes on and raises nothing. -/
theorem exec_cancelReservation {x : Record} {user : String} {w w' : World} {t : List ServedCall}
    {r : Except Failure Unit}
    (h : Program.Exec Op.Answers (cancelReservation x user).run w t r w') :
    r = .ok () ∧ ∃ before after now res w₁ w₂,
      t = before ++ ⟨.update x.id (.cancelled now), res, w₁, w₂⟩ :: after ∧
      (∀ e ∈ before, e.op.IsIncidental = true) ∧ w₁.records.lookup x.id = w.records.lookup x.id ∧
      AnswersWrite w₁ (w₁.update x.id (.cancelled now)) res w₂ ∧
      Program.Exec Op.Answers (afterCancelledUpdate x user).run w₂ after r w' := by
  rw [cancelReservation_eq] at h
  rcases exec_bind h with ⟨_, rfl, hstop⟩ | ⟨_, w₀, t₀, t', rfl, hstop, h₁⟩
  · obtain ⟨herror, -⟩ := exec_logged hstop
    cases herror
  obtain ⟨-, _, hstop⟩ := exec_logged hstop
  obtain ⟨_, rfl, rfl, -⟩ := exec_request hstop
  rcases exec_bind h₁ with ⟨_, rfl, hnow⟩ | ⟨now, w₁, t₁, t', rfl, hnow, h₂⟩
  · obtain ⟨_, -, -, herror⟩ := exec_request hnow
    cases herror
  obtain ⟨_, rfl, ⟨rfl, -⟩, -⟩ := exec_request hnow
  rcases exec_bind h₂ with ⟨_, rfl, hupdate⟩ | ⟨_, w₂, t₂, t', rfl, hupdate, h₃⟩
  · obtain ⟨herror, -⟩ := exec_logged hupdate
    cases herror
  obtain ⟨-, _, hupdate⟩ := exec_logged hupdate
  obtain ⟨res, rfl, hres, -⟩ := exec_request hupdate
  have hresult := (h₃.within (meets_afterCancelledUpdate x user) fun _ _ => trivial).2
  cases r with
  | error _ => exact hresult.elim
  | ok _ =>
    exact ⟨rfl, [⟨.errand (.stopMonitoring x.id), _, w₁, w₁⟩, ⟨.utcnow, _, w₁, w₁⟩], _, now, res,
      _, w₂, rfl, by simp [Op.IsIncidental], rfl, hres, h₃⟩

/-- Once the reservation is found, its cancellation is all that is left to do. -/
theorem Cancels.exec {reservationId user : String} {x : Record} {w w' : World}
    {t : List ServedCall} {result : Except Failure Bool}
    (h : Cancels reservationId user x w t result w') :
    result = .ok true ∧ ∃ t₁ t₂ w₁, t = t₁ ++ t₂ ∧ (∀ e ∈ t₁, e.op.IsIncidental = true) ∧
      w₁.records.lookup x.id = w.records.lookup x.id ∧
      Program.Exec Op.Answers (cancelReservation x user).run w₁ t₂ (.ok ()) w' := by
  obtain ⟨t₁, t₂, w₁, rfl, hfound⟩ := h.found
  have hrun := h.runs
  rw [processCancellationRequest, if_neg (by simp [h.named])] at hrun
  obtain ⟨r, w₂, u, v, huv, hbody, hend⟩ := Program.exec_bind_iff.mp hrun
  have hcancels : ["active", "queued", "pending", "preparing"].contains x.status = true :=
    List.contains_iff_mem.mpr h.shown
  rcases exec_bind hbody with ⟨e, rfl, hraised⟩ | ⟨found, w₃, u₁, u₂, rfl, hlookup, hrest⟩
  · obtain ⟨-, hne, -⟩ := hfound.unique hraised huv
    cases hne
  obtain ⟨rfl, hsame, rfl⟩ := hfound.unique hlookup (by rw [huv, List.append_assoc])
  obtain rfl : .ok x = found := Except.ok.inj hsame
  dsimp only at hrest
  rw [if_pos hcancels] at hrest
  rcases exec_bind hrest with ⟨e, rfl, hraised⟩ | ⟨_, w₄, u₃, u₄, rfl, hcancel, hdone⟩
  · cases (exec_cancelReservation hraised).1
  obtain ⟨rfl, rfl, rfl⟩ := Program.exec_done_iff.mp hdone
  obtain ⟨rfl, rfl, rfl⟩ := Program.exec_done_iff.mp hend
  have hincidental := issues_lookUpReservation reservationId user
  refine ⟨rfl, t₁, u₃, w₁, by rw [huv, List.append_nil, List.append_nil], hfound.calls hincidental,
    ?_, hcancel⟩
  refine hfound.keeps (K := fun s => s.records.lookup x.id = w.records.lookup x.id)
    (fun op s res s' hop hres hs => ?_) hincidental rfl
  exact (hres.records (op.keepsRecords_of_isIncidental hop) x.id).trans hs

/-- A lookup that finds a reservation, and its cancellation, make up a run. -/
theorem Cancels.of_found {reservationId user : String} {x : Record} {w w₁ w' : World}
    {t₁ t₂ : List ServedCall} (hnamed : reservationId ≠ "" ∧ user ≠ "")
    (hshown : x.status ∈ cancellableStatuses)
    (hstored : ∃ y ∈ w.records.lookup x.id, y.status ∈ cancellableStatuses)
    (hfound : Program.Exec Op.Answers (lookUpReservation reservationId user).run w t₁
      (.ok (.ok x)) w₁)
    (hcancel : Program.Exec Op.Answers (cancelReservation x user).run w₁ t₂ (.ok ()) w') :
    Cancels reservationId user x w (t₁ ++ t₂) (.ok true) w' := by
  refine ⟨hnamed, ⟨t₁, t₂, w₁, rfl, hfound⟩, hshown, hstored, ?_⟩
  rw [processCancellationRequest, if_neg (by simp [hnamed])]
  refine exec_tryCatch_ok (exec_bind_ok hfound ?_) _
  have hcancels : ["active", "queued", "pending", "preparing"].contains x.status = true :=
    List.contains_iff_mem.mpr hshown
  dsimp only
  rw [if_pos hcancels, ← List.append_nil t₂]
  exact exec_bind_ok hcancel (.done _ _)

/-! ### Exactly when -/

/-- A cancellation is acknowledged for a reservation that is cancelled, and takes down what it takes
down only then, exactly in the runs in which the update of the record takes effect. -/
theorem cancellation_acknowledged_iff {reservationId user : String} {x : Record} {w w' : World}
    {t : List ServedCall} {result : Except Failure Bool}
    (h : Cancels reservationId user x w t result w') :
    acknowledgesWhatHolds x.id t result w' ↔ updatesTakeEffect x.id t := by
  obtain ⟨rfl, t₁, t₂, w₁, rfl, hlookup, hw₁, hcancel⟩ := h.exec
  obtain ⟨-, before, after, now, res, w₂, w₃, rfl, hbefore, hw₂, hres, hrest⟩ :=
    exec_cancelReservation hcancel
  have hcalls := (hrest.within (meets_afterCancelledUpdate x user) fun _ _ => trivial).1
  have hissues : (afterCancelledUpdate x user).run.OnlyCalls fun op => op.keepsRecords = true :=
    (meets_afterCancelledUpdate x user).issues
  constructor
  · rintro ⟨hacknowledged, -⟩ e he change hop
    simp only [List.mem_append, List.mem_cons] at he
    rcases he with he | he | rfl | he
    · have hincidental := hlookup e he
      rw [hop] at hincidental
      cases hincidental
    · have hincidental := hbefore e he
      rw [hop] at hincidental
      cases hincidental
    · obtain rfl : Change.cancelled now = change := (Op.update.inj hop).2
      cases res with
      | ok _ => exact hres
      | error _ =>
        refine hres.resolve_left fun hlost => ?_
        refine World.not_isCancelled h.stored ?_ (hacknowledged rfl)
        subst hlost
        refine (hrest.keeps (K := fun s => s.records.lookup x.id = w₃.records.lookup x.id)
          (fun op s res s' hop hres hs => (hres.records hop x.id).trans hs) hissues rfl).trans ?_
        exact hw₂.trans hw₁
    · have hkeeps := hcalls e he
      rw [hop] at hkeeps
      cases hkeeps
  · intro happlied
    have hupdate : w₃ = w₂.update x.id (.cancelled now) :=
      happlied ⟨.update x.id (.cancelled now), res, w₂, w₃⟩ (by simp) _ rfl
    have hcancelled : w₃.isCancelled x.id := hupdate ▸ w₂.isCancelled_update x.id now
    have hkeep : ∀ (op : Op) (s : World) (res : op.Res) (s' : World), op.keepsRecords = true →
        op.Answers s res s' → s.isCancelled x.id → s'.isCancelled x.id :=
      fun op s res s' hop hres hs => hres.isCancelled hop hs
    refine ⟨fun _ => hrest.keeps hkeep hissues hcancelled, fun e he hdestroys => ?_⟩
    simp only [List.mem_append, List.mem_cons] at he
    rcases he with he | he | rfl | he
    · exact absurd (hlookup e he) (Op.not_isIncidental_of_isDestructive hdestroys)
    · exact absurd (hbefore e he) (Op.not_isIncidental_of_isDestructive hdestroys)
    · cases hdestroys
    · exact hrest.keeps_before hkeep hissues hcancelled e he

/-! ### A reservation in use -/

/-- An active reservation with a disk. -/
def notebook : Record :=
  { Record.fresh "6f1d3c52-9a0b-4c7e-8d25-1b7e0a4f9c33" with
    userId := some "mira", status := "active", podName := "gpu-dev-6f1d3c52", diskName := "data" }

/-- The reservation with its pod and its lock. -/
def notebookRuns : World where
  clock := ⟨0, by decide⟩
  records := AList.singleton notebook.id notebook
  pods := AList.singleton notebook.podName
    ⟨notebook.id, "mira", "", ⟨"Running", "", "", none, true, none⟩⟩
  disks := AList.singleton ("mira", "data") ⟨true, notebook.id⟩
  volumes := ∅
  snapshots := ∅

/-- DynamoDB refuses all updates; everything else goes well. -/
def refuseUpdates : (op : Op) → World → op.Res × World
  | .update _ _, w => (.error (.error "ProvisionedThroughputExceededException"), w)
  | op, w => Script.fine.serve op w

theorem answers_refuseUpdates (op : Op) (w : World) :
    op.Answers w (refuseUpdates op w).1 (refuseUpdates op w).2 := by
  cases op with
  | update => exact Or.inl rfl
  | _ => exact Script.fine.answers_serve _ w

/-- The calls of the cancellation of the reservation. -/
def notebookCancelled (serve : (op : Op) → World → op.Res × World) : List ServedCall :=
  (lookUpReservation notebook.id "mira").run.exchanges serve notebookRuns ++
    (cancelReservation notebook "mira").run.exchanges serve notebookRuns

/-- The world after it. -/
def afterNotebook (serve : (op : Op) → World → op.Res × World) : World :=
  ((cancelReservation notebook "mira").result serve notebookRuns).2

theorem cancels_notebook {serve : (op : Op) → World → op.Res × World}
    (hserve : ∀ (op : Op) (w : World), op.Answers w (serve op w).1 (serve op w).2)
    (hfound : (lookUpReservation notebook.id "mira").result serve notebookRuns =
      (.ok (.ok notebook), notebookRuns)) :
    Cancels notebook.id "mira" notebook notebookRuns (notebookCancelled serve) (.ok true)
      (afterNotebook serve) := by
  have hlookup := Program.exec_run hserve (lookUpReservation notebook.id "mira").run notebookRuns
  have hresult : (lookUpReservation notebook.id "mira").run.run serve notebookRuns = _ := hfound
  rw [hresult] at hlookup
  have hcancel := Program.exec_run hserve (cancelReservation notebook "mira").run notebookRuns
  rw [(exec_cancelReservation hcancel).1] at hcancel
  exact .of_found (by decide) (by decide) ⟨notebook, rfl, by decide⟩ hlookup hcancel

theorem lookUp_notebook_fine :
    (lookUpReservation notebook.id "mira").result Script.fine.serve notebookRuns =
      (.ok (.ok notebook), notebookRuns) := rfl

theorem lookUp_notebook_refuseUpdates :
    (lookUpReservation notebook.id "mira").result refuseUpdates notebookRuns =
      (.ok (.ok notebook), notebookRuns) := rfl

theorem cancellation_acknowledged_notebook :
    acknowledgesWhatHolds notebook.id (notebookCancelled Script.fine.serve) (.ok true)
        (afterNotebook Script.fine.serve) ↔
      updatesTakeEffect notebook.id (notebookCancelled Script.fine.serve) :=
  cancellation_acknowledged_iff (cancels_notebook Script.fine.answers_serve lookUp_notebook_fine)

/-- The update is refused; the pod is deleted, the lock is cleared, the message is done with, and
the reservation stays active. -/
theorem not_acknowledgesWhatHolds_notebook :
    Cancels notebook.id "mira" notebook notebookRuns (notebookCancelled refuseUpdates) (.ok true)
      (afterNotebook refuseUpdates) ∧
    ¬ acknowledgesWhatHolds notebook.id (notebookCancelled refuseUpdates) (.ok true)
      (afterNotebook refuseUpdates) :=
  ⟨cancels_notebook answers_refuseUpdates lookUp_notebook_refuseUpdates, fun h =>
    World.not_isCancelled (w := notebookRuns) ⟨notebook, rfl, by decide⟩ rfl (h.1 rfl)⟩

end CiInfra.GpuDev.Lifecycle

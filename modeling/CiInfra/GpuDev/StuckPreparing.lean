import CiInfra.GpuDev.ExpirySafety

/-!
# Reservations that are stuck in preparing

Every run of the expiry handler fails the preparing reservations that were created more than an
hour ago. Its message says that they have been preparing for that long, but a reservation waits in
the queue before it is prepared, and nothing that happens to it changes its `created_at`. A run is
right about the reservations that it does not meet in between: later than an hour after their
creation, and earlier than an hour after they became preparing.
-/

namespace CiInfra.GpuDev.Lifecycle

open Interaction Fallible

/-- The reservation that `expire_stuck_preparing_reservation` is applied to. -/
def Op.failsAsStuck : Op → Option String
  | update id (.stuck _) => some id
  | _ => none

/-- The reservation has the status `preparing`. -/
def World.isPreparing (w : World) (r : String) : Bool :=
  (w.records.lookup r).any (·.status = "preparing")

/-- `created_timestamp < preparing_timeout_threshold`. -/
def Record.isPastTimeout (currentTime : ℤ) (x : Record) : Bool :=
  (seconds? x.createdAt).any (· < currentTime - 3600)

section Histories

variable {ι : Type}

/-- Since when a reservation has been preparing without a break. -/
def preparingSince (r : String) (past : List (Occurrence ι)) : Option ℚ :=
  heldSince (World.isPreparing · r) (·.clock.1) past

/-- What is failed as stuck has been preparing without a break for more than an hour. -/
def failsOnlyStuck (past : List (Occurrence ι)) (e : Occurrence ι) : Prop :=
  ∀ c ∈ e.call, ∀ r ∈ c.2.1.failsAsStuck,
    ∃ since ∈ preparingSince r past, since + 3600 < e.before.clock.1

/-- Only stuck reservations are failed as stuck. -/
def OnlyStuckFailed (es : List (Occurrence ι)) : Prop := Throughout failsOnlyStuck es

instance (past : List (Occurrence ι)) (e : Occurrence ι) : Decidable (failsOnlyStuck past e) :=
  inferInstanceAs (Decidable (∀ c ∈ e.call, ∀ r ∈ c.2.1.failsAsStuck,
    ∃ since ∈ preparingSince r past, since + 3600 < e.before.clock.1))

instance (es : List (Occurrence ι)) : Decidable (OnlyStuckFailed es) :=
  inferInstanceAs (Decidable (Throughout failsOnlyStuck es))

variable [DecidableEq ι]

/-- The items of a reservation among the preparing ones that a run lists. -/
def listedPreparing (i : ι) (r : String) (e : Occurrence ι) : List Record :=
  match e.call with
  | some (j, ⟨op, res⟩) => if j = i then op.listed "preparing" r res else []
  | none => []

/-- The items that a call lists as preparing. -/
def Op.preparingShown : (op : Op) → op.Res → List Record
  | query "preparing", .ok xs => xs
  | _, _ => []

/-- The times that a run has read. -/
def timesRead (i : ι) (past : List (Occurrence ι)) : List ℚ :=
  (traceOf i past).filterMap fun
    | ⟨.time, now⟩ => some now
    | _ => none

/-- Between an hour after its creation and an hour after a reservation became preparing. The one
is never before the other if it did not wait. -/
def Record.isBetween (now since : ℚ) (x : Record) : Bool :=
  x.isPastTimeout (PythonNumber.truncate now) && decide (now ≤ since + 3600)

/-- No run lists a preparing reservation in between, and what a run fails as stuck is preparing
from when it was listed on. -/
structure ListsNoneBetween (past : List (Occurrence ι)) (e : Occurrence ι) : Prop where
  between : ∀ c ∈ e.call, ∀ x ∈ c.2.1.preparingShown c.2.2, ∀ now ∈ timesRead c.1 past,
    ∀ since ∈ preparingSince x.id past, x.isBetween now since = false
  current : ∀ c ∈ e.call, ∀ r ∈ c.2.1.failsAsStuck,
    StaysTrue (listedPreparing c.1 r) (fun _ w => w.isPreparing r = true) past

instance (past : List (Occurrence ι)) (e : Occurrence ι) :
    Decidable (ListsNoneBetween past e) :=
  decidable_of_iff ((∀ c ∈ e.call, ∀ x ∈ c.2.1.preparingShown c.2.2, ∀ now ∈ timesRead c.1 past,
      ∀ since ∈ preparingSince x.id past, x.isBetween now since = false) ∧
    ∀ c ∈ e.call, ∀ r ∈ c.2.1.failsAsStuck,
      StaysTrue (listedPreparing c.1 r) (fun _ w => w.isPreparing r = true) past)
    ⟨fun h => ⟨h.1, h.2⟩, fun h => ⟨h.between, h.current⟩⟩

end Histories

/-! ### What a run fails as stuck -/

section Run

variable {cfg : Settings} {r : String} {now : ℚ}

/-- The call does not fail the reservation as stuck. -/
def Op.Clears (r : String) (op : Op) : Prop := op.failsAsStuck ≠ some r

theorem clears_of_failsAsStuck {op : Op} (h : op.failsAsStuck = none) : op.Clears r := by
  simp [Op.Clears, h]

theorem clears_update {id : String} {change : Change} (h : ∀ t, change ≠ .stuck t) :
    (Op.update id change).Clears r := by
  cases change <;> first | exact (h _ rfl).elim | exact clears_of_failsAsStuck rfl

instance : AllowsIncidental (Op.Clears r) where
  incidental op h := clears_of_failsAsStuck (by cases op <;> first | rfl | cases h)

/-- The reservation is not shown as preparing and past the timeout of a run. -/
def ShowsInTime (r : String) (now : ℚ) (c : Program.Event Op Op.Res) : Prop :=
  ∀ x ∈ c.1.listed "preparing" r c.2, x.isPastTimeout (PythonNumber.truncate now) = false

/-- A preparing reservation that is not past the timeout is not failed. -/
theorem clears_expirePreparing {x : Record}
    (hx : x.id = r → x.isPastTimeout (PythonNumber.truncate now) = false) :
    Keeps (ShowsInTime r now) (Op.Clears r) (expirePreparing (PythonNumber.truncate now) x) := by
  unfold expirePreparing endIfOlder
  split
  · exact meets_pure trivial
  · rename_i created hcreated
    refine Meets.whenever (fun _ => trivial) fun hold => ?_
    have hid : x.id ≠ r := by
      intro hid
      have hpast : x.isPastTimeout (PythonNumber.truncate now) = true := by
        rw [Record.isPastTimeout, hcreated]
        exact hold
      rw [hx hid] at hpast
      cases hpast
    exact keeps_expireStuckPreparingReservation
      (MayFree.of_all x fun _ _ => clears_of_failsAsStuck rfl)
      (fun _ => clears_of_failsAsStuck rfl) fun _ h => hid (Option.some.inj h)

/-- A run does not fail a reservation as stuck unless it is shown as past the timeout. -/
theorem clears_rest (cfg : Settings) (r : String) (now : ℚ) :
    Keeps (ShowsInTime r now) (Op.Clears r) (do
      endReservations cfg (PythonNumber.truncate now)
      cleanUp cfg (PythonNumber.truncate now) : Lambda Unit) := by
  refine Meets.bind (Q := fun _ => True) ?_ fun _ _ =>
    keeps_cleanUp_of_all (clears_of_failsAsStuck rfl) (fun _ _ => clears_of_failsAsStuck rfl)
      (fun _ _ _ => clears_of_failsAsStuck rfl) _
  refine keeps_endReservations _ (B := fun status x => status = "preparing" → x.id = r →
    x.isPastTimeout (PythonNumber.truncate now) = false) ?_ ?_ ?_ ?_
  · intro status xs h x hx hstatus hid
    refine h x ?_
    simp [Op.listed, hstatus, hx, hid]
  · exact fun x hx => clears_expirePreparing (hx rfl)
  · refine fun x _ => keeps_expireActive_of_all (fun _ _ => clears_of_failsAsStuck rfl)
      (fun _ _ _ => clears_of_failsAsStuck rfl) (fun id change hchange => ?_) _
    cases change <;> first | cases hchange; done | exact clears_update fun _ h => by cases h
  · exact fun x _ => keeps_endIfOlder _ _ (keeps_cancelStaleReservation
      (MayFree.of_all x fun _ _ => clears_of_failsAsStuck rfl) fun _ =>
        clears_update fun _ h => by cases h)

/-- Messages fail no reservation as stuck. -/
theorem Job.clears_of_message {job : Job} (hjob : job ≠ .expiry) (cfg : Settings) (r : String) :
    (job.program cfg).Within (fun _ => True) (Op.Clears r) fun _ => True := by
  refine Job.within_of_message hjob (fun id change hchange => ?_)
    (fun _ _ => clears_of_failsAsStuck rfl) fun _ _ _ => clears_of_failsAsStuck rfl
  cases change <;> first | cases hchange; done | exact clears_update fun _ h => by cases h

end Run

/-! ### Every history -/

section Runs

variable {cfg : Settings} {ι : Type} [DecidableEq ι] {job : ι → Job} {w : World}
  {T : System ι Op Op.Res Unit World} {es : List (Occurrence ι)}

/-- What has led to the failure of a reservation: after it read the time, the run listed the
reservation as preparing and past the timeout. -/
theorem exists_listedPreparing {later earlier : List (Occurrence ι)} {e : Occurrence ι} {i : ι}
    {op : Op} {res : op.Res} {r : String}
    (h : History Op.Answers Elapses ⟨w, fun i => (job i).program cfg⟩ (later ++ e :: earlier) T)
    (hcall : e.call = some (i, ⟨op, res⟩)) (hstuck : op.failsAsStuck = some r) :
    ∃ now between d past c, earlier = between ++ d :: past ∧ d.call = some (i, c) ∧
      now ∈ timesRead i past ∧ ∃ x ∈ c.1.listed "preparing" r c.2,
        x.isPastTimeout (PythonNumber.truncate now) = true := by
  have hjob : job i = .expiry := by
    by_contra hjob
    obtain ⟨d, -, c, -, hA⟩ := h.exists_before (Job.clears_of_message hjob cfg r) hcall
      fun hclears => hclears hstuck
    exact hA trivial
  have hprogram : (job i).program cfg = Program.call Op.time fun now =>
      ((do endReservations cfg (PythonNumber.truncate now)
           cleanUp cfg (PythonNumber.truncate now) : Lambda Unit)).toEnd := by
    rw [hjob]
    rfl
  obtain ⟨now, between, d, past, c, hsplit, hd, htime, hshown⟩ := h.exists_before_by_first hprogram
    (clears_of_failsAsStuck rfl) (fun now => (clears_rest cfg r now).toEnd) hcall
    fun hclears => hclears hstuck
  simp only [ShowsInTime, not_forall] at hshown
  obtain ⟨x, hx, hpast⟩ := hshown
  exact ⟨now, between, d, past, c, hsplit, hd, List.mem_filterMap.mpr ⟨_, htime, rfl⟩, x, hx,
    by simpa using hpast⟩

/-- The times that a run has read are no later than the present. -/
theorem le_clock_of_timesRead {S : System ι Op Op.Res Unit World} {i : ι} {now : ℚ}
    (h : History Op.Answers Elapses S es T) (hnow : now ∈ timesRead i es) :
    now ≤ T.state.clock.1 := by
  obtain ⟨⟨op, res⟩, hmem, hread⟩ := List.mem_filterMap.mp hnow
  obtain ⟨d, hd, hcall⟩ := History.mem_traceOf.mp hmem
  cases op with
  | time =>
    have hres : res = now := Option.some.inj hread
    have hserved := (h.served hd hcall).2
    rw [← hres, hserved]
    exact clock_le h hd
  | _ => cases hread

/-- What a call lists of a reservation as preparing is among what it lists as preparing. -/
theorem mem_preparingShown {op : Op} {res : op.Res} {r : String} {x : Record}
    (hx : x ∈ op.listed "preparing" r res) : x ∈ op.preparingShown res := by
  unfold Op.listed at hx
  split at hx
  · split at hx
    · subst_vars
      exact List.mem_of_mem_filter hx
    · cases hx
  · cases hx

/-- A reservation that was preparing when a run listed it, and has been since, has been preparing
without a break since the time that the listing found. -/
theorem preparingSince_of_listed {S : System ι Op Op.Res Unit World} {i : ι} {r : String}
    {between past : List (Occurrence ι)} {d : Occurrence ι} {x : Record} {since : ℚ}
    (h : History Op.Answers Elapses S (between ++ d :: past) T)
    (hstays : StaysTrue (listedPreparing i r) (fun _ w => w.isPreparing r = true)
      (between ++ d :: past))
    (hx : x ∈ listedPreparing i r d) (hsince : preparingSince r past = some since) :
    preparingSince r (between ++ d :: past) = some since := by
  obtain ⟨hshown, hkept⟩ := Throughout.at hstays
  have hbefore : d.before.isPreparing r = true := hshown x hx
  have hd : preparingSince r ([d] ++ past) = some since :=
    heldSince_append hsince (by simpa using ⟨hbefore, hkept d List.mem_cons_self x hx hbefore⟩)
  refine heldSince_append hd fun b hb => ?_
  obtain ⟨later, earlier, rfl⟩ := List.append_of_mem hb
  have hsplit : later ++ b :: earlier ++ d :: past = later ++ b :: (earlier ++ d :: past) := by simp
  rw [hsplit] at h hstays
  exact StaysTrue.found h hstays (by simp) hx

/-- Only stuck reservations are failed as stuck in every history in which no run lists a preparing
reservation in between. -/
theorem onlyStuckFailed
    (h : History Op.Answers Elapses ⟨w, fun i => (job i).program cfg⟩ es T)
    (hsteps : Throughout ListsNoneBetween es) : OnlyStuckFailed es := by
  refine hsteps.imp fun later e earlier hsplit hstep c hcall r hr => ?_
  subst hsplit
  obtain ⟨i, op, res⟩ := c
  obtain ⟨now, between, d, past, ⟨dop, dres⟩, rfl, hdcall, hnow, x, hx, hpast⟩ :=
    exists_listedPreparing h hcall hr
  have hstays := hstep.current _ hcall r hr
  obtain ⟨V, hV, hpresent⟩ := h.before
  obtain ⟨U, hU, hfound⟩ := hV.before
  have hlisted : x ∈ listedPreparing i r d := by simpa [listedPreparing, hdcall] using hx
  have hid : x.id = r := (status_of_listed (hV.served (by simp) hdcall) hx).2
  -- when it was listed, it had been preparing for some time
  have hpreparing : U.state.isPreparing r = true :=
    hfound ▸ (Throughout.at hstays).1 x hlisted
  have hne : past ≠ [] := by
    rintro rfl
    simp [timesRead, traceOf] at hnow
  have hsome : (preparingSince r past).isSome = true :=
    isSome_heldSince (K := (World.isPreparing · r)) hU hne hpreparing
  obtain ⟨since, hsince⟩ := Option.isSome_iff_exists.mp hsome
  -- and the run had not read its time in between
  have hat : Throughout ListsNoneBetween ((later ++ e :: between) ++ d :: past) := by
    simpa using hsteps
  have hhour : since + 3600 < now := by
    have hnot := hat.at.between _ hdcall x (mem_preparingShown hx) now hnow since (hid ▸ hsince)
    rw [Record.isBetween, hpast, Bool.true_and, decide_eq_false_iff_not, not_le] at hnot
    exact hnot
  refine ⟨since, preparingSince_of_listed hV hstays hlisted hsince, hhour.trans_le ?_⟩
  rw [hpresent]
  have hread : now ∈ timesRead i (between ++ d :: past) := by
    obtain ⟨c, hc, hcnow⟩ := List.mem_filterMap.mp hnow
    obtain ⟨f, hf, hfcall⟩ := History.mem_traceOf.mp hc
    exact List.mem_filterMap.mpr ⟨c, History.mem_traceOf.mpr ⟨f, by simp [hf], hfcall⟩, hcnow⟩
  exact le_clock_of_timesRead hV hread

end Runs

/-! ### Two hours in the queue -/

/-- A request for which there is no room at the beginning of time. -/
def queuedRequest : Record :=
  { Record.fresh "6f1d3c52-9a0b-4c7e-8d25-1b7e0a4f9c33" with
    userId := some "mira", status := "queued", createdAt := some (.moment 0),
    durationHours := some 2 }

/-- The pod that is created for it. -/
def requestPod : Pod where
  reservationId := queuedRequest.id
  userLabel := "mira"
  volume := ""
  status := ⟨"Pending", "", "", none, false, none⟩

/-- Nothing has been requested. -/
def beforeRequest : World where
  clock := ⟨0, le_rfl⟩
  records := ∅
  pods := ∅
  disks := ∅
  volumes := ∅
  snapshots := ∅

/-- The processor queues the request. -/
def World.queueRequest (w : World) : World :=
  { w with records := w.records.insert queuedRequest.id queuedRequest }

/-- The sweep of the queue starts the request: the status is written, and a pod created. -/
def World.startRequest (w : World) : World :=
  { w with
    records := w.records.insert queuedRequest.id
      { w.recordOf queuedRequest.id with status := "preparing" }
    pods := w.pods.insert "gpu-dev-6f1d3c52" requestPod }

/-- A run of the expiry handler. -/
def beforeExpiry : System Unit Op Op.Res Unit World :=
  ⟨beforeRequest, fun _ => Job.expiry.program .usual⟩

/-- The request waits for two hours, and some seconds after its start a run goes by. -/
def waitThenRun (seconds : ℕ) : List (Turn Unit World) :=
  [.env World.queueRequest, .env (World.after · 7200), .env World.startRequest,
    .env (World.after · seconds)] ++ List.replicate 40 (.call ())

/-- What happens in between is something that may happen. -/
theorem elapses_waitThenRun (seconds : ℕ) :
    ∀ change, .env change ∈ waitThenRun seconds → ∀ w, Elapses w (change w) := by
  intro change hchange w
  simp only [waitThenRun, List.mem_append, List.mem_cons, List.not_mem_nil, or_false,
    List.mem_replicate, reduceCtorEq, and_false, Turn.env.injEq] at hchange
  rcases hchange with rfl | rfl | rfl | rfl
  · exact le_rfl
  · exact w.elapses_after 7200
  · exact le_rfl
  · exact w.elapses_after seconds

/-- A request that is still preparing after seventy minutes is failed. -/
theorem onlyStuckFailed_seventyMinutes :
    OnlyStuckFailed (play Script.fine.serve beforeExpiry (waitThenRun 4200)).1 ∧
      ((play Script.fine.serve beforeExpiry (waitThenRun 4200)).2.state.recordOf
        queuedRequest.id).status = "failed" :=
  ⟨onlyStuckFailed (History.of_play Script.fine.answers_serve beforeExpiry (waitThenRun 4200)
    (elapses_waitThenRun 4200)) (by decide +kernel), by decide +kernel⟩

/-- The first run after its start fails a request that has waited, and deletes its pod. -/
theorem not_onlyStuckFailed_firstRun :
    History Op.Answers Elapses beforeExpiry
      (play Script.fine.serve beforeExpiry (waitThenRun 30)).1
      (play Script.fine.serve beforeExpiry (waitThenRun 30)).2 ∧
    ¬ OnlyStuckFailed (play Script.fine.serve beforeExpiry (waitThenRun 30)).1 ∧
    ((play Script.fine.serve beforeExpiry (waitThenRun 30)).2.state.recordOf
      queuedRequest.id).status = "failed" ∧
    (play Script.fine.serve beforeExpiry (waitThenRun 30)).2.state.pods.lookup
      "gpu-dev-6f1d3c52" = none :=
  ⟨History.of_play Script.fine.answers_serve beforeExpiry (waitThenRun 30)
    (elapses_waitThenRun 30), by decide +kernel, by decide +kernel, by decide +kernel⟩

end CiInfra.GpuDev.Lifecycle

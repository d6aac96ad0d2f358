import CiInfra.GpuDev.ExpirySafety

/-!
# Pods that the expiry handler takes for gone, or for those of ended reservations

A reservation is ended for a missing pod when a read of the pod fails, whatever the failure. The
passes that clean up take down the pod that the record of an ended reservation names, or whose
name begins like the id of one: the right pod, as long as the name is not shared and the record
is as it was listed.
-/

namespace CiInfra.GpuDev.Lifecycle

open Interaction Fallible

/-- The reservation that `expire_reservation_due_to_missing_pod` ends. -/
def Op.endsMissing : Op → Option String
  | update id (.podMissing _ _) => some id
  | _ => none

/-- The pod was not found. -/
def Op.findsGone (podName : String) : (op : Op) → op.Res → Bool
  | readPod name, .error .notFound => name = podName
  | _, _ => false

/-- The read of the pod failed for another reason. -/
def Op.failsToRead (podName : String) : (op : Op) → op.Res → Bool
  | readPod name, .error e => name = podName && e ≠ .notFound
  | _, _ => false

/-- The pod that the call deletes. -/
def Op.deletes : Op → Option String
  | deletePod name _ => some name
  | _ => none

/-- There is a pod of the name, and its reservation is active. -/
def World.podIsInUse (w : World) (podName : String) : Bool :=
  match w.pods.lookup podName with
  | some p => match w.records.lookup p.reservationId with
    | some x => x.status = "active"
    | none => false
  | none => false

/-- The items that a pass shows as those of ended reservations with the pod. -/
def Op.showsEnded (podName : String) : (op : Op) → op.Res → List Record
  | query status, .ok xs =>
    if ["failed", "expired", "cancelled"].contains status then xs.filter (·.podName = podName)
    else []
  | scan start, .ok (x :: _) =>
    if start = reservationIdPrefix podName ∧ ["failed", "cancelled", "expired"].contains x.status
    then [x] else []
  | _, _ => []

/-- The record has the status that the item has, and the pod of the name, if there is one, is
that of the reservation. -/
def Record.ownsPodIn (podName : String) (x : Record) (w : World) : Bool :=
  (match w.records.lookup x.id with
    | some y => y.status = x.status
    | none => false) &&
  match w.pods.lookup podName with
  | some p => p.reservationId = x.id
  | none => true

section Windows

variable {ι : Type} [DecidableEq ι]

/-- A call of the run was answered so. -/
def answered (i : ι) (b : (op : Op) → op.Res → Bool) (e : Occurrence ι) : Bool :=
  match e.call with
  | some (j, ⟨op, res⟩) => j = i && b op res
  | none => false

/-- A reservation is ended for a missing pod only after the pod that the run has listed for it was
not found. -/
def missesAfterNotFound (past : List (Occurrence ι)) (e : Occurrence ι) : Prop :=
  ∀ c ∈ e.call, ∀ r ∈ c.2.1.endsMissing, ∃ d ∈ past, ∃ x ∈ listedActive c.1 r d,
    ∃ d' ∈ past, answered c.1 (Op.findsGone x.podName) d' = true

/-- No read of the pod that the run has listed for the reservation has failed but with 404. -/
def readsClearly (past : List (Occurrence ι)) (e : Occurrence ι) : Prop :=
  ∀ c ∈ e.call, ∀ r ∈ c.2.1.endsMissing, ∀ d ∈ past, ∀ x ∈ listedActive c.1 r d,
    ∀ d' ∈ past, answered c.1 (Op.failsToRead x.podName) d' = false

/-- The call lists the locks, which is where the passes that clean up begin. -/
def Op.listsLocks : (op : Op) → op.Res → Bool
  | lockedDisks, _ => true
  | _, _ => false

/-- The passes that clean up delete no pod whose reservation is active. -/
def sparesPodsInUse (past : List (Occurrence ι)) (e : Occurrence ι) : Prop :=
  ∀ c ∈ e.call, ∀ name ∈ c.2.1.deletes, (∃ d ∈ past, answered c.1 Op.listsLocks d = true) →
    e.before.podIsInUse name = false

/-- The items of ended reservations with the pod that the run shows. -/
def shownEnded (i : ι) (podName : String) (e : Occurrence ι) : List Record :=
  match e.call with
  | some (j, ⟨op, res⟩) => if j = i then op.showsEnded podName res else []
  | none => []

/-- A pass that deletes a pod does so while the ended reservations that it was shown with the pod
are as it was shown them, and the pod is theirs. -/
def deletesOwnPods (past : List (Occurrence ι)) (e : Occurrence ι) : Prop :=
  ∀ c ∈ e.call, ∀ name ∈ c.2.1.deletes, (∃ d ∈ past, answered c.1 Op.listsLocks d = true) →
    StaysTrue (shownEnded c.1 name) (fun x w => x.ownsPodIn name w = true) past

instance (past : List (Occurrence ι)) (e : Occurrence ι) : Decidable (missesAfterNotFound past e) :=
  inferInstanceAs (Decidable (∀ c ∈ e.call, _))

instance (past : List (Occurrence ι)) (e : Occurrence ι) : Decidable (readsClearly past e) :=
  inferInstanceAs (Decidable (∀ c ∈ e.call, _))

instance (past : List (Occurrence ι)) (e : Occurrence ι) : Decidable (deletesOwnPods past e) :=
  inferInstanceAs (Decidable (∀ c ∈ e.call, _))

end Windows

/-! ### Missing pods -/

section Missing

variable {cfg : Settings} {r : String} {gone unclear : String → Prop}

/-- The call does not end the reservation for a missing pod. -/
def Op.Believes (r : String) (op : Op) : Prop := op.endsMissing ≠ some r

theorem believes_of_endsMissing {op : Op} (h : op.endsMissing = none) : op.Believes r := by
  simp [Op.Believes, h]

instance : AllowsIncidental (Op.Believes r) where
  incidental op h := believes_of_endsMissing (by cases op <;> first | rfl | cases h)

theorem believes_update {id : String} {change : Change} (h : ∀ t s, change ≠ .podMissing t s) :
    (Op.update id change).Believes r := by
  cases change <;> first | exact (h _ _ rfl).elim | exact believes_of_endsMissing rfl

/-- The pods listed for the reservation are neither gone nor unclear, and these are the pods
whose reads are answered so. -/
def ShowsThere (r : String) (gone unclear : String → Prop) (c : Program.Event Op Op.Res) : Prop :=
  (∀ x ∈ c.1.listed "active" r c.2, ¬ gone x.podName ∧ ¬ unclear x.podName) ∧
    (∀ name, c.1.findsGone name c.2 = true → gone name) ∧
    ∀ name, c.1.failsToRead name c.2 = true → unclear name

/-- A pod that seems not to exist was not found, or the read of it failed. -/
theorem meets_checkPodExists {P : Op → Prop} [AllowsIncidental P] (podName : String) :
    (checkPodExists podName).Meets (ShowsThere r gone unclear) P
      (fun e => e = false → gone podName ∨ unclear podName) fun _ => True := by
  refine Meets.tryCatch (E := fun e => gone podName ∨ unclear podName)
    (Meets.bind (Q := fun _ => True) ?_ fun _ _ => meets_pure nofun) fun e he => ?_
  · refine meets_request (AllowsIncidental.incidental _ rfl) (fun _ _ _ _ => trivial)
      fun res e hA he => ?_
    obtain ⟨-, hgone, hunclear⟩ := hA
    have hres : res = .error e := he
    subst hres
    by_cases hnotFound : e = .notFound
    · exact Or.inl (hgone podName (by simp [hnotFound, Op.findsGone]))
    · exact Or.inr (hunclear podName (by simp [hnotFound, Op.failsToRead]))
  · cases e <;> exact meets_pure fun _ => he

/-- An active reservation whose pod reads as there is not ended for a missing pod. -/
theorem believes_expireActive {currentTime : ℤ} {x : Record}
    (hx : x.id = r → ¬ gone x.podName ∧ ¬ unclear x.podName) :
    Keeps (ShowsThere r gone unclear) (Op.Believes r) (expireActive cfg currentTime x) := by
  have hfree : MayFree (ShowsThere r gone unclear) (Op.Believes r) x fun _ => True :=
    MayFree.of_all x fun _ _ => believes_of_endsMissing rfl
  unfold expireActive
  split
  · exact Meets.logged (keeps_expireReservation hfree (fun _ => believes_of_endsMissing rfl)
      fun _ => believes_update nofun)
  · refine keeps_watchActive hfree (fun _ => believes_of_endsMissing rfl) ?_
      (fun _ _ => believes_update nofun) (fun _ _ => believes_update nofun)
      (fun _ _ _ => believes_update nofun) _
    refine (meets_checkPodExists x.podName).mono (fun _ h => h) (fun e he hfalse => ?_)
      fun _ h => h
    have hid : x.id ≠ r := by
      intro hid
      obtain ⟨hgone, hunclear⟩ := hx hid
      exact (he hfalse).elim hgone hunclear
    exact keeps_expireReservationDueToMissingPod hfree fun _ _ h => hid (Option.some.inj h)

/-- No job ends the reservation for a missing pod as long as its pod reads as there. -/
theorem Job.believes (cfg : Settings) (r : String) (gone unclear : String → Prop) (job : Job) :
    (job.program cfg).Within (ShowsThere r gone unclear) (Op.Believes r) fun _ => True := by
  by_cases hjob : job = .expiry
  · subst hjob
    refine (keeps_expiryHandler_of_active (B := fun status x => status = "active" → x.id = r →
        ¬ gone x.podName ∧ ¬ unclear x.podName) (believes_of_endsMissing rfl)
      (fun _ _ => believes_of_endsMissing rfl) (fun _ _ _ => believes_of_endsMissing rfl)
      (fun _ _ => believes_update (by simp)) (fun _ _ => believes_update (by simp)) ?_ ?_).toEnd
    · intro status xs h x hx hstatus hid
      refine h.1 x ?_
      simp [Op.listed, hstatus, hx, hid]
    · exact fun t _ x hx => believes_expireActive (hx rfl)
  · refine Job.within_of_message hjob (fun id change hchange => ?_)
      (fun _ _ => believes_of_endsMissing rfl) fun _ _ _ => believes_of_endsMissing rfl
    cases change <;> first | cases hchange; done | exact believes_update (by simp)

end Missing

/-! ### Pods of ended reservations -/

section Ended

variable {cfg : Settings} {podName : String}

/-- The call does not delete the pod. -/
def Op.Leaves (podName : String) (op : Op) : Prop := op.deletes ≠ some podName

theorem leaves_of_deletes {op : Op} (h : op.deletes = none) : op.Leaves podName := by
  simp [Op.Leaves, h]

instance : AllowsIncidental (Op.Leaves podName) where
  incidental op h := leaves_of_deletes (by cases op <;> first | rfl | cases h)

theorem leaves_deletePod {name : String} {g : ℕ} (h : name ≠ podName) :
    (Op.deletePod name g).Leaves podName := fun heq => h (Option.some.inj heq)

/-- No ended reservation with the pod is shown. -/
def ShowsNoneEnded (podName : String) (c : Program.Event Op Op.Res) : Prop :=
  c.1.showsEnded podName c.2 = []

/-- The call does not list the locks. -/
def Op.PassesLocks (op : Op) : Prop := ¬ op = .lockedDisks

instance : AllowsIncidental Op.PassesLocks where
  incidental op h := by
    rintro rfl
    cases h

/-- The first part of a run does not list the locks. -/
theorem passesLocks_endReservations (currentTime : ℤ) :
    (endReservations cfg currentTime).Issues Op.PassesLocks := by
  have hall : ∀ x : Record, MayFree (fun _ => True) Op.PassesLocks x fun _ => True := fun x =>
    MayFree.of_all x fun _ _ => nofun
  refine Meets.issues (keeps_endReservations (B := fun _ _ => True) currentTime
    (fun _ _ _ _ _ => trivial)
    (fun x _ => keeps_endIfOlder _ _
      (keeps_expireStuckPreparingReservation (hall x) (fun _ => nofun) fun _ => nofun))
    (fun x _ => ?_)
    fun x _ => keeps_endIfOlder _ _ (keeps_cancelStaleReservation (hall x) fun _ => nofun))
  unfold expireActive
  split
  · exact Meets.logged (keeps_expireReservation (hall x) (fun _ => nofun) fun _ => nofun)
  · refine keeps_watchActive (hall x) (fun _ => nofun) ?_ (fun _ _ => nofun) (fun _ _ => nofun)
      (fun _ _ _ => nofun) _
    exact (keeps_checkPodExists x.podName).mono (fun _ h => h)
      (fun _ _ _ => keeps_expireReservationDueToMissingPod (hall x) fun _ _ => nofun)
      fun _ _ => trivial

/-- A pass over the pods deletes a pod only if an ended reservation is shown with it. -/
theorem leaves_cleanupPodOfEnded (name : String) :
    Keeps (ShowsNoneEnded podName) (Op.Leaves podName) (cleanupPodOfEnded cfg name) := by
  refine Meets.logged (E := fun _ => True)
    (Meets.bind (Q := fun items => (ShowsNoneEnded podName
      ⟨.scan (reservationIdPrefix name), .ok items⟩)) ?_ fun items hitems => ?_)
  · exact meets_request (AllowsIncidental.incidental _ rfl)
      (fun r items hA hr => by cases hr; exact hA) fun _ _ _ _ => trivial
  · cases items with
    | nil => exact meets_pure trivial
    | cons x _ =>
      refine Meets.whenever (fun _ => trivial) fun hended => Meets.logged (keeps_cleanupPod
        (MayFree.of_all x fun _ _ => leaves_of_deletes rfl) fun g => leaves_deletePod ?_)
      rintro rfl
      simp only [ShowsNoneEnded, Op.showsEnded, hended, and_self, if_true] at hitems
      cases hitems

/-- The passes that clean up delete a pod only if an ended reservation is shown with it. -/
theorem leaves_cleanUp (currentTime : ℤ) :
    Keeps (ShowsNoneEnded podName) (Op.Leaves podName) (cleanUp cfg currentTime) := by
  have hended : ∀ x : Record, x.podName ≠ podName → Keeps (ShowsNoneEnded podName)
      (Op.Leaves podName) (cleanupEnded cfg x) := fun x hx =>
    keeps_cleanupEnded (MayFree.of_all x fun _ _ => leaves_of_deletes rfl)
      fun _ => leaves_deletePod hx
  refine keeps_cleanUp (B := fun status x => status ∈ ["failed", "expired", "cancelled"] →
      x.podName ≠ podName) currentTime ?_ ?_ ?_ ?_ ?_
  · intro status xs h x hx hstatus hname
    have hmem : x ∈ (Op.query status).showsEnded podName (.ok xs) := by
      simp only [Op.showsEnded, List.contains_iff_mem, hstatus, if_true, List.mem_filter, hx, hname,
        decide_true, and_self]
    rw [show (Op.query status).showsEnded podName (.ok xs) = [] from h] at hmem
    cases hmem
  · exact keeps_sweepStaleDiskLocks (leaves_of_deletes rfl) fun _ _ _ _ =>
      keeps_sweepDisk (leaves_of_deletes rfl)
  · exact fun x hx => keeps_cleanupIfRecent _ _ _ fun _ => hended x (hx (by simp))
  · exact keeps_cleanupPods fun name _ => leaves_cleanupPodOfEnded name
  · exact fun x hx => keeps_cleanupIfRecent _ _ _ fun _ =>
      hended x (hx.elim (· (by simp)) (· (by simp)))

/-- From where it lists the locks, a job deletes a pod only if an ended reservation is shown with
it. -/
theorem Job.leaves (cfg : Settings) (podName : String) (job : Job) :
    (job.program cfg).WithinFrom (· = .lockedDisks) (ShowsNoneEnded podName)
      (Op.Leaves podName) := by
  by_cases hjob : job = .expiry
  · subst hjob
    refine MeetsFrom.toEnd (MeetsFrom.bind (issues_request nofun) fun t =>
      MeetsFrom.bind (passesLocks_endReservations _) fun _ => (leaves_cleanUp _).from)
  · have h : (job.program cfg).Within (fun _ => True) Op.PassesLocks fun _ => True :=
      Job.within_of_message hjob (fun _ _ _ => nofun) (fun _ _ => nofun) fun _ _ _ => nofun
    exact h.onlyCalls.withinFrom

end Ended

/-! ### Every history -/

section Histories

variable {cfg : Settings} {ι : Type} [DecidableEq ι] {job : ι → Job} {w : World}
  {T : System ι Op Op.Res Unit World} {es : List (Occurrence ι)}

theorem answered_of_call {i : ι} {b : (op : Op) → op.Res → Bool} {d : Occurrence ι} {op : Op}
    {res : op.Res} (hcall : d.call = some (i, ⟨op, res⟩)) (hb : b op res = true) :
    answered i b d = true := by
  simp [answered, hcall, hb]

/-- A reservation is ended for a missing pod only after its pod was not found, if no read of it
has failed otherwise. -/
theorem missesAfterNotFound_of_clear {later earlier : List (Occurrence ι)} {e : Occurrence ι}
    (h : History Op.Answers Elapses ⟨w, fun i => (job i).program cfg⟩ (later ++ e :: earlier) T)
    (hclear : readsClearly earlier e) : missesAfterNotFound earlier e := by
  intro c hcall r hr
  obtain ⟨i, op, res⟩ := c
  obtain ⟨d, hd, ⟨dop, dres⟩, hdcall, hshown⟩ := h.exists_before
    (Job.believes cfg r (fun name => ∃ d ∈ earlier, answered i (Op.findsGone name) d = true)
      (fun name => ∃ d ∈ earlier, answered i (Op.failsToRead name) d = true) (job i))
    hcall fun hbelieves => hbelieves hr
  have hlisted : ∃ x ∈ dop.listed "active" r dres,
      ∃ d' ∈ earlier, answered i (Op.findsGone x.podName) d' = true := by
    by_contra hnone
    refine hshown ⟨fun x hx => ⟨fun hgone => hnone ⟨x, hx, hgone⟩, ?_⟩,
      fun name hname => ⟨d, hd, answered_of_call hdcall hname⟩,
      fun name hname => ⟨d, hd, answered_of_call hdcall hname⟩⟩
    rintro ⟨d', hd', hunclear⟩
    have hx' : x ∈ listedActive i r d := by simpa [listedActive, hdcall] using hx
    rw [hclear _ hcall r hr d hd x hx' d' hd'] at hunclear
    cases hunclear
  obtain ⟨x, hx, hgone⟩ := hlisted
  exact ⟨d, hd, x, by simpa [listedActive, hdcall] using hx, hgone⟩

/-- What a pass shows as ended has ended. -/
theorem ended_of_showsEnded {op : Op} {res : op.Res} {w w' : World} (h : op.Answers w res w')
    {podName : String} {x : Record} (hx : x ∈ op.showsEnded podName res) : x.status ≠ "active" := by
  unfold Op.showsEnded at hx
  split at hx
  · split at hx
    · rename_i hstatus
      have hx' := h.2 _ rfl x (List.mem_filter.mp hx).1
      rintro hactive
      rw [← hx', hactive] at hstatus
      simp at hstatus
    · cases hx
  · split at hx
    · rename_i hstatus
      obtain rfl := List.mem_singleton.mp hx
      rintro hactive
      rw [hactive] at hstatus
      simp at hstatus
    · cases hx
  · cases hx

/-- A pod that is that of an ended reservation is not in use. -/
theorem not_podIsInUse {w : World} {podName : String} {x : Record} (hended : x.status ≠ "active")
    (howns : x.ownsPodIn podName w = true) : w.podIsInUse podName = false := by
  simp only [Record.ownsPodIn, Bool.and_eq_true] at howns
  obtain ⟨hstatus, howner⟩ := howns
  unfold World.podIsInUse
  cases hpod : w.pods.lookup podName with
  | none => rfl
  | some p =>
    simp only [hpod, decide_eq_true_eq] at howner
    cases hrecord : w.records.lookup x.id with
    | none => simp [hrecord] at hstatus
    | some y =>
      simp only [hrecord, decide_eq_true_eq] at hstatus
      dsimp only
      rw [howner, hrecord]
      simp [hstatus, hended]

/-- The passes that clean up delete no pod in use, if what they act on is as it was shown. -/
theorem sparesPodsInUse_of_owned {later earlier : List (Occurrence ι)} {e : Occurrence ι}
    (h : History Op.Answers Elapses ⟨w, fun i => (job i).program cfg⟩ (later ++ e :: earlier) T)
    (howned : deletesOwnPods earlier e) : sparesPodsInUse earlier e := by
  intro c hcall name hname hlocks
  obtain ⟨i, op, res⟩ := c
  obtain ⟨U, hU, hbefore⟩ := h.before
  have hlisting : ∃ d ∈ earlier, ∃ c, d.call = some (i, c) ∧ c.1 = .lockedDisks := by
    obtain ⟨d, hd, hlists⟩ := hlocks
    unfold answered at hlists
    split at hlists
    · rename_i j dop dres hdcall
      rw [Bool.and_eq_true, decide_eq_true_eq] at hlists
      obtain ⟨rfl, hlists⟩ := hlists
      refine ⟨d, hd, _, hdcall, ?_⟩
      cases dop <;> first | rfl | cases hlists
    · cases hlists
  obtain ⟨d, hd, ⟨dop, dres⟩, hdcall, hshown⟩ := h.exists_before_from
    (Job.leaves cfg name (job i)) hcall (fun hleaves => hleaves hname) hlisting
  obtain ⟨x, hx⟩ := List.exists_mem_of_ne_nil _ hshown
  have hx' : x ∈ shownEnded i name d := by simpa [shownEnded, hdcall] using hx
  rw [hbefore]
  exact not_podIsInUse (ended_of_showsEnded (hU.served hd hdcall) hx)
    ((howned _ hcall name hname hlocks).holds hU d hd x hx')

/-- The expiry handler ends reservations for missing pods only after 404, and deletes no pod in
use when it cleans up, in every history in which no read of a pod fails otherwise and what the
passes act on is as they were shown it. -/
theorem expiryHandler_sparesLivePods
    (h : History Op.Answers Elapses ⟨w, fun i => (job i).program cfg⟩ es T)
    (hclear : Throughout readsClearly es) (howned : Throughout deletesOwnPods es) :
    Throughout missesAfterNotFound es ∧ Throughout sparesPodsInUse es := by
  constructor
  · refine hclear.imp fun later e earlier hsplit hP => ?_
    subst hsplit
    exact missesAfterNotFound_of_clear h hP
  · refine howned.imp fun later e earlier hsplit hP => ?_
    subst hsplit
    exact sparesPodsInUse_of_owned h hP

end Histories

/-! ### A run with and without an error -/

/-- A healthy pod of a reservation. -/
def healthyPod (reservationId : String) : Pod where
  reservationId := reservationId
  userLabel := "mira"
  volume := ""
  status := ⟨"Running", "", "", none, true, none⟩

/-- The reservation in use, with its pod. -/
def inUse : Record :=
  { twoHours with podName := "gpu-dev-6f1d3c52", launchedAt := some (.moment 0) }

/-- A reservation that has failed, with its pod. -/
def failedEarlier : Record :=
  { Record.fresh "a07e64bb-0b1e-4f0e-9a57-0de3a2c9d511" with
    userId := some "mira", status := "failed", failedAt := some (.moment 3000),
    podName := "gpu-dev-a07e64bb" }

/-- One reservation is in use, the other has failed; the pod of the first may be gone. -/
def anHourOn (podsOfInUse : AList fun _ : String => Pod) : World where
  clock := ⟨3600, hour_nonneg⟩
  records := (AList.singleton inUse.id inUse).insert failedEarlier.id failedEarlier
  pods := podsOfInUse.insert failedEarlier.podName (healthyPod failedEarlier.id)
  disks := ∅
  volumes := ∅
  snapshots := ∅

/-- One run of the expiry handler. -/
def oneRun (podsOfInUse : AList fun _ : String => Pod) : System Unit Op Op.Res Unit World :=
  ⟨anHourOn podsOfInUse, fun _ => Job.expiry.program .usual⟩

/-- A schedule in which the run goes on for as long as it has calls to make. -/
def untilDone : List (Turn Unit World) := List.replicate 60 (.call ())

/-- Every read of a pod fails. -/
def Script.apiDown : Script := { Script.fine with podError := fun _ => some (.api "500") }

theorem expiryHandler_sparesLivePods_missing :
    Throughout missesAfterNotFound (play Script.fine.serve (oneRun ∅) untilDone).1 ∧
      Throughout sparesPodsInUse (play Script.fine.serve (oneRun ∅) untilDone).1 :=
  expiryHandler_sparesLivePods
    (History.of_play Script.fine.answers_serve (oneRun ∅) untilDone (by simp [untilDone]))
    (by decide +kernel) (by decide +kernel)

/-- When the reads of pods fail, a reservation in use is ended for a missing pod. -/
theorem not_missesAfterNotFound_apiDown :
    History Op.Answers Elapses (oneRun (AList.singleton inUse.podName (healthyPod inUse.id)))
      (play Script.apiDown.serve (oneRun (AList.singleton inUse.podName (healthyPod inUse.id)))
        untilDone).1
      (play Script.apiDown.serve (oneRun (AList.singleton inUse.podName (healthyPod inUse.id)))
        untilDone).2 ∧
    ¬ Throughout missesAfterNotFound
      (play Script.apiDown.serve (oneRun (AList.singleton inUse.podName (healthyPod inUse.id)))
        untilDone).1 :=
  ⟨History.of_play Script.apiDown.answers_serve _ untilDone (by simp [untilDone]),
    by decide +kernel⟩

end CiInfra.GpuDev.Lifecycle

import CiInfra.GpuDev.LifecycleMessages

/-!
# What runs of the expiry handler do

For each function, a property of calls that holds of what it does itself holds of all it calls.
Which lock of a disk is cleared follows from what the function is given or shows: the name in the
record, the locks that the disks table shows for the reservation, and the tag of its volume.
-/

namespace CiInfra.GpuDev.Lifecycle

open Interaction Fallible

/-- The call touches no record, no pod and no lock of a disk, and does not list the locks. -/
def Op.IsIncidental : Op → Bool
  | update _ _ | deletePod _ _ | freeDisk _ _ _ | lockedDisks => false
  | _ => true

/-- The property holds of all incidental calls. -/
class AllowsIncidental (P : Op → Prop) : Prop where
  incidental : ∀ op : Op, op.IsIncidental = true → P op

/-- On behalf of a reservation the locks of the disks `K` may be cleared, and these are the disks
that its record names or that answers show for it. -/
structure MayFree (A : Program.Event Op Op.Res → Prop) (P : Op → Prop) (x : Record)
    (K : String → Prop) : Prop where
  free : ∀ user disk, K disk → P (.freeDisk user disk (some x.id))
  name : x.diskName ≠ "" → K x.diskName
  disks : ∀ user ds, A ⟨.disksOf user, .ok ds⟩ →
    ∀ d ∈ ds, d.2.isAttachedTo x.id = true → K d.1.2
  volume : ∀ v vol, A ⟨.describeVolume v, .ok (some vol)⟩ → K vol.diskTag

/-- A property of all clearings of locks. -/
theorem MayFree.of_all {A : Program.Event Op Op.Res → Prop} {P : Op → Prop} (x : Record)
    (h : ∀ user disk, P (.freeDisk user disk (some x.id))) : MayFree A P x fun _ => True :=
  ⟨fun user disk _ => h user disk, fun _ => trivial, fun _ _ _ _ _ _ => trivial,
    fun _ _ _ => trivial⟩

section

variable {P : Op → Prop}

theorem issues_incidental [AllowsIncidental P] {α : Type} {op : Op}
    {answer : op.Res → Except Failure α} (h : op.IsIncidental = true) :
    (request op answer : Lambda α).Issues P := issues_request (AllowsIncidental.incidental op h)

end

section Expiry

variable {A : Program.Event Op Op.Res → Prop} {P : Op → Prop} [AllowsIncidental P] {x : Record}
  {K : String → Prop} {cfg : Settings}

/-- What holds of all calls, whatever is returned and raised. -/
abbrev Keeps (A : Program.Event Op Op.Res → Prop) (P : Op → Prop) {α : Type} (p : Lambda α) :
    Prop :=
  p.Meets A P (fun _ => True) fun _ => True

theorem keeps_checkPodExists (podName : String) : Keeps A P (checkPodExists podName) :=
  (Issues.tryCatch ((issues_incidental rfl).bind fun _ => issues_pure _) fun e => by
    cases e <;> exact issues_pure _).meets

theorem keeps_checkPodDead (podName : String) : Keeps A P (checkPodDead podName) :=
  (Issues.tryCatch ((issues_incidental rfl).bind fun _ => issues_pure _)
    fun _ => issues_pure _).meets

theorem keeps_checkPodOomStatus (podName : String) : Keeps A P (checkPodOomStatus podName) :=
  (Issues.tryCatch ((issues_incidental rfl).bind fun _ => issues_pure _)
    fun _ => issues_pure _).meets

/-- The disk that is found is one that may be freed, or none is found. -/
theorem meets_findDiskByReservation (h : MayFree A P x K) (user : String) :
    (findDiskByReservation user x.id).Meets A P (fun d => d ≠ "" → K d) fun _ => True := by
  refine Meets.orElseGive (E := fun _ => True) ?_ fun h => (h rfl).elim
  refine Meets.bind (Q := fun ds => ∀ d ∈ ds, d.2.isAttachedTo x.id = true → K d.1.2) ?_
    fun ds hds => meets_pure fun hne => ?_
  · exact meets_request (AllowsIncidental.incidental _ rfl)
      (fun r ds hA hr => h.disks _ ds (by cases hr; exact hA)) fun _ _ _ _ => trivial
  · cases hfind : ds.find? fun d => d.2.isAttachedTo x.id with
    | none => simp [hfind] at hne
    | some d =>
      have hattached := List.find?_some (p := fun d : NamedDisk => d.2.isAttachedTo x.id) hfind
      simpa using hds d (List.mem_of_find?_eq_some hfind) hattached

theorem meets_diskOf (h : MayFree A P x K) :
    (diskOf x).Meets A P (fun d => d ≠ "" → K d) fun _ => True := by
  unfold diskOf
  split
  · exact meets_findDiskByReservation h _
  · exact meets_pure h.name

omit [AllowsIncidental P] in
theorem keeps_markDiskNotInUse {user disk : String} {onBehalfOf : Option String}
    (h : P (.freeDisk user disk onBehalfOf)) : Keeps A P (markDiskNotInUse user disk onBehalfOf) :=
  (issues_request h).meets

theorem keeps_releaseDisk (h : MayFree A P x K) : Keeps A P (releaseDisk x) := by
  refine (meets_diskOf h).bind fun d hd => Meets.whenever (fun _ => trivial) fun hdisk =>
    Meets.logged (keeps_markDiskNotInUse (h.free _ _ (hd ?_)))
  simp only [Bool.and_eq_true, decide_eq_true_eq] at hdisk
  exact hdisk.2

theorem keeps_safeCreateSnapshot (volume user disk : String) :
    Keeps A P (safeCreateSnapshot volume user disk) := by
  refine Issues.meets (Issues.orElseGive ((issues_incidental rfl).bind fun ongoing => ?_) _)
  split
  · exact issues_pure _
  · exact (issues_incidental rfl).bind fun _ =>
      (Issues.whenever _ (Issues.logged (issues_incidental rfl))).bind fun _ => issues_pure _

theorem keeps_storageOf (podName : String) : Keeps A P (storageOf podName x) := by
  refine Issues.meets ?_
  unfold storageOf
  dsimp only
  split
  · exact issues_pure _
  · exact Issues.orElseGive ((issues_incidental rfl).bind fun _ => issues_pure _) _

theorem meets_diskNameOf (h : MayFree A P x K) (volume : String) :
    (diskNameOf volume x).Meets A P (fun d => d ≠ "" → K d) fun _ => True := by
  unfold diskNameOf
  split
  · refine Meets.orElseGive (E := fun _ => True) ?_ fun h => (h rfl).elim
    refine Meets.bind (Q := fun v => ∀ vol, v = some vol → K vol.diskTag) ?_
      fun v hv => meets_pure fun hne => ?_
    · exact meets_request (AllowsIncidental.incidental _ rfl)
        (fun r v hA hr vol hvol => h.volume _ vol (by subst hvol; cases hr; exact hA))
        fun _ _ _ _ => trivial
    · cases v with
      | none => exact (hne rfl).elim
      | some vol => exact hv vol rfl
  · exact meets_pure h.name

theorem keeps_retireVolume (h : MayFree A P x K) {disk : String} (hdisk : disk ≠ "" → K disk)
    (snapshotId volume user : String) : Keeps A P (retireVolume snapshotId volume user disk x) := by
  refine (issues_incidental rfl).meets.bind fun _ _ =>
    (Issues.whenever _ (Issues.logged (issues_incidental rfl))).meets.bind fun _ _ =>
    Meets.logged (E := fun _ => True) ((issues_incidental rfl).meets.bind fun _ _ =>
      Meets.whenever (fun _ => trivial) fun hne => Meets.logged (keeps_markDiskNotInUse
        (h.free _ _ (hdisk (by simpa using hne)))))

theorem keeps_shutdownSnapshot (h : MayFree A P x K) (podName : String) :
    Keeps A P (shutdownSnapshot podName x) := by
  refine Meets.logged (E := fun _ => True) ((keeps_storageOf podName).bind fun storage _ =>
    (meets_diskNameOf h _).bind fun disk hdisk => Meets.whenever (fun _ => trivial) fun _ =>
      (Issues.whenever _ (Issues.logged (issues_incidental rfl))).meets.bind fun _ _ =>
      (keeps_safeCreateSnapshot _ _ _).bind fun snapshotId _ => ?_)
  cases snapshotId with
  | none => exact meets_pure trivial
  | some snapshotId =>
    exact Meets.logged (E := fun _ => True) (keeps_retireVolume h hdisk _ _ _)

omit [AllowsIncidental P] in
theorem keeps_deletePodOrForce {podName : String} (hdelete : ∀ g, P (.deletePod podName g)) :
    Keeps A P (deletePodOrForce podName) := by
  refine Issues.meets (Issues.tryCatch (issues_request (hdelete 30)) fun e => ?_)
  cases e with
  | api _ => exact issues_request (hdelete 0)
  | _ => trivial

/-- What `cleanup_pod` does for a record. -/
theorem keeps_cleanupPod (h : MayFree A P x K) {podName : String}
    (hdelete : ∀ g, P (.deletePod podName g)) : Keeps A P (cleanupPod cfg podName x) := by
  refine Meets.tryCatch (E := fun _ => True) ?_ fun _ _ =>
    (keeps_releaseDisk h).bind fun _ _ => meets_throw trivial
  refine (Issues.whenever _ ((issues_incidental rfl).bind fun _ =>
      issues_incidental rfl)).meets.bind fun _ _ =>
    (Issues.whenever _ (Issues.logged (issues_incidental rfl))).meets.bind fun _ _ =>
    (issues_incidental rfl).meets.bind fun _ _ => (keeps_shutdownSnapshot h podName).bind fun _ _ =>
    (Issues.logged (issues_incidental rfl)).meets.bind fun _ _ =>
    (keeps_deletePodOrForce hdelete).bind fun _ _ =>
    (Issues.logged (issues_incidental rfl)).meets.bind fun _ _ => keeps_releaseDisk h

theorem keeps_cleanupStuckPodResources {podName : String}
    (hdelete : ∀ g, P (.deletePod podName g)) : Keeps A P (cleanupStuckPodResources podName) := by
  refine Issues.meets (Issues.logged ((issues_incidental rfl).bind fun _ =>
    (Issues.tryCatch (issues_request (hdelete 0)) fun e => ?_).bind fun _ =>
    issues_incidental rfl))
  cases e <;> trivial

/-- What `expire_reservation` does. -/
theorem keeps_expireReservation (h : MayFree A P x K) (hdelete : ∀ g, P (.deletePod x.podName g))
    (hupdate : ∀ now, P (.update x.id (.expired now))) : Keeps A P (expireReservation cfg x) := by
  unfold expireReservation
  split
  · exact meets_throw trivial
  · exact (issues_incidental rfl).meets.bind fun now _ =>
      (issues_request (hupdate now)).meets.bind fun _ _ => Meets.whenever (fun _ => trivial)
        fun _ => Meets.logged (keeps_cleanupPod h hdelete)

theorem keeps_expireReservationDueToMissingPod (h : MayFree A P x K)
    (hupdate : ∀ now reason, P (.update x.id (.podMissing now reason))) :
    Keeps A P (expireReservationDueToMissingPod x) :=
  Meets.logged ((issues_incidental rfl).meets.bind fun reason _ =>
    (issues_incidental rfl).meets.bind fun now _ =>
    (issues_request (hupdate now reason)).meets.bind fun _ _ => keeps_releaseDisk h)

theorem keeps_expireReservationDueToDeadPod (h : MayFree A P x K)
    (hdelete : ∀ g, P (.deletePod x.podName g))
    (hupdate : ∀ now reason, P (.update x.id (.podDead now reason))) (reason : String) :
    Keeps A P (expireReservationDueToDeadPod cfg x reason) :=
  (issues_incidental rfl).meets.bind fun now _ =>
    (issues_request (hupdate now reason)).meets.bind fun _ _ =>
    (Meets.whenever (fun _ => trivial) fun _ => Meets.logged (keeps_cleanupPod h hdelete)).bind
      fun _ _ => keeps_releaseDisk h

theorem keeps_expireStuckPreparingReservation (h : MayFree A P x K)
    (hdelete : ∀ g, P (.deletePod x.podName g)) (hupdate : ∀ now, P (.update x.id (.stuck now))) :
    Keeps A P (expireStuckPreparingReservation x) :=
  Meets.logged ((issues_incidental rfl).meets.bind fun now _ =>
    (issues_request (hupdate now)).meets.bind fun _ _ =>
    (Meets.whenever (fun _ => trivial) fun _ =>
      Meets.logged (keeps_cleanupStuckPodResources hdelete)).bind fun _ _ => keeps_releaseDisk h)

theorem keeps_cancelStaleReservation (h : MayFree A P x K)
    (hupdate : ∀ now, P (.update x.id (.stale now))) : Keeps A P (cancelStaleReservation x) :=
  Meets.logged ((issues_incidental rfl).meets.bind fun now _ =>
    (issues_request (hupdate now)).meets.bind fun _ _ =>
    Meets.whenever (fun _ => trivial) fun _ => keeps_releaseDisk h)

/-! ### One reservation -/

/-- What ends a reservation whose pod is gone or dead. -/
theorem meets_finalizeLostPod (h : MayFree A P x K) (hdelete : ∀ g, P (.deletePod x.podName g))
    (hexists : (checkPodExists x.podName).Meets A P
      (fun e => e = false → Keeps A P (expireReservationDueToMissingPod x)) fun _ => True)
    (hdead : ∀ now reason, P (.update x.id (.podDead now reason))) :
    Keeps A P (finalizeLostPod cfg x) := by
  refine hexists.bind fun podExists hmissing => ?_
  split
  · exact (hmissing (by simpa using ‹(!podExists) = true›)).bind fun _ _ => meets_pure trivial
  · refine (keeps_checkPodDead x.podName).bind fun dead _ => ?_
    cases dead with
    | none => exact meets_pure trivial
    | some reason =>
      exact Meets.orElseGive (E := fun _ => True)
        ((keeps_expireReservationDueToDeadPod h hdelete hdead reason).bind fun _ _ =>
          meets_pure trivial) trivial

theorem keeps_warnUserExpiring
    (hexists : (checkPodExists x.podName).Meets A P
      (fun e => e = false → Keeps A P (expireReservationDueToMissingPod x)) fun _ => True)
    (hwarned : ∀ sent time, P (.update x.id (.warned sent time))) (level : ℤ) :
    Keeps A P (warnUserExpiring x level) := by
  refine Meets.logged (E := fun _ => True) ((issues_incidental rfl).meets.bind fun now _ =>
    Meets.bind (Q := fun _ => True) (Meets.whenever (fun _ => trivial) fun _ =>
      hexists.bind fun podExists hmissing => ?_) fun _ _ => (issues_request (hwarned _ _)).meets)
  split
  · exact (Issues.logged (issues_incidental rfl)).meets
  · exact hmissing (by simpa using ‹¬ podExists = true›)

theorem keeps_handleOomEvent (houtOfMemory : ∀ t n c, P (.update x.id (.outOfMemory t n c)))
    (container oomTime : String) : Keeps A P (handleOomEvent x container oomTime) := by
  refine Issues.meets (Issues.logged (Issues.bind ?_ fun newOomTime => Issues.whenever _
    ((issues_request (houtOfMemory _ _ _)).bind fun _ =>
      Issues.whenever _ (Issues.logged (issues_incidental rfl)))))
  unfold oomTimeOrNow
  split
  · exact issues_pure _
  · exact issues_incidental rfl

/-- What is done for a reservation in use, beside ending it. -/
theorem keeps_watchPod
    (hexists : (checkPodExists x.podName).Meets A P
      (fun e => e = false → Keeps A P (expireReservationDueToMissingPod x)) fun _ => True)
    (hwarned : ∀ sent time, P (.update x.id (.warned sent time)))
    (houtOfMemory : ∀ t n c, P (.update x.id (.outOfMemory t n c))) (currentTime : ℤ) :
    Keeps A P (watchPod currentTime x) := by
  refine Meets.bind (Q := fun _ => True) ?_ fun _ _ => Meets.whenever (fun _ => trivial)
    fun _ => Meets.logged (E := fun _ => True)
      ((keeps_checkPodOomStatus x.podName).bind fun killed _ => ?_)
  · unfold sendWarning
    split
    · exact keeps_warnUserExpiring hexists hwarned _
    · exact meets_pure trivial
  · cases killed with
    | none => exact meets_pure trivial
    | some c => exact keeps_handleOomEvent houtOfMemory c.1 c.2

/-- What is done for an active reservation, beside expiring it. -/
theorem keeps_watchActive (h : MayFree A P x K) (hdelete : ∀ g, P (.deletePod x.podName g))
    (hexists : (checkPodExists x.podName).Meets A P
      (fun e => e = false → Keeps A P (expireReservationDueToMissingPod x)) fun _ => True)
    (hdead : ∀ now reason, P (.update x.id (.podDead now reason)))
    (hwarned : ∀ sent time, P (.update x.id (.warned sent time)))
    (houtOfMemory : ∀ t n c, P (.update x.id (.outOfMemory t n c))) (currentTime : ℤ) :
    Keeps A P (watchActive cfg currentTime x) := by
  unfold watchActive
  split
  · exact (meets_finalizeLostPod h hdelete hexists hdead).bind fun ended _ =>
      Meets.whenever (fun _ => trivial) fun _ =>
        keeps_watchPod hexists hwarned houtOfMemory currentTime
  · exact keeps_watchPod hexists hwarned houtOfMemory currentTime

omit [AllowsIncidental P] in
theorem keeps_endIfOlder {endIt : Lambda Unit} (currentTime seconds : ℤ) (h : Keeps A P endIt) :
    Keeps A P (endIfOlder currentTime seconds x endIt) := by
  unfold endIfOlder
  split
  · exact meets_pure trivial
  · exact Meets.whenever (fun _ => trivial) fun _ => h

/-- What is done for a reservation that has ended. -/
theorem keeps_cleanupEnded (h : MayFree A P x K) (hdelete : ∀ g, P (.deletePod x.podName g)) :
    Keeps A P (cleanupEnded cfg x) := by
  refine (keeps_checkPodExists x.podName).bind fun podExists _ => ?_
  split
  · exact keeps_releaseDisk h
  · exact Meets.logged (keeps_cleanupPod h hdelete)

omit [AllowsIncidental P] in
theorem keeps_cleanupIfRecent (currentTime window : ℤ) (endedAt : Option Stamp)
    (hended : x.podName ≠ "" → Keeps A P (cleanupEnded cfg x)) :
    Keeps A P (cleanupIfRecent cfg currentTime window endedAt x) := by
  unfold cleanupIfRecent
  split
  · exact meets_pure trivial
  · refine Meets.whenever (fun _ => trivial) fun hpod => hended ?_
    simp only [Bool.and_eq_true, decide_eq_true_eq] at hpod
    exact hpod.1

/-! ### The run -/

theorem keeps_whileTimeRemains {β : Type} {body : β → Lambda Unit} {bs : List β}
    (h : ∀ b ∈ bs, Keeps A P (body b)) : Keeps A P (whileTimeRemains body bs) := by
  induction bs with
  | nil => exact meets_pure trivial
  | cons b bs ih =>
    refine (issues_incidental rfl).meets.bind fun remainingMs _ => ?_
    split
    · exact meets_pure trivial
    · exact (h b List.mem_cons_self).bind fun _ _ =>
        ih fun c hc => h c (List.mem_cons_of_mem _ hc)

variable {B : String → Record → Prop}

/-- What is listed are items that may be listed. -/
theorem meets_query (hlist : ∀ status rs, A ⟨.query status, .ok rs⟩ → ∀ x ∈ rs, B status x)
    (status : String) :
    (query status).Meets A P (fun rs => ∀ x ∈ rs, B status x) fun _ => True :=
  meets_request (AllowsIncidental.incidental _ rfl)
    (fun r rs hA hr => hlist status rs (by cases hr; exact hA)) fun _ _ _ _ => trivial

theorem keeps_cleanupFailedReservations (currentTime : ℤ)
    (hlist : ∀ status rs, A ⟨.query status, .ok rs⟩ → ∀ x ∈ rs, B status x)
    (hfailed : ∀ x, B "failed" x → Keeps A P (cleanupFailed cfg currentTime x)) :
    Keeps A P (cleanupFailedReservations cfg currentTime) :=
  Meets.logged ((meets_query hlist "failed").bind fun _ hitems =>
    Meets.forM fun x hx => hfailed x (hitems x hx))

theorem keeps_cleanupExpiredReservations (currentTime : ℤ)
    (hlist : ∀ status rs, A ⟨.query status, .ok rs⟩ → ∀ x ∈ rs, B status x)
    (hended : ∀ x, B "expired" x ∨ B "cancelled" x → Keeps A P (cleanupExpired cfg currentTime x)) :
    Keeps A P (cleanupExpiredReservations cfg currentTime) :=
  Meets.logged ((meets_query hlist "expired").bind fun _ hexpired =>
    (meets_query hlist "cancelled").bind fun _ hcancelled =>
    keeps_whileTimeRemains fun x hx => hended x ((List.mem_append.mp hx).imp
      (hexpired x) (hcancelled x)))

/-- What the sweep does for one disk. -/
theorem keeps_sweepDisk {d : NamedDisk}
    (hfree : P (.freeDisk d.1.1 d.1.2 (some d.2.attachedTo))) : Keeps A P (sweepDisk d) := by
  refine Meets.whenever (fun _ => trivial) fun _ => Meets.logged (E := fun _ => True)
    ((issues_incidental rfl).meets.bind fun item _ => ?_)
  cases item with
  | none => exact keeps_markDiskNotInUse hfree
  | some reservation =>
    exact Meets.whenever (fun _ => trivial) fun _ => keeps_markDiskNotInUse hfree

theorem keeps_cleanupPods
    (hpod : ∀ name, podPrefix.toList.isPrefixOf name.toList = true →
      Keeps A P (cleanupPodOfEnded cfg name)) : Keeps A P (cleanupPods cfg) :=
  Meets.logged ((issues_incidental rfl).meets.bind fun _ _ =>
    (issues_incidental rfl).meets.bind fun _ _ => keeps_whileTimeRemains fun name hname =>
      hpod name (List.mem_filter.mp hname).2)

omit [AllowsIncidental P] in
theorem keeps_sweepStaleDiskLocks (hlocks : P .lockedDisks)
    (hsweep : ∀ ds, A ⟨.lockedDisks, .ok ds⟩ → ∀ d ∈ ds, Keeps A P (sweepDisk d)) :
    Keeps A P sweepStaleDiskLocks :=
  Meets.logged (Meets.bind (Q := fun ds => ∀ d ∈ ds, Keeps A P (sweepDisk d))
    (meets_request hlocks
      (fun r ds hA hr => hsweep ds (by cases hr; exact hA)) fun _ _ _ _ => trivial)
    fun ds hds => Meets.forM hds)

theorem meets_listLive (hlist : ∀ status rs, A ⟨.query status, .ok rs⟩ → ∀ x ∈ rs, B status x) :
    listLive.Meets A P
      (fun l => (∀ x ∈ l.1, B "active" x) ∧ ∀ x ∈ l.2, B "preparing" x) fun _ => True :=
  Meets.orElseGive (E := fun _ => True)
    ((meets_query hlist "active").bind fun _ hactive =>
      (meets_query hlist "preparing").bind fun _ hpreparing =>
      meets_pure ⟨hactive, hpreparing⟩) ⟨by simp, by simp⟩

/-- What holds of the handling of whatever may be listed as live holds of the first part of a
run. -/
theorem keeps_endReservations (currentTime : ℤ)
    (hlist : ∀ status rs, A ⟨.query status, .ok rs⟩ → ∀ x ∈ rs, B status x)
    (hpreparing : ∀ x, B "preparing" x → Keeps A P (expirePreparing currentTime x))
    (hactive : ∀ x, B "active" x → Keeps A P (expireActive cfg currentTime x))
    (hqueued : ∀ x, B "queued" x ∨ B "pending" x → Keeps A P (expireQueued currentTime x)) :
    Keeps A P (endReservations cfg currentTime) := by
  refine (meets_listLive hlist).bind fun live hlive => ?_
  refine Meets.bind (Q := fun _ => True)
    (Meets.forM fun x hx => hpreparing x (hlive.2 x hx)) fun _ _ => ?_
  refine Meets.bind (Q := fun _ => True)
    (Meets.forM fun x hx => hactive x (hlive.1 x hx)) fun _ _ => ?_
  exact (meets_query hlist "queued").bind fun _ hq => (meets_query hlist "pending").bind
    fun _ hp => Meets.forM fun x hx => hqueued x ((List.mem_append.mp hx).imp (hq x) (hp x))

/-- What holds of the handling of whatever may be listed as ended, and of any pod, holds of the
rest of a run. -/
theorem keeps_cleanUp (currentTime : ℤ)
    (hlist : ∀ status rs, A ⟨.query status, .ok rs⟩ → ∀ x ∈ rs, B status x)
    (hsweep : Keeps A P sweepStaleDiskLocks)
    (hfailed : ∀ x, B "failed" x → Keeps A P (cleanupFailed cfg currentTime x))
    (hpods : Keeps A P (cleanupPods cfg))
    (hended : ∀ x, B "expired" x ∨ B "cancelled" x → Keeps A P (cleanupExpired cfg currentTime x)) :
    Keeps A P (cleanUp cfg currentTime) :=
  hsweep.bind fun _ _ => (keeps_cleanupFailedReservations _ hlist hfailed).bind fun _ _ =>
    hpods.bind fun _ _ => (keeps_cleanupExpiredReservations _ hlist hended).bind fun _ _ =>
    (Issues.logged (issues_incidental rfl)).meets

/-- What holds of both parts of a run at any time that it may read holds of the run. -/
theorem keeps_expiryHandler
    (hend : ∀ t, A ⟨.time, t⟩ → Keeps A P (endReservations cfg (PythonNumber.truncate t)))
    (hclean : ∀ t, A ⟨.time, t⟩ → Keeps A P (cleanUp cfg (PythonNumber.truncate t))) :
    Keeps A P (expiryHandler cfg) := by
  refine Meets.bind (Q := fun t => A ⟨.time, t⟩) (meets_request
    (AllowsIncidental.incidental _ rfl) (fun t a hA ha => by cases ha; exact hA)
    fun _ _ _ _ => trivial) fun t ht => ?_
  exact (hend t ht).bind fun _ _ => hclean t ht

/-- Where all takedowns are allowed, all of the rest of a run is. -/
theorem keeps_cleanUp_of_all (hlocks : P .lockedDisks) (hdelete : ∀ name g, P (.deletePod name g))
    (hfree : ∀ user disk b, P (.freeDisk user disk b)) (currentTime : ℤ) :
    Keeps A P (cleanUp cfg currentTime) := by
  have hall : ∀ x : Record, MayFree A P x fun _ => True := fun x =>
    MayFree.of_all x fun _ _ => hfree _ _ _
  have hended : ∀ x : Record, Keeps A P (cleanupEnded cfg x) := fun x =>
    keeps_cleanupEnded (hall x) (hdelete _)
  refine keeps_cleanUp _ (B := fun _ _ => True) (fun _ _ _ _ _ => trivial)
    (keeps_sweepStaleDiskLocks hlocks fun _ _ _ _ => keeps_sweepDisk (hfree _ _ _))
    (fun x _ => keeps_cleanupIfRecent _ _ _ fun _ => hended x) ?_
    fun x _ => keeps_cleanupIfRecent _ _ _ fun _ => hended x
  refine keeps_cleanupPods fun name _ => Meets.logged (E := fun _ => True)
    ((issues_incidental rfl).meets.bind fun items _ => ?_)
  cases items with
  | nil => exact meets_pure trivial
  | cons x _ =>
    exact Meets.whenever (fun _ => trivial) fun _ =>
      Meets.logged (keeps_cleanupPod (hall x) (hdelete _))

/-- Where all takedowns are allowed, what is left to show of a run is the handling of active
reservations. -/
theorem keeps_expiryHandler_of_active (hlocks : P .lockedDisks)
    (hdelete : ∀ name g, P (.deletePod name g)) (hfree : ∀ user disk b, P (.freeDisk user disk b))
    (hstuck : ∀ id now, P (.update id (.stuck now)))
    (hstale : ∀ id now, P (.update id (.stale now)))
    (hlist : ∀ status rs, A ⟨.query status, .ok rs⟩ → ∀ x ∈ rs, B status x)
    (hactive : ∀ t, A ⟨.time, t⟩ → ∀ x, B "active" x →
      Keeps A P (expireActive cfg (PythonNumber.truncate t) x)) :
    Keeps A P (expiryHandler cfg) := by
  have hall : ∀ x : Record, MayFree A P x fun _ => True := fun x =>
    MayFree.of_all x fun _ _ => hfree _ _ _
  refine keeps_expiryHandler (fun t ht => ?_) fun t _ =>
    keeps_cleanUp_of_all hlocks hdelete hfree _
  exact keeps_endReservations _ hlist
    (fun x _ => keeps_endIfOlder _ _
      (keeps_expireStuckPreparingReservation (hall x) (hdelete _) (hstuck _)))
    (hactive t ht)
    fun x _ => keeps_endIfOlder _ _ (keeps_cancelStaleReservation (hall x) (hstale _))

/-- The update is one that a message leads to. -/
def Change.isOfMessage : Change → Bool
  | cancelled _ | extended _ _ | refused _ | activated _ _ _ => true
  | _ => false

/-- The update is one that is made of an active reservation. -/
def Change.isOfActive : Change → Bool
  | expired _ | podMissing _ _ | podDead _ _ | warned _ _ | outOfMemory _ _ _ => true
  | _ => false

/-- Where all takedowns and all updates of active reservations are allowed, so is their
handling. -/
theorem keeps_expireActive_of_all (hdelete : ∀ name g, P (.deletePod name g))
    (hfree : ∀ user disk b, P (.freeDisk user disk b))
    (hupdate : ∀ id change, change.isOfActive = true → P (.update id change)) (currentTime : ℤ) :
    Keeps A P (expireActive cfg currentTime x) := by
  have hall : MayFree A P x fun _ => True := MayFree.of_all x fun _ _ => hfree _ _ _
  unfold expireActive
  split
  · exact Meets.logged (keeps_expireReservation hall (hdelete _) fun _ => hupdate _ _ rfl)
  · refine keeps_watchActive hall (hdelete _) ?_ (fun _ _ => hupdate _ _ rfl)
      (fun _ _ => hupdate _ _ rfl) (fun _ _ _ => hupdate _ _ rfl) _
    exact (keeps_checkPodExists x.podName).mono (fun _ h => h)
      (fun _ _ _ => keeps_expireReservationDueToMissingPod hall fun _ _ => hupdate _ _ rfl)
      fun _ _ => trivial

/-- Where all takedowns and all updates of a run are allowed, the run keeps to what is allowed. -/
theorem keeps_expiryHandler_of_all (hlocks : P .lockedDisks)
    (hdelete : ∀ name g, P (.deletePod name g)) (hfree : ∀ user disk b, P (.freeDisk user disk b))
    (hupdate : ∀ id change, change.isOfMessage = false → P (.update id change)) :
    Keeps A P (expiryHandler cfg) := by
  refine keeps_expiryHandler_of_active (B := fun _ _ => True) hlocks hdelete hfree
    (fun _ _ => hupdate _ _ rfl) (fun _ _ => hupdate _ _ rfl) (fun _ _ _ _ _ => trivial)
    fun t _ x _ => keeps_expireActive_of_all hdelete hfree (fun id change hchange => ?_) _
  cases change <;> first | cases hchange; done | exact hupdate _ _ rfl

end Expiry

/-! ### Messages -/

section Messages

variable {A : Program.Event Op Op.Res → Prop} {P : Op → Prop} [AllowsIncidental P] {x : Record}
  {F : Record → Prop}

theorem meets_findExactly (hitem : ∀ id x, A ⟨.getItem id, .ok (some x)⟩ → F x)
    (reservationId user : String) :
    (findExactly reservationId user).Meets A P (fun r => ∀ x, r = some x → F x)
      fun _ => True := by
  unfold findExactly
  split
  · refine Meets.orElseGive (E := fun _ => True) ?_ fun _ h => nomatch h
    refine Meets.bind (Q := fun item => ∀ x, item = some x → F x) ?_
      fun item hF => meets_pure fun x hx => hF x (Option.filter_eq_some_iff.mp hx).1
    exact meets_request (AllowsIncidental.incidental _ rfl)
      (fun r item hA hr x hx => hitem _ x (by subst hx; cases hr; exact hA)) fun _ _ _ _ => trivial
  · exact meets_pure fun _ h => nomatch h

/-- What is looked up is something that answers showed. -/
theorem meets_lookUpReservation (hitem : ∀ id x, A ⟨.getItem id, .ok (some x)⟩ → F x)
    (hfound : ∀ start user xs, A ⟨.startingWith start user, .ok xs⟩ → ∀ x ∈ xs, F x)
    (reservationId user : String) :
    (lookUpReservation reservationId user).Meets A P (fun r => ∀ x, r = .ok x → F x)
      fun _ => True := by
  refine Meets.tryCatch (E := fun _ => True) (Meets.bind (Q := F) ?_ fun x hx =>
    meets_pure fun y hy => by cases hy; exact hx) fun e _ => ?_
  · refine (meets_findExactly hitem reservationId user).bind fun exact_ hexact => ?_
    cases exact_ with
    | some item => exact meets_pure (hexact item rfl)
    | none =>
      refine Meets.bind (Q := fun xs => ∀ x ∈ xs, F x) ?_ fun xs hxs => ?_
      · exact meets_request (AllowsIncidental.incidental _ rfl)
          (fun r xs hA hr => hfound _ _ xs (by cases hr; exact hA)) fun _ _ _ _ => trivial
      · match xs, hxs with
        | [], _ => exact meets_throw trivial
        | [y], hxs => exact meets_pure (hxs y List.mem_cons_self)
        | _ :: _ :: _, _ => exact meets_throw trivial
  · cases e <;> exact meets_pure fun _ h => nomatch h

omit [AllowsIncidental P] in
theorem keeps_updateReservationFields {id : String} {change : Change}
    (h : P (.update id change)) : Keeps A P (updateReservationFields id change) :=
  (Issues.logged (issues_request h)).meets

omit [AllowsIncidental P] in
theorem keeps_refuseExtension {id : String} (h : ∀ reason, P (.update id (.refused reason)))
    (reason : String) : Keeps A P (refuseExtension id reason) :=
  (keeps_updateReservationFields (h reason)).bind fun _ _ => meets_pure trivial

theorem keeps_writeExtension {new hours : ℚ}
    (hrefused : ∀ reason, P (.update x.id (.refused reason)))
    (hextended : P (.update x.id (.extended new (x.durationHours.map (· + hours))))) :
    Keeps A P (writeExtension x new hours) := by
  refine Meets.tryCatch (E := fun _ => True) ?_ fun _ _ =>
    (keeps_updateReservationFields (hrefused _)).bind fun _ _ => meets_pure trivial
  exact Issues.meets ((issues_request hextended).bind fun _ =>
    (Issues.whenever _ (Issues.logged (issues_incidental rfl))).bind fun _ =>
    (Issues.whenever _ (Issues.logged (issues_incidental rfl))).bind fun _ =>
    (Issues.logged (issues_incidental rfl)).bind fun _ => issues_pure _)

/-- An extension writes the new expiry of the record it was given. -/
theorem keeps_extendReservation {hours : Hours}
    (hrefused : ∀ reason, P (.update x.id (.refused reason)))
    (hextended : ∀ stamp new h, ["active", "preparing"].contains x.status = true →
      x.expiresAt = some stamp → newExpiry stamp x.launchedAt hours = .ok (new, h) →
      P (.update x.id (.extended new (x.durationHours.map (· + h))))) :
    Keeps A P (extendReservation x hours) := by
  unfold extendReservation
  split
  · exact keeps_refuseExtension hrefused _
  · rename_i hstatus
    rw [Bool.not_eq_true', Bool.not_eq_false] at hstatus
    split
    · exact keeps_refuseExtension hrefused _
    · split
      · exact keeps_refuseExtension hrefused _
      · exact keeps_writeExtension hrefused (hextended _ _ _ hstatus ‹_› ‹_›)

theorem keeps_processExtendReservationAction {message : ExtendMessage}
    (hitem : ∀ id x, A ⟨.getItem id, .ok (some x)⟩ → F x)
    (hfound : ∀ start user xs, A ⟨.startingWith start user, .ok xs⟩ → ∀ x ∈ xs, F x)
    (hextend : ∀ x hours, F x → message.hours = some hours →
      Keeps A P (extendReservation x hours)) :
    Keeps A P (processExtendReservationAction message) := by
  unfold processExtendReservationAction
  split
  · exact meets_pure trivial
  · split
    · exact meets_pure trivial
    · refine Meets.orElseGive (E := fun _ => True)
        ((meets_lookUpReservation hitem hfound _ _).bind fun found hF => ?_) trivial
      cases found with
      | error done => exact meets_pure trivial
      | ok x => exact hextend x _ (hF x rfl) ‹_›

/-- An activation writes an expiry that follows from the time and the duration it has read. -/
theorem keeps_updateReservationConnectionInfo {reservationId podName : String}
    (hactivated : ∀ x now expiresAt, A ⟨.getItem reservationId, .ok (some x)⟩ → A ⟨.utcnow, now⟩ →
      plusHours? now (x.durationHours.getD 2) = some expiresAt →
      P (.update reservationId (.activated podName expiresAt now))) :
    Keeps A P (updateReservationConnectionInfo reservationId podName) := by
  refine Meets.bind (Q := fun item => ∀ x, item = some x →
      A ⟨.getItem reservationId, .ok (some x)⟩)
    (meets_request (AllowsIncidental.incidental _ rfl)
      (fun r item hA hr x hx => by subst hx; cases hr; exact hA) fun _ _ _ _ => trivial)
    fun item hitem => ?_
  cases item with
  | none => exact meets_throw trivial
  | some x =>
    refine Meets.bind (Q := fun now => A ⟨.utcnow, now⟩)
      (meets_request (AllowsIncidental.incidental _ rfl)
        (fun r now hA hr => by cases hr; exact hA) fun _ _ _ _ => trivial) fun now hnow => ?_
    split
    · exact meets_throw trivial
    · rename_i expiresAt hexpires
      exact (issues_incidental rfl).meets.bind fun _ _ =>
        (keeps_updateReservationFields (hactivated x now expiresAt (hitem x rfl) hnow
          hexpires)).bind fun _ _ => (Issues.logged (issues_incidental rfl)).meets

theorem keeps_cleanupPodResources {podName : String} (hdelete : ∀ g, P (.deletePod podName g)) :
    Keeps A P (cleanupPodResources podName) := by
  refine (issues_incidental rfl).meets.bind fun _ _ =>
    (Issues.meets (Issues.tryCatch (issues_incidental rfl) fun e => ?_)).bind fun _ _ =>
    keeps_deletePodOrForce hdelete
  cases e <;> trivial

theorem keeps_cancelReservation {user : String} (hdelete : ∀ g, P (.deletePod x.podName g))
    (hcancelled : ∀ now, P (.update x.id (.cancelled now)))
    (hfree : x.diskName ≠ "" → ∀ user, P (.freeDisk user x.diskName (some x.id))) :
    Keeps A P (cancelReservation x user) := by
  refine (Issues.logged (issues_incidental rfl)).meets.bind fun _ _ =>
    (issues_incidental rfl).meets.bind fun now _ =>
    (keeps_updateReservationFields (hcancelled now)).bind fun _ _ => ?_
  refine Meets.bind (Q := fun _ => True) (Meets.whenever (fun _ => trivial) fun _ => ?_) fun _ _ =>
    (Issues.whenever _ (Issues.logged (issues_incidental rfl))).meets.bind fun _ _ =>
    Meets.whenever (fun _ => trivial) fun hdisk => ?_
  · refine Meets.bind (Q := fun _ => True) (Meets.logged (E := fun _ => True) ?_) fun _ _ =>
      Meets.whenever (fun _ => trivial) fun hdisk =>
        (Issues.logged (issues_request (hfree (by simpa using hdisk) _))).meets
    refine Meets.bind (Q := fun _ => True) (Meets.whenever (fun _ => trivial) fun _ =>
        (Issues.whenever _ (Issues.logged (issues_incidental rfl))).meets.bind fun _ _ =>
        (keeps_safeCreateSnapshot _ _ _).bind fun _ _ => meets_pure trivial) fun _ _ =>
      (keeps_cleanupPodResources hdelete).bind fun _ _ =>
      (Issues.whenever _ (Issues.logged (issues_incidental rfl))).meets
  · simp only [Bool.and_eq_true, decide_eq_true_eq] at hdisk
    exact (Issues.logged (issues_request (hfree hdisk.1 _))).meets

theorem keeps_processCancellationRequest {reservationId user : String}
    (hitem : ∀ id x, A ⟨.getItem id, .ok (some x)⟩ → F x)
    (hfound : ∀ start user xs, A ⟨.startingWith start user, .ok xs⟩ → ∀ x ∈ xs, F x)
    (hcancel : ∀ x, F x → Keeps A P (cancelReservation x user)) :
    Keeps A P (processCancellationRequest reservationId user) := by
  unfold processCancellationRequest
  split
  · exact meets_pure trivial
  · refine Meets.orElseGive (E := fun _ => True)
      ((meets_lookUpReservation hitem hfound _ _).bind fun found hF => ?_) trivial
    cases found with
    | error done => exact meets_pure trivial
    | ok x =>
      dsimp only
      split
      · exact (hcancel x (hF x rfl)).bind fun _ _ => meets_pure trivial
      · exact meets_pure trivial

theorem keeps_processClearDiskLockAction {user disk : String}
    (hfree : A ⟨.usersOf user disk, .ok []⟩ → P (.freeDisk user disk none)) :
    Keeps A P (processClearDiskLockAction user disk) := by
  unfold processClearDiskLockAction
  split
  · exact meets_pure trivial
  · refine Meets.bind (Q := fun xs => A ⟨.usersOf user disk, .ok xs⟩)
      (meets_request (AllowsIncidental.incidental _ rfl)
        (fun r xs hA hr => by cases hr; exact hA) fun _ _ _ _ => trivial) fun users husers => ?_
    cases users with
    | cons _ _ => exact meets_pure trivial
    | nil =>
      exact (Issues.logged (issues_request (hfree husers))).meets.bind fun _ _ =>
        (Issues.logged (issues_incidental rfl)).meets.bind fun _ _ => meets_pure trivial

end Messages

/-- Where all that messages write is allowed, all messages keep to what is allowed. -/
theorem Job.within_of_message {A : Program.Event Op Op.Res → Prop} {P : Op → Prop}
    [AllowsIncidental P] {cfg : Settings} {job : Job} (hjob : job ≠ .expiry)
    (hupdate : ∀ id change, change.isOfMessage = true → P (.update id change))
    (hdelete : ∀ name g, P (.deletePod name g)) (hfree : ∀ user disk b, P (.freeDisk user disk b)) :
    (job.program cfg).Within A P fun _ => True := by
  cases job with
  | expiry => exact (hjob rfl).elim
  | extend message =>
    exact (keeps_processExtendReservationAction (F := fun _ => True) (fun _ _ _ => trivial)
      (fun _ _ _ _ _ _ => trivial) fun x hours _ _ => keeps_extendReservation
        (fun _ => hupdate _ _ rfl) fun _ _ _ _ _ _ => hupdate _ _ rfl).toEnd
  | activate id podName =>
    exact (keeps_updateReservationConnectionInfo fun _ _ _ _ _ _ => hupdate _ _ rfl).toEnd
  | cancel id user =>
    exact (keeps_processCancellationRequest (F := fun _ => True) (fun _ _ _ => trivial)
      (fun _ _ _ _ _ _ => trivial) fun x _ => keeps_cancelReservation (hdelete _)
        (fun _ => hupdate _ _ rfl) fun _ _ => hfree _ _ _).toEnd
  | clearDiskLock user disk =>
    exact (keeps_processClearDiskLockAction fun _ => hfree _ _ _).toEnd

end CiInfra.GpuDev.Lifecycle

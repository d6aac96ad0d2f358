import CiInfra.GpuDev.ExpirySafety

/-!
# Locks of disks

The lock of a disk names the reservation that holds it. Whoever clears a lock does so by the user
and the name of the disk alone: for a reservation that is being ended, for one that ended days
ago, or on request. None of them looks at the holder. A lock is cleared for its holder as long as
the disk has not passed on since the one who clears it was last told its name.
-/

namespace CiInfra.GpuDev.Lifecycle

open Interaction Fallible

/-- The lock that a call clears: the user, the name of the disk, and on whose behalf. -/
def Op.frees : Op → Option ((String × String) × Option String)
  | freeDisk user disk onBehalfOf => some ((user, disk), onBehalfOf)
  | _ => none

/-- The disk is in use, attached to a live reservation other than the one on whose behalf its lock
is to be cleared. -/
def World.isHeldByOther (w : World) (f : (String × String) × Option String) : Bool :=
  match w.disks.lookup f.1 with
  | some d => d.inUse && some d.attachedTo ≠ f.2 &&
      ((w.records.lookup d.attachedTo).map Record.isLive).getD false
  | none => false

/-- The item is the record of the reservation, and names the disk. -/
def Record.namesDisk (f : (String × String) × Option String) (x : Record) : Bool :=
  f.2 = some x.id && x.diskName = f.1.2

/-- An answer that gives the name of the disk for the reservation: an item, a lock that names the
reservation, the tag of a volume, or that no live reservation names it. -/
def Op.namesDisk (f : (String × String) × Option String) : (op : Op) → op.Res → Bool
  | query _, .ok xs => xs.any (·.namesDisk f)
  | scan _, .ok xs => xs.any (·.namesDisk f)
  | startingWith _ _, .ok xs => xs.any (·.namesDisk f)
  | getItem _, .ok (some x) => x.namesDisk f
  | disksOf _, .ok ds => ds.any fun d => d.1.2 = f.1.2 && f.2.any fun r => d.2.isAttachedTo r
  | lockedDisks, .ok ds => ds.any fun d => d.1 = f.1 && f.2 = some d.2.attachedTo
  | describeVolume _, .ok (some v) => v.diskTag = f.1.2 && f.2.isSome
  | usersOf user disk, .ok [] => (user, disk) = f.1 && f.2 = none
  | _, _ => false

section Windows

variable {ι : Type} [DecidableEq ι]

/-- The locks that are cleared are not those of other live reservations. -/
def freesForHolder (_past : List (Occurrence ι)) (e : Occurrence ι) : Prop :=
  ∀ c ∈ e.call, ∀ f ∈ c.2.1.frees, e.before.isHeldByOther f = false

/-- The run was given the name of the disk. -/
def toldDisk (i : ι) (f : (String × String) × Option String) (e : Occurrence ι) : List Unit :=
  match e.call with
  | some (j, ⟨op, res⟩) => if j = i ∧ op.namesDisk f res = true then [()] else []
  | none => []

/-- A lock is cleared while the disk has not been held by another live reservation since the run
was given its name. -/
def freesWhatItWasTold (past : List (Occurrence ι)) (e : Occurrence ι) : Prop :=
  ∀ c ∈ e.call, ∀ f ∈ c.2.1.frees,
    StaysTrue (toldDisk c.1 f) (fun _ w => w.isHeldByOther f = false) past

instance (past : List (Occurrence ι)) (e : Occurrence ι) : Decidable (freesForHolder past e) :=
  inferInstanceAs (Decidable (∀ c ∈ e.call, _))

instance (past : List (Occurrence ι)) (e : Occurrence ι) : Decidable (freesWhatItWasTold past e) :=
  inferInstanceAs (Decidable (∀ c ∈ e.call, _))

end Windows

/-! ### What a run is told -/

section Run

variable {cfg : Settings} {f : (String × String) × Option String}

/-- The call does not clear the lock. -/
def Op.KeepsLock (f : (String × String) × Option String) (op : Op) : Prop := op.frees ≠ some f

theorem keepsLock_of_frees {op : Op} (h : op.frees = none) : op.KeepsLock f := by
  simp [Op.KeepsLock, h]

instance : AllowsIncidental (Op.KeepsLock f) where
  incidental op h := keepsLock_of_frees (by cases op <;> first | rfl | cases h)

/-- The name of the disk is not given for the reservation. -/
def TellsNothing (f : (String × String) × Option String) (c : Program.Event Op Op.Res) : Prop :=
  c.1.namesDisk f c.2 = false

theorem keepsLock_freeDisk {user disk : String} {b : Option String}
    (h : f ≠ ((user, disk), b)) : (Op.freeDisk user disk b).KeepsLock f :=
  fun heq => h (Option.some.inj heq).symm

/-- For a record that does not name the disk for the reservation, the lock is not cleared. -/
theorem mayFree_of_not_namesDisk {x : Record} (hx : x.namesDisk f = false) :
    MayFree (TellsNothing f) (Op.KeepsLock f) x fun disk => ¬ (f.2 = some x.id ∧ disk = f.1.2) where
  free user disk hdisk := keepsLock_freeDisk (by
    rintro rfl
    exact hdisk ⟨rfl, rfl⟩)
  name _ := by
    rintro ⟨hid, hname⟩
    simp [Record.namesDisk, hid, hname] at hx
  disks user ds h d hd hattached := by
    rintro ⟨hid, hname⟩
    have hnone := List.any_eq_false.mp h d hd
    simp [hid, hname, hattached] at hnone
  volume v vol h := by
    rintro ⟨hid, hname⟩
    simp [TellsNothing, Op.namesDisk, hid, hname] at h

theorem keepsLock_cleanupEnded {x : Record} (hx : x.namesDisk f = false) :
    Keeps (TellsNothing f) (Op.KeepsLock f) (cleanupEnded cfg x) :=
  keeps_cleanupEnded (mayFree_of_not_namesDisk hx) fun _ => keepsLock_of_frees rfl

/-- The reservations that are ended keep the lock, if none names the disk. -/
theorem keepsLock_endReservations (currentTime : ℤ) :
    Keeps (TellsNothing f) (Op.KeepsLock f) (endReservations cfg currentTime) := by
  have hupdate : ∀ id change, (Op.update id change).KeepsLock f := fun _ _ => keepsLock_of_frees rfl
  have hdelete : ∀ name g, (Op.deletePod name g).KeepsLock f := fun _ _ => keepsLock_of_frees rfl
  refine keeps_endReservations (B := fun _ x => x.namesDisk f = false) currentTime ?_ ?_ ?_ ?_
  · exact fun status xs h x hx => by simpa using List.any_eq_false.mp h x hx
  · exact fun x hx => keeps_endIfOlder _ _ (keeps_expireStuckPreparingReservation
      (mayFree_of_not_namesDisk hx) (hdelete _) fun _ => hupdate _ _)
  · intro x hx
    have hfree := mayFree_of_not_namesDisk hx
    unfold expireActive
    split
    · exact Meets.logged (keeps_expireReservation hfree (hdelete _) fun _ => hupdate _ _)
    · refine keeps_watchActive hfree (hdelete _) ?_
        (fun _ _ => hupdate _ _) (fun _ _ => hupdate _ _)
        (fun _ _ _ => hupdate _ _) _
      exact (keeps_checkPodExists x.podName).mono (fun _ h => h)
        (fun _ _ _ => keeps_expireReservationDueToMissingPod hfree fun _ _ => hupdate _ _)
        fun _ _ => trivial
  · exact fun x hx => keeps_endIfOlder _ _ (keeps_cancelStaleReservation
      (mayFree_of_not_namesDisk (hx.elim id id)) fun _ => hupdate _ _)

/-- The passes that clean up keep the lock, if they are not told of the disk. -/
theorem keepsLock_cleanUp (currentTime : ℤ) :
    Keeps (TellsNothing f) (Op.KeepsLock f) (cleanUp cfg currentTime) := by
  refine keeps_cleanUp (B := fun _ x => x.namesDisk f = false) currentTime ?_ ?_ ?_ ?_ ?_
  · exact fun status xs h x hx => by simpa using List.any_eq_false.mp h x hx
  · refine keeps_sweepStaleDiskLocks (keepsLock_of_frees rfl) fun ds h d hd =>
      keeps_sweepDisk (keepsLock_freeDisk ?_)
    rintro rfl
    have hnone := List.any_eq_false.mp h d hd
    simp at hnone
  · exact fun x hx => keeps_cleanupIfRecent _ _ _ fun _ => keepsLock_cleanupEnded hx
  · refine keeps_cleanupPods fun name _ => Meets.logged (E := fun _ => True)
      (Meets.bind (Q := fun xs => ∀ x ∈ xs, x.namesDisk f = false) ?_ fun items hitems => ?_)
    · exact meets_request (AllowsIncidental.incidental _ rfl) (fun r xs hA hr x hx => by
        cases hr
        simpa using List.any_eq_false.mp hA x hx) fun _ _ _ _ => trivial
    · cases items with
      | nil => exact meets_pure trivial
      | cons x _ =>
        exact Meets.whenever (fun _ => trivial) fun _ => Meets.logged (keeps_cleanupPod
          (mayFree_of_not_namesDisk (hitems x List.mem_cons_self))
          fun _ => keepsLock_of_frees rfl)
  · exact fun x hx => keeps_cleanupIfRecent _ _ _ fun _ =>
      keepsLock_cleanupEnded (hx.elim id id)

/-- No job clears the lock as long as it is not told of the disk for the reservation. -/
theorem Job.keepsLock (cfg : Settings) (f : (String × String) × Option String) (job : Job) :
    (job.program cfg).Within (TellsNothing f) (Op.KeepsLock f) fun _ => True := by
  have hupdate : ∀ id change, (Op.update id change).KeepsLock f := fun _ _ => keepsLock_of_frees rfl
  cases job with
  | expiry =>
    exact (keeps_expiryHandler (fun _ _ => keepsLock_endReservations _)
      fun _ _ => keepsLock_cleanUp _).toEnd
  | extend message =>
    exact (keeps_processExtendReservationAction (F := fun _ => True) (fun _ _ _ => trivial)
      (fun _ _ _ _ _ _ => trivial) fun x hours _ _ => keeps_extendReservation
        (fun _ => hupdate _ _) fun _ _ _ _ _ _ => hupdate _ _).toEnd
  | activate id podName =>
    exact (keeps_updateReservationConnectionInfo fun _ _ _ _ _ _ => hupdate _ _).toEnd
  | cancel id user =>
    refine (keeps_processCancellationRequest (F := fun x => x.namesDisk f = false)
      (fun _ x h => h) (fun _ _ xs h x hx => by simpa using List.any_eq_false.mp h x hx)
      fun x hx => keeps_cancelReservation (fun _ => keepsLock_of_frees rfl) (fun _ => hupdate _ _)
        fun _ user => ?_).toEnd
    exact (mayFree_of_not_namesDisk hx).free user _ ((mayFree_of_not_namesDisk hx).name ‹_›)
  | clearDiskLock user disk =>
    refine (keeps_processClearDiskLockAction fun h => keepsLock_freeDisk ?_).toEnd
    rintro rfl
    simp [TellsNothing, Op.namesDisk] at h

end Run

/-! ### Every history -/

/-- A reservation that ended an hour ago, and whose pod is gone. -/
def endedEarlier : Record :=
  { Record.fresh "a07e64bb-0b1e-4f0e-9a57-0de3a2c9d511" with
    userId := some "mira", status := "expired", expiredAt := some (.moment 0),
    podName := "gpu-dev-a07e64bb", diskName := "data" }

/-- A reservation in use that has the disk now. -/
def newHolder : Record := { twoHours with diskName := "data" }

/-- The disk of a reservation that has ended, still locked for it or locked for the next one. -/
def passedOn (holder : String) : World where
  clock := ⟨3600, hour_nonneg⟩
  records := (AList.singleton newHolder.id newHolder).insert endedEarlier.id endedEarlier
  pods := ∅
  disks := AList.singleton ("mira", "data") ⟨true, holder⟩
  volumes := ∅
  snapshots := ∅

/-- One run of the expiry handler over this disk. -/
def runOverDisk (holder : String) : System Unit Op Op.Res Unit World :=
  ⟨passedOn holder, fun _ => Job.expiry.program .usual⟩

/-- A schedule in which the run goes on for as long as it has calls to make. -/
def throughTheRun : List (Turn Unit World) := List.replicate 40 (.call ())

end CiInfra.GpuDev.Lifecycle

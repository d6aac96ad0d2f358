import CiInfra.GpuDev.Endings
import CiInfra.Lib.History
import CiInfra.Lib.PythonNumber
import Mathlib.Algebra.Order.Ring.Rat
import Mathlib.Data.List.MinMax

/-!
# What the end of a reservation depends on

When a reservation ends, and what becomes of its data, depends on times, on what is read of its
pod, on the lock of its disk and on the snapshots of its volume, which the calls of `Calls` leave
to the outside. Here they are part of the world. An index or a scan may be out of date, a call
that raises may have been applied, and everything may change between two calls.
-/

namespace CiInfra.GpuDev.Lifecycle

open Interaction Fallible

/-! ### Records -/

/-- A stored time: an ISO date, or something that is none. -/
inductive Stamp
  | moment (t : ℚ)
  | garbled
  deriving DecidableEq

/-- `datetime.fromisoformat(...)`, with nothing for its `ValueError`. -/
def Stamp.time? : Stamp → Option ℚ
  | moment t => some t
  | garbled => none

/-- `int(datetime.fromisoformat(res.get(field, "")...).timestamp())`, with nothing for what is
missing or does not parse. -/
def seconds? (s : Option Stamp) : Option ℤ := (s.bind Stamp.time?).map PythonNumber.truncate

/-- The record of a reservation, with the fields that its end depends on. An empty text stands for
a missing one, except where the code tells the two apart. -/
structure Record where
  id : String
  userId : Option String
  status : String
  createdAt : Option Stamp
  expiresAt : Option Stamp
  launchedAt : Option Stamp
  durationHours : Option ℚ
  podName : String
  diskName : String
  ebsVolumeId : String
  domainName : String
  nodeIp : String
  nodePort : ℤ
  failedAt : Option Stamp
  expiredAt : Option Stamp
  cancelledAt : Option Stamp
  reservationEnded : Option Stamp
  failureReason : String
  /-- The levels of the warnings that have been sent. -/
  warningsSent : List ℤ
  lastWarningTime : Option ℤ
  oomCount : ℤ
  lastOomAt : String
  oomContainer : String
  extensionError : String
  deriving DecidableEq

/-- The record that an update creates where there is none. -/
def Record.fresh (id : String) : Record where
  id := id
  userId := none
  status := ""
  createdAt := none
  expiresAt := none
  launchedAt := none
  durationHours := none
  podName := ""
  diskName := ""
  ebsVolumeId := ""
  domainName := ""
  nodeIp := ""
  nodePort := 0
  failedAt := none
  expiredAt := none
  cancelledAt := none
  reservationEnded := none
  failureReason := ""
  warningsSent := []
  lastWarningTime := none
  oomCount := 0
  lastOomAt := ""
  oomContainer := ""
  extensionError := ""

/-- `reservation.get("user_id")`. -/
def Record.user (r : Record) : String := r.userId.getD ""

/-- The reservation is being set up or in use. -/
def Record.isLive (r : Record) : Bool := r.status == "preparing" || r.status == "active"

/-- The updates of a record, by the function that makes them. -/
inductive Change
  /-- `expire_reservation`. -/
  | expired (now : ℚ)
  /-- `expire_reservation_due_to_missing_pod`. -/
  | podMissing (now : ℚ) (reason : String)
  /-- `expire_reservation_due_to_dead_pod`. -/
  | podDead (now : ℚ) (reason : String)
  /-- `expire_stuck_preparing_reservation`. -/
  | stuck (now : ℚ)
  /-- `cancel_stale_reservation`. -/
  | stale (now : ℚ)
  /-- `warn_user_expiring`. -/
  | warned (sent : List ℤ) (time : ℤ)
  /-- `handle_oom_event`. -/
  | outOfMemory (time : String) (count : ℤ) (container : String)
  /-- `process_cancellation_request`. -/
  | cancelled (now : ℚ)
  /-- `process_extend_reservation_action`. -/
  | extended (expiresAt : ℚ) (duration : Option ℚ)
  /-- `update_reservation_error` with `extension_error`. -/
  | refused (message : String)
  /-- `update_reservation_connection_info`. -/
  | activated (podName : String) (expiresAt launchedAt : ℚ)
  deriving DecidableEq

/-- The record after an update. -/
def Change.apply (r : Record) : Change → Record
  | expired now =>
    { r with status := "expired", expiredAt := some (.moment now),
             reservationEnded := some (.moment now) }
  | podMissing now reason =>
    { r with status := "expired", expiredAt := some (.moment now),
             reservationEnded := some (.moment now), failureReason := reason }
  | podDead now reason =>
    { r with status := "failed", failedAt := some (.moment now),
             reservationEnded := some (.moment now), failureReason := reason }
  | stuck now =>
    { r with status := "failed", failedAt := some (.moment now),
             reservationEnded := some (.moment now),
             failureReason := "Reservation stuck in preparing status for more than 1 hour - " ++
               "likely pod creation failed" }
  | stale now =>
    { r with status := "cancelled", cancelledAt := some (.moment now),
             reservationEnded := some (.moment now),
             failureReason := "Stale reservation - exceeded 5 minute queue time" }
  | warned sent time => { r with warningsSent := sent, lastWarningTime := some time }
  | outOfMemory time count container =>
    { r with lastOomAt := time, oomCount := count, oomContainer := container }
  | cancelled now =>
    { r with status := "cancelled", cancelledAt := some (.moment now),
             reservationEnded := some (.moment now) }
  | extended expiresAt duration =>
    { r with expiresAt := some (.moment expiresAt), durationHours := duration.or r.durationHours,
             extensionError := "", warningsSent := [], lastWarningTime := none }
  | refused message => { r with extensionError := message }
  | activated podName expiresAt launchedAt =>
    { r with podName := podName, expiresAt := some (.moment expiresAt),
             launchedAt := some (.moment launchedAt), status := "active" }

/-! ### Pods, disks, volumes and snapshots -/

/-- What the status of a pod says. -/
structure PodStatus where
  phase : String
  reason : String
  /-- The first line of the message, at most 300 characters of it. -/
  message : String
  /-- The reason and the message of a condition `DisruptionTarget` that is `True`. -/
  disruption : Option (String × String)
  /-- The main container is running. -/
  mainRunning : Bool
  /-- The name of the first container that was killed for its memory, and when. -/
  oomKilled : Option (String × String)
  deriving DecidableEq

/-- A pod. -/
structure Pod where
  /-- The reservation that the pod was made for. -/
  reservationId : String
  /-- The label `user-id`. -/
  userLabel : String
  /-- The EBS volume mounted in the pod. -/
  volume : String
  status : PodStatus
  deriving DecidableEq

/-- An item of the disks table, as far as its lock goes. -/
structure Disk where
  inUse : Bool
  attachedTo : String
  deriving DecidableEq

/-- A disk with the user and the name that are its key. -/
abbrev NamedDisk := (String × String) × Disk

/-- An EBS volume: how often it has been written, and its tag `disk_name`. -/
structure Volume where
  writes : ℕ
  diskTag : String
  deriving DecidableEq

/-- The state of a snapshot. -/
inductive SnapshotState
  | pending
  | completed
  | error
  deriving DecidableEq

/-- An EBS snapshot: it holds what had been written to its volume when it was requested. -/
structure Snapshot where
  volume : String
  user : String
  diskTag : String
  captured : ℕ
  startTime : ℚ
  state : SnapshotState
  /-- It has a tag `delete-date`. -/
  deleteDate : Bool
  deriving DecidableEq

/-- A time of the clock, which counts the seconds from 1970 on. -/
abbrev Instant := { t : ℚ // 0 ≤ t }

/-- Everything that the calls work on. -/
structure World where
  clock : Instant
  records : AList fun _ : String => Record
  pods : AList fun _ : String => Pod
  disks : AList fun _ : String × String => Disk
  volumes : AList fun _ : String => Volume
  snapshots : AList fun _ : String => Snapshot

namespace World

/-- The record of a reservation, or a fresh one. -/
def recordOf (w : World) (id : String) : Record := (w.records.lookup id).getD (.fresh id)

/-- Update a record. -/
def update (w : World) (id : String) (change : Change) : World :=
  { w with records := w.records.insert id (change.apply (w.recordOf id)) }

/-- Clear the lock of a disk. -/
def freeDisk (w : World) (user disk : String) : World :=
  { w with disks := w.disks.insert (user, disk) ⟨false, ""⟩ }

/-- The snapshots of a volume that are in progress. -/
def pendingOf (w : World) (volume : String) : List (String × Snapshot) :=
  (w.snapshots.entries.map fun e => (e.1, e.2)).filter fun s =>
    s.2.volume == volume && s.2.state == .pending

/-- Request a snapshot of a volume. -/
def snapshot (w : World) (id volume user disk : String) : World :=
  let captured := ((w.volumes.lookup volume).map Volume.writes).getD 0
  { w with
    snapshots := w.snapshots.insert id ⟨volume, user, disk, captured, w.clock.1, .pending, false⟩ }

@[simp] theorem lookup_update_self (w : World) (id : String) (change : Change) :
    (w.update id change).records.lookup id = some (change.apply (w.recordOf id)) :=
  AList.lookup_insert _

theorem lookup_update_of_ne (w : World) {id other : String} (h : other ≠ id) (change : Change) :
    (w.update id change).records.lookup other = w.records.lookup other :=
  AList.lookup_insert_ne h

end World

/-! ### Calls -/

/-- What is raised. -/
inductive Failure
  /-- An `ApiException` with the status 404. -/
  | notFound
  /-- Any other `ApiException`. -/
  | api (message : String)
  | valueError (message : String)
  | error (message : String)
  deriving DecidableEq

/-- What the code consults or does outside the world. -/
inductive Errand
  | kubernetes
  | dnsRecord (domain : String)
  | domainMapping (domain : String)
  | loadBalancer (reservationId : String)
  | service (podName : String)
  | captureContents (podName disk : String)
  | backingUp (user disk : String)
  | snapshotRecorded (snapshotId user disk : String)
  | availability
  | warningFile (podName : String)
  | memoryFile (podName : String)
  | preemption (reservationId : String)
  | clearWarnings (podName : String)
  | statusHistory (reservationId : String)
  | stopMonitoring (reservationId : String)
  | detach (volume : String)
  | detachAll (user disk : String)
  | connection (podName : String)
  | isoNow
  | upkeep

/-- The calls. -/
inductive Op
  /-- `time.time()`. -/
  | time
  /-- `datetime.utcnow()`. -/
  | utcnow
  /-- `context.get_remaining_time_in_millis()`. -/
  | remaining
  /-- The query of `StatusIndex`. -/
  | query (status : String)
  /-- The pages of a scan for `begins_with(reservation_id, ...)`, up to the first with an item. -/
  | scan (start : String)
  /-- The query of `UserIndex`, or the scan without a user, for reservations that begin with a
  prefix. -/
  | startingWith (start : String) (user : Option String)
  /-- The query of `UserIndex` for live reservations with a disk. -/
  | usersOf (user disk : String)
  | getItem (id : String)
  | update (id : String) (change : Change)
  | readPod (name : String)
  | listPods
  | deletePod (name : String) (gracePeriodSeconds : ℕ)
  /-- The query for the disks of a user. -/
  | disksOf (user : String)
  /-- The scan for disks that are in use. -/
  | lockedDisks
  /-- Clear `in_use` and `attached_to_reservation`, on behalf of a reservation. -/
  | freeDisk (user disk : String) (onBehalfOf : Option String)
  | pendingSnapshots (volume : String)
  | createSnapshot (volume user disk : String)
  /-- The waiter `snapshot_completed`. -/
  | awaitSnapshot (id : String)
  | deleteVolume (volume : String)
  | describeVolume (volume : String)
  | errand (what : Errand)
  | read (what : Errand)

/-- The answers to each call. -/
def Op.Res : Op → Type
  | time => ℚ
  | utcnow => ℚ
  | remaining => ℕ
  | query _ => Except Failure (List Record)
  | scan _ => Except Failure (List Record)
  | startingWith _ _ => Except Failure (List Record)
  | usersOf _ _ => Except Failure (List Record)
  | getItem _ => Except Failure (Option Record)
  | update _ _ => Except Failure Unit
  | readPod _ => Except Failure Pod
  | listPods => Except Failure (List String)
  | deletePod _ _ => Except Failure Unit
  | disksOf _ => Except Failure (List NamedDisk)
  | lockedDisks => Except Failure (List NamedDisk)
  | freeDisk _ _ _ => Except Failure Unit
  | pendingSnapshots _ => Except Failure (List (String × Snapshot))
  | createSnapshot _ _ _ => Except Failure String
  | awaitSnapshot _ => Except Failure Unit
  | deleteVolume _ => Except Failure Unit
  | describeVolume _ => Except Failure (Option Volume)
  | errand _ => Except Failure Bool
  | read _ => Except Failure String

/-- A write that goes through is applied; one that raises may have been. -/
def AnswersWrite (w applied : World) (r : Except Failure Unit) (w' : World) : Prop :=
  match r with
  | .ok () => w' = applied
  | .error _ => w' = w ∨ w' = applied

theorem AnswersWrite.clock {w applied w' : World} {r : Except Failure Unit}
    (h : AnswersWrite w applied r w') (happlied : applied.clock = w.clock) :
    w'.clock = w.clock := by
  cases r with
  | ok _ => exact (congrArg World.clock h).trans happlied
  | error _ =>
    rcases h with rfl | rfl
    · rfl
    · exact happlied

/-- A read raises, or shows something that it may show. -/
def AnswersRead {α : Type} (w : World) (may : α → Prop) (r : Except Failure α) (w' : World) :
    Prop :=
  w' = w ∧ ∀ a, r = .ok a → may a

/-- The record is one that an index or a scan may show for a prefix of its key. -/
def Record.startsWith (start : String) (r : Record) : Bool := start.toList.isPrefixOf r.id.toList

/-- `op.Answers w r w'`: in the world `w`, the call may be answered `r`, leaving `w'`. What is read
from the tables may be out of date; a read of a pod shows whether it is there. -/
def Op.Answers : (op : Op) → World → op.Res → World → Prop
  | time, w, r, w' => w' = w ∧ r = w.clock.1
  | utcnow, w, r, w' => w' = w ∧ r = w.clock.1
  | remaining, w, _, w' => w' = w
  | query status, w, r, w' =>
    AnswersRead w (fun rs : List Record => ∀ x ∈ rs, x.status = status) r w'
  | scan start, w, r, w' =>
    AnswersRead w (fun rs : List Record => ∀ x ∈ rs, x.startsWith start = true) r w'
  | startingWith start user, w, r, w' =>
    AnswersRead w (fun rs : List Record => ∀ x ∈ rs, x.startsWith start = true ∧
      ∀ u ∈ user, x.user = u) r w'
  | usersOf user disk, w, r, w' =>
    AnswersRead w (fun rs : List Record => ∀ x ∈ rs, x.user = user ∧ x.diskName = disk ∧
      x.status ∈ liveStatuses) r w'
  | getItem id, w, r, w' =>
    AnswersRead w (fun item : Option Record => ∀ x ∈ item, x.id = id) r w'
  | update id change, w, r, w' => AnswersWrite w (w.update id change) r w'
  | readPod name, w, r, w' =>
    w' = w ∧ (∀ p, r = .ok p → w.pods.lookup name = some p) ∧
      (r = .error .notFound → w.pods.lookup name = none)
  | listPods, w, r, w' =>
    AnswersRead w (fun names : List String => ∀ name ∈ names, (w.pods.lookup name).isSome = true)
      r w'
  | deletePod name _, w, r, w' => AnswersWrite w { w with pods := w.pods.erase name } r w'
  | disksOf user, w, r, w' =>
    AnswersRead w (fun ds : List NamedDisk => ∀ d ∈ ds, d.1.1 = user) r w'
  | lockedDisks, w, r, w' =>
    AnswersRead w (fun ds : List NamedDisk => ∀ d ∈ ds, d.2.inUse = true) r w'
  | freeDisk user disk _, w, r, w' => AnswersWrite w (w.freeDisk user disk) r w'
  | pendingSnapshots volume, w, r, w' => AnswersRead w (· = w.pendingOf volume) r w'
  | createSnapshot volume user disk, w, r, w' =>
    match r with
    | .ok id => w.snapshots.lookup id = none ∧ w' = w.snapshot id volume user disk
    | .error _ => w' = w ∨
        ∃ id, w.snapshots.lookup id = none ∧ w' = w.snapshot id volume user disk
  | awaitSnapshot id, w, r, w' =>
    AnswersRead w (fun _ : Unit => ∃ s ∈ w.snapshots.lookup id, s.state = .completed) r w'
  | deleteVolume volume, w, r, w' =>
    AnswersWrite w { w with volumes := w.volumes.erase volume } r w'
  | describeVolume volume, w, r, w' => AnswersRead w (· = w.volumes.lookup volume) r w'
  | errand _, w, _, w' => w' = w
  | read _, w, _, w' => w' = w

/-- What may happen between two calls: time goes by, and everything else may change. -/
def Elapses (w w' : World) : Prop := w.clock.1 ≤ w'.clock.1

/-- The world after some seconds in which nothing else happens. -/
def World.after (w : World) (seconds : ℕ) : World :=
  { w with clock := ⟨w.clock.1 + seconds, add_nonneg w.clock.2 seconds.cast_nonneg⟩ }

theorem World.elapses_after (w : World) (seconds : ℕ) : Elapses w (w.after seconds) :=
  le_add_of_nonneg_right seconds.cast_nonneg

/-- What goes wrong in runs that are played. -/
structure Script where
  /-- Why the reads of a pod fail. -/
  podError : String → Option Failure
  /-- Why no snapshot can be requested. -/
  snapshotError : Option Failure
  /-- Why the wait for a snapshot is given up. -/
  waitError : Option Failure

/-- The script of a day on which nothing goes wrong. -/
def Script.fine : Script where
  podError _ := none
  snapshotError := none
  waitError := none

namespace World

/-- All records. -/
def allRecords (w : World) : List Record := w.records.entries.map (·.2)

/-- All disks. -/
def allDisks (w : World) : List NamedDisk := w.disks.entries.map fun e => (e.1, e.2)

end World

/-- Answer a call with the world as it is, but for what goes wrong. -/
def Script.serve (script : Script) : (op : Op) → World → op.Res × World
  | .time, w => (w.clock.1, w)
  | .utcnow, w => (w.clock.1, w)
  | .remaining, w => ((900000 : ℕ), w)
  | .query status, w => (.ok (w.allRecords.filter (·.status = status)), w)
  | .scan start, w => (.ok (w.allRecords.filter (·.startsWith start)), w)
  | .startingWith start user, w =>
    (.ok (w.allRecords.filter fun x => x.startsWith start && user.all (x.user = ·)), w)
  | .usersOf user disk, w =>
    (.ok (w.allRecords.filter fun x =>
      x.user = user && x.diskName = disk && liveStatuses.contains x.status), w)
  | .getItem id, w => (.ok ((w.records.lookup id).filter (·.id = id)), w)
  | .update id change, w => (.ok (), w.update id change)
  | .readPod name, w =>
    match script.podError name with
    | some e =>
      if e = .notFound ∧ w.pods.lookup name ≠ none then (.error (.error "timeout"), w)
      else (.error e, w)
    | none =>
      match w.pods.lookup name with
      | some p => (.ok p, w)
      | none => (.error .notFound, w)
  | .listPods, w => (.ok (w.pods.keys.filter fun name => (w.pods.lookup name).isSome), w)
  | .deletePod name _, w => (.ok (), { w with pods := w.pods.erase name })
  | .disksOf user, w => (.ok (w.allDisks.filter (·.1.1 = user)), w)
  | .lockedDisks, w => (.ok (w.allDisks.filter (·.2.inUse)), w)
  | .freeDisk user disk _, w => (.ok (), w.freeDisk user disk)
  | .pendingSnapshots volume, w => (.ok (w.pendingOf volume), w)
  | .createSnapshot volume user disk, w =>
    match script.snapshotError with
    | some e => (.error e, w)
    | none =>
      let id := "snap-" ++ toString w.snapshots.entries.length
      if w.snapshots.lookup id = none then (.ok id, w.snapshot id volume user disk)
      else (.error (.error "IdempotentParameterMismatch"), w)
  | .awaitSnapshot id, w =>
    match script.waitError with
    | some e => (.error e, w)
    | none =>
      if ∃ s ∈ w.snapshots.lookup id, s.state = .completed then (.ok (), w)
      else (.error (.error "Waiter SnapshotCompleted failed"), w)
  | .deleteVolume volume, w => (.ok (), { w with volumes := w.volumes.erase volume })
  | .describeVolume volume, w => (.ok (w.volumes.lookup volume), w)
  | .errand _, w => (.ok true, w)
  | .read _, w => (.ok "", w)

/-- A call takes no time: time goes by between calls. -/
theorem Op.Answers.clock {op : Op} {w w' : World} {r : op.Res} (h : op.Answers w r w') :
    w'.clock = w.clock := by
  cases op with
  | time => exact h.1 ▸ rfl
  | utcnow => exact h.1 ▸ rfl
  | readPod => exact h.1 ▸ rfl
  | createSnapshot volume user disk =>
    cases r with
    | ok id => exact h.2 ▸ rfl
    | error e =>
      rcases h with rfl | ⟨id, -, rfl⟩
      · rfl
      · rfl
  | remaining => exact congrArg World.clock h
  | errand => exact congrArg World.clock h
  | read => exact congrArg World.clock h
  | update => exact AnswersWrite.clock h rfl
  | deletePod => exact AnswersWrite.clock h rfl
  | freeDisk => exact AnswersWrite.clock h rfl
  | deleteVolume => exact AnswersWrite.clock h rfl
  | _ => exact congrArg World.clock h.1

/-- A call leaves a record as it is, or updates it. -/
theorem Op.Answers.record {op : Op} {w w' : World} {res : op.Res} (h : op.Answers w res w')
    (r : String) : w'.records.lookup r = w.records.lookup r ∨
      ∃ change, op = update r change ∧
        w'.records.lookup r = some (change.apply (w.recordOf r)) := by
  have hwrite : ∀ {applied : World} {res : Except Failure Unit},
      AnswersWrite w applied res w' → applied.records = w.records →
        w'.records.lookup r = w.records.lookup r := by
    intro applied res h happlied
    cases res with
    | ok _ => rw [show w' = applied from h, happlied]
    | error _ =>
      rcases h with rfl | rfl
      · rfl
      · rw [happlied]
  cases op with
  | update id change =>
    have happlied : w' = w ∨ w' = w.update id change := by
      cases res with
      | ok _ => exact Or.inr h
      | error _ => exact h
    rcases happlied with rfl | rfl
    · exact Or.inl rfl
    · by_cases hid : r = id
      · subst hid
        exact Or.inr ⟨change, rfl, w.lookup_update_self r change⟩
      · exact Or.inl (w.lookup_update_of_ne hid change)
  | time => exact Or.inl (by rw [h.1])
  | utcnow => exact Or.inl (by rw [h.1])
  | readPod => exact Or.inl (by rw [h.1])
  | createSnapshot volume user disk =>
    cases res with
    | ok id => exact Or.inl (by rw [h.2]; rfl)
    | error e =>
      rcases h with rfl | ⟨id, -, rfl⟩
      · exact Or.inl rfl
      · exact Or.inl rfl
  | remaining => exact Or.inl (by rw [show w' = w from h])
  | errand => exact Or.inl (by rw [show w' = w from h])
  | read => exact Or.inl (by rw [show w' = w from h])
  | deletePod => exact Or.inl (hwrite h rfl)
  | freeDisk => exact Or.inl (hwrite h rfl)
  | deleteVolume => exact Or.inl (hwrite h rfl)
  | _ => exact Or.inl (by rw [h.1])

theorem answersRead_ok {α : Type} {w : World} {may : α → Prop} {a : α} (h : may a) :
    AnswersRead w may (.ok a) w :=
  ⟨rfl, fun b hb => by cases hb; exact h⟩

theorem answersRead_error {α : Type} (w : World) (may : α → Prop) (e : Failure) :
    AnswersRead w may (.error e) w :=
  ⟨rfl, fun _ h => nomatch h⟩

/-- Played runs are answered as calls are. -/
theorem Script.answers_serve (script : Script) (op : Op) (w : World) :
    op.Answers w (script.serve op w).1 (script.serve op w).2 := by
  cases op with
  | time => exact ⟨rfl, rfl⟩
  | utcnow => exact ⟨rfl, rfl⟩
  | readPod name =>
    unfold serve
    dsimp only
    split
    · split
      · exact ⟨rfl, fun _ h => (nomatch h), fun h => (nomatch h)⟩
      · rename_i e _ hmissing
        refine ⟨rfl, fun _ h => (nomatch h), fun h => ?_⟩
        cases h
        simpa using hmissing
    · split
      · exact ⟨rfl, fun p h => by cases h; assumption, fun h => (nomatch h)⟩
      · exact ⟨rfl, fun _ h => (nomatch h), fun _ => by assumption⟩
  | query status => exact answersRead_ok fun x hx => by simpa using (List.mem_filter.mp hx).2
  | scan start => exact answersRead_ok fun x hx => (List.mem_filter.mp hx).2
  | startingWith start user =>
    refine answersRead_ok fun x hx => ?_
    have h := (List.mem_filter.mp hx).2
    cases user <;> simpa using h
  | usersOf user disk =>
    refine answersRead_ok fun x hx => ?_
    have h := (List.mem_filter.mp hx).2
    simpa [and_assoc] using h
  | getItem id =>
    refine answersRead_ok fun x hx => ?_
    simpa using (Option.filter_eq_some_iff.mp hx).2
  | listPods => exact answersRead_ok fun name hname => (List.mem_filter.mp hname).2
  | disksOf user => exact answersRead_ok fun d hd => by simpa using (List.mem_filter.mp hd).2
  | lockedDisks => exact answersRead_ok fun d hd => (List.mem_filter.mp hd).2
  | createSnapshot volume user disk =>
    unfold serve
    dsimp only
    split
    · exact Or.inl rfl
    · split
      · exact ⟨‹_›, rfl⟩
      · exact Or.inl rfl
  | awaitSnapshot id =>
    unfold serve
    dsimp only
    split
    · exact answersRead_error _ _ _
    · split
      · exact answersRead_ok ‹_›
      · exact answersRead_error _ _ _
  | pendingSnapshots volume => exact answersRead_ok rfl
  | describeVolume volume => exact answersRead_ok rfl
  | _ => exact rfl

/-! ### Programs -/

/-- What runs in the Lambdas. -/
abbrev Lambda := Fallible Op Op.Res Failure

def time : Lambda ℚ := request .time .ok

def utcnow : Lambda ℚ := request .utcnow .ok

def remaining : Lambda ℕ := request .remaining .ok

def query (status : String) : Lambda (List Record) := request (.query status) id

def scan (start : String) : Lambda (List Record) := request (.scan start) id

def startingWith (start : String) (user : Option String) : Lambda (List Record) :=
  request (.startingWith start user) id

def usersOf (user disk : String) : Lambda (List Record) := request (.usersOf user disk) id

def getItem (reservationId : String) : Lambda (Option Record) := request (.getItem reservationId) id

def update (reservationId : String) (change : Change) : Lambda Unit :=
  request (.update reservationId change) id

def readPod (name : String) : Lambda Pod := request (.readPod name) id

def listPods : Lambda (List String) := request .listPods id

def deletePod (name : String) (gracePeriodSeconds : ℕ) : Lambda Unit :=
  request (.deletePod name gracePeriodSeconds) id

def disksOf (user : String) : Lambda (List NamedDisk) := request (.disksOf user) id

def lockedDisks : Lambda (List NamedDisk) := request .lockedDisks id

def freeDisk (user disk : String) (onBehalfOf : Option String) : Lambda Unit :=
  request (.freeDisk user disk onBehalfOf) id

def pendingSnapshots (volume : String) : Lambda (List (String × Snapshot)) :=
  request (.pendingSnapshots volume) id

def createSnapshot (volume user disk : String) : Lambda String :=
  request (.createSnapshot volume user disk) id

def awaitSnapshot (snapshotId : String) : Lambda Unit := request (.awaitSnapshot snapshotId) id

def deleteVolume (volume : String) : Lambda Unit := request (.deleteVolume volume) id

def describeVolume (volume : String) : Lambda (Option Volume) :=
  request (.describeVolume volume) id

/-- Do something outside, which may raise. -/
def errand (what : Errand) : Lambda Unit := request (.errand what) fun r => r.map fun _ => ()

def read (what : Errand) : Lambda String := request (.read what) id

end CiInfra.GpuDev.Lifecycle

import CiInfra.GpuDev.ExpirySafety

/-!
# Snapshots before takedowns

Before the pod of a reservation is taken down, a snapshot of its volume is requested, or one that
is in progress already is taken for it; the volume is deleted when that snapshot is complete. The
next restore of the disk takes the latest snapshot that bears its name. What goes wrong with the
snapshot does not keep the pod from being deleted.
-/

namespace CiInfra.GpuDev.Lifecycle

open Interaction Fallible

/-! ### Volumes and snapshots over time -/

/-- What becomes of a snapshot: it stays a snapshot of what it was requested for, and once complete
it is complete. -/
structure Snapshot.Becomes (s s' : Snapshot) : Prop where
  volume : s'.volume = s.volume
  captured : s'.captured = s.captured
  startTime : s'.startTime = s.startTime
  completed : s.state = .completed → s'.state = .completed

/-- Whatever else happens, time goes by, volumes are only written to and snapshots do not change
their contents; all of them may vanish. -/
structure Endures (w w' : World) : Prop where
  clock : w.clock.1 ≤ w'.clock.1
  writes : ∀ V v v', w.volumes.lookup V = some v → w'.volumes.lookup V = some v' →
    v.writes ≤ v'.writes
  snapshots : ∀ id s s', w.snapshots.lookup id = some s → w'.snapshots.lookup id = some s' →
    s.Becomes s'

theorem Snapshot.Becomes.refl (s : Snapshot) : s.Becomes s := ⟨rfl, rfl, rfl, id⟩

theorem Snapshot.Becomes.trans {s s' s'' : Snapshot} (h : s.Becomes s') (h' : s'.Becomes s'') :
    s.Becomes s'' :=
  ⟨h'.volume.trans h.volume, h'.captured.trans h.captured, h'.startTime.trans h.startTime,
    fun hs => h'.completed (h.completed hs)⟩

theorem Endures.of_eq {w w' : World} (hclock : w'.clock = w.clock)
    (hvolumes : ∀ V v, w'.volumes.lookup V = some v → w.volumes.lookup V = some v)
    (hsnapshots : ∀ id s, w.snapshots.lookup id = some s → w'.snapshots.lookup id = some s) :
    Endures w w' where
  clock := by rw [hclock]
  writes V v v' hv hv' := by
    obtain rfl := Option.some.inj (hv.symm.trans (hvolumes V v' hv'))
    exact le_rfl
  snapshots id s s' hs hs' := by
    obtain rfl := Option.some.inj ((hsnapshots id s hs).symm.trans hs')
    exact .refl s

theorem Endures.refl (w : World) : Endures w w := .of_eq rfl (fun _ _ h => h) fun _ _ h => h

/-- The snapshots that are there stay as they are when another one is requested. -/
theorem World.endures_snapshot {w : World} {id : String} (hid : w.snapshots.lookup id = none)
    (volume user disk : String) : Endures w (w.snapshot id volume user disk) := by
  refine .of_eq rfl (fun _ _ h => h) fun other s hs => ?_
  have hne : other ≠ id := by
    rintro rfl
    rw [hid] at hs
    cases hs
  simpa [World.snapshot, AList.lookup_insert_ne hne] using hs

/-- Calls let volumes and snapshots endure. -/
theorem Op.Answers.endures {op : Op} {w w' : World} {res : op.Res} (h : op.Answers w res w') :
    Endures w w' := by
  have hsame : w' = w → Endures w w' := fun heq => heq ▸ .refl w
  have hwrite : ∀ {applied : World} {res : Except Failure Unit}, AnswersWrite w applied res w' →
      Endures w applied → Endures w w' := by
    intro applied res h happlied
    cases res with
    | ok _ => exact (show w' = applied from h) ▸ happlied
    | error _ => exact h.elim hsame fun heq => heq ▸ happlied
  cases op with
  | time => exact hsame h.1
  | utcnow => exact hsame h.1
  | readPod => exact hsame h.1
  | remaining => exact hsame h
  | errand => exact hsame h
  | read => exact hsame h
  | update => exact hwrite h (.of_eq rfl (fun _ _ h => h) fun _ _ h => h)
  | deletePod => exact hwrite h (.of_eq rfl (fun _ _ h => h) fun _ _ h => h)
  | freeDisk => exact hwrite h (.of_eq rfl (fun _ _ h => h) fun _ _ h => h)
  | deleteVolume volume =>
    refine hwrite h (.of_eq rfl (fun V v hv => ?_) fun _ _ h => h)
    by_cases hV : V = volume
    · subst hV
      simp [AList.lookup_erase] at hv
    · rwa [AList.lookup_erase_ne hV] at hv
  | createSnapshot volume user disk =>
    cases res with
    | ok id => exact h.2 ▸ World.endures_snapshot h.1 volume user disk
    | error _ =>
      rcases h with heq | ⟨id, hid, rfl⟩
      · exact hsame heq
      · exact World.endures_snapshot hid volume user disk
  | _ => exact hsame h.1

namespace World

/-- How often a volume has been written. -/
def writesOf (w : World) (V : String) : Option ℕ := (w.volumes.lookup V).map Volume.writes

end World

/-- The snapshot is one of the disk of a user; a disk without a name is looked for among all
snapshots of the user. -/
def Snapshot.isOf (user disk : String) (s : Snapshot) : Bool :=
  s.user = user && (disk = "" || s.diskTag = disk)

/-- A restore may use the snapshot, or waits for it. -/
def Snapshot.isUsable (s : Snapshot) : Bool := s.state ≠ .error && !s.deleteDate

/-- The snapshots from which `create_disk_from_snapshot_or_empty` chooses: while one is pending it
waits. -/
def World.restorable (w : World) (user disk : String) : List (String × Snapshot) :=
  (w.snapshots.entries.map fun e => (e.1, e.2)).filter fun s => s.2.isOf user disk && s.2.isUsable

theorem World.mem_snapshots {w : World} {s : String × Snapshot} :
    s ∈ w.snapshots.entries.map (fun e => (e.1, e.2)) ↔ w.snapshots.lookup s.1 = some s.2 := by
  rw [← Option.mem_def, AList.mem_lookup_iff, List.mem_map]
  exact ⟨fun ⟨_, h, heq⟩ => heq ▸ h, fun h => ⟨_, h, rfl⟩⟩

/-- The snapshot that the next restore of a disk takes: the latest. -/
def World.nextRestore (w : World) (user disk : String) : Option String :=
  ((w.restorable user disk).argmax fun s => s.2.startTime).map Prod.fst

/-! ### Runs that take a pod down -/

/-- One run of `cleanup_pod` for a record, or of the handler of a cancellation. -/
inductive Teardown
  | cleanup (podName : String) (reservation : Record)
  | cancel (reservationId user : String)

/-- The program of a run. -/
def Teardown.program (cfg : Settings) : Teardown → Program Op Op.Res Unit
  | cleanup podName reservation => (cleanupPod cfg podName reservation).toEnd
  | cancel reservationId user => (processCancellationRequest reservationId user).toEnd

/-- The record that a run has looked up. -/
def lookedUp : List (Program.Event Op Op.Res) → Option Record
  | ⟨.startingWith _ _, .ok [x]⟩ :: _ => some x
  | ⟨.getItem _, .ok (some x)⟩ :: _ => some x
  | _ :: past => lookedUp past
  | [] => none

/-- The reservation whose pod is taken down and the name of the pod, after some calls. -/
def Teardown.target (past : List (Program.Event Op Op.Res)) : Teardown → Option (Record × String)
  | cleanup podName reservation => some (reservation, podName)
  | cancel _ _ => (lookedUp past).map fun x => (x, x.podName)

/-- The user and the volume, as far as the pod shows them. -/
def Record.storageWith (x : Record) (pod : Pod) : String × String :=
  (if pod.userLabel ≠ "" then pod.userLabel else x.user,
    if pod.volume ≠ "" then pod.volume else x.ebsVolumeId)

/-- The user of a reservation and its persistent volume: those of the record, or else those of the
pod. -/
def Record.storageIn (x : Record) (podName : String) (w : World) : String × String :=
  if x.user ≠ "" ∧ x.ebsVolumeId ≠ "" then (x.user, x.ebsVolumeId)
  else match w.pods.lookup podName with
    | some pod => x.storageWith pod
    | none => (x.user, x.ebsVolumeId)

/-- The snapshot of a volume that a call gives: a new one, or the latest one in progress. -/
def Op.gives (V : String) : (op : Op) → op.Res → Option String
  | createSnapshot v _ _, .ok id => if v = V then some id else none
  | pendingSnapshots v, .ok xs =>
    if v = V then (xs.argmax fun s => s.2.startTime).map Prod.fst else none
  | _, _ => none

/-- The call deletes a pod, or the volume. -/
def Op.takesDown (V : String) : Op → Bool
  | deletePod _ _ => true
  | deleteVolume v => v = V
  | _ => false

def Op.deletesVolume : Op → Bool
  | deleteVolume _ => true
  | _ => false

/-- The call requests a snapshot of the volume. -/
def Op.requests (V : String) : Op → Bool
  | createSnapshot v _ _ => v = V
  | _ => false

/-! ### Takedowns in a history -/

section Takedowns

variable {ι : Type} [DecidableEq ι] (job : ι → Teardown)

/-- The calls of a run, the latest first. -/
def callsOf (i : ι) (past : List (Occurrence ι)) : List (Program.Event Op Op.Res) :=
  past.filterMap (Happening.callOf i)

/-- What a run finds when it begins. -/
def began (i : ι) : List (Occurrence ι) → Option World
  | [] => none
  | e :: past => (began i past).or (if (e.callOf i).isSome then some e.before else none)

/-- The deletion of a pod, or of a volume, for a reservation with a persistent volume. -/
structure Takedown (ι : Type) where
  run : ι
  ofVolume : Bool
  user : String
  disk : String
  volume : String
  /-- How often the volume had been written when the run began. -/
  written : ℕ

/-- The deletion of the pod of a reservation whose volume is there when the run begins, or of this
volume. -/
def takedownAt (past : List (Occurrence ι)) (e : Occurrence ι) : Option (Takedown ι) :=
  e.call.bind fun c =>
    ((job c.1).target (callsOf c.1 past)).bind fun t =>
      let storage := t.1.storageIn t.2 e.before
      ((began c.1 past).bind fun w => w.writesOf storage.2).bind fun written =>
        if c.2.1.takesDown storage.2 then
          some ⟨c.1, c.2.1.deletesVolume, storage.1, t.1.diskName, storage.2, written⟩
        else none

/-- The next restore of the disk takes a snapshot of the volume that holds all that had been written
when the run began. Before the volume is deleted, it is complete. -/
def Takedown.isSaved (t : Takedown ι) (w : World) : Prop :=
  ∃ id ∈ w.nextRestore t.user t.disk, ∃ s ∈ w.snapshots.lookup id,
    s.volume = t.volume ∧ t.written ≤ s.captured ∧ (t.ofVolume = true → s.state = .completed)

instance (t : Takedown ι) (w : World) : Decidable (t.isSaved w) :=
  inferInstanceAs (Decidable (∃ id ∈ w.nextRestore t.user t.disk, _))

/-- Nothing is taken down before it is saved. -/
def savesFirst (past : List (Occurrence ι)) (e : Occurrence ι) : Prop :=
  ∀ t ∈ takedownAt job past e, t.isSaved e.before

instance (past : List (Occurrence ι)) (e : Occurrence ι) : Decidable (savesFirst job past e) :=
  inferInstanceAs (Decidable (∀ t ∈ takedownAt job past e, _))

/-- The snapshots of a volume that a run is given. -/
def givenTo (i : ι) (V : String) (e : Occurrence ι) : List String :=
  ((e.callOf i).bind fun c => c.1.gives V c.2).toList

/-- The snapshot in progress that a run is given. -/
def Op.reuses (V : String) : (op : Op) → op.Res → Option Snapshot
  | pendingSnapshots v, .ok xs =>
    if v = V then (xs.argmax fun s => s.2.startTime).map Prod.snd else none
  | _, _ => none

/-- The pods that a run reads. -/
def podsRead (i : ι) (e : Occurrence ι) : List (String × Pod) :=
  match e.callOf i with
  | some ⟨.readPod name, .ok pod⟩ => [(name, pod)]
  | _ => []

/-- A run that requests a snapshot does so while the volume has stayed since it began. -/
def requestsInTime (i : ι) (V : String) (past : List (Occurrence ι)) (e : Occurrence ι) : Prop :=
  ∀ c ∈ e.callOf i, c.1.requests V = true →
    StaysTrue (fun d => ((d.callOf i).map fun _ => ()).toList)
      (fun _ w => (w.writesOf V).isSome = true) past

/-- The run has been given a snapshot that will do: a new one of the volume, or one in progress
that was requested after all that had been written when the run began; it has stayed a usable
snapshot of the disk, and no other one of the disk has started as late. -/
structure Takedown.HasSnapshot (t : Takedown ι) (past : List (Occurrence ι)) (w : World) :
    Prop where
  given : ∃ d ∈ past, givenTo t.run t.volume d ≠ []
  reused : ∀ d ∈ past, ∀ c ∈ d.callOf t.run, ∀ s ∈ c.1.reuses t.volume c.2,
    t.written ≤ s.captured ∧ s.isOf t.user t.disk = true ∧ s.isUsable = true
  inTime : Throughout (requestsInTime t.run t.volume) past
  stays : NeverEnds (givenTo t.run t.volume) (fun id w => ∃ s ∈ w.snapshots.lookup id,
    s.isOf t.user t.disk = true ∧ s.isUsable = true) past
  latest : ∀ d ∈ past, ∀ id ∈ givenTo t.run t.volume d, ∀ s ∈ w.snapshots.lookup id,
    ∀ other ∈ w.restorable t.user t.disk, other.1 ≠ id → other.2.startTime < s.startTime
  pods : StaysTrue (podsRead t.run) (fun p w => w.pods.lookup p.1 = some p.2) past

/-- A volume is deleted after the run has been given a snapshot of it and has seen it complete. -/
def Takedown.IsAwaited (t : Takedown ι) (past : List (Occurrence ι)) : Prop :=
  ∃ id, (∃ d ∈ past, id ∈ givenTo t.run t.volume d) ∧
    ∃ d ∈ past, ∃ s ∈ d.before.snapshots.lookup id, s.state = .completed

/-- What a run with a snapshot that will do takes down is saved, and no run deletes a volume
without one that is complete. -/
def savesWhatItCan (past : List (Occurrence ι)) (e : Occurrence ι) : Prop :=
  ∀ t ∈ takedownAt job past e, (t.HasSnapshot past e.before → t.isSaved e.before) ∧
    (t.ofVolume = true → t.IsAwaited past)

end Takedowns

/-! ### What a run has done before -/

/-- The call looks nothing up, requests no snapshot and deletes no volume. -/
def Op.isPlain : Op → Bool
  | createSnapshot _ _ _ | deleteVolume _ | getItem _ | startingWith _ _ => false
  | _ => true

/-- The user and the volume are those of the record, or those of the pod as it has been read. -/
def Record.hasStorage (x : Record) (podName : String) (past : List (Program.Event Op Op.Res))
    (storage : String × String) : Prop :=
  if x.user ≠ "" ∧ x.ebsVolumeId ≠ "" then storage = (x.user, x.ebsVolumeId)
  else ∃ pod, ⟨.readPod podName, .ok pod⟩ ∈ past ∧ storage = x.storageWith pod

/-- A snapshot of the volume has been given, and then waited for. -/
def hasAwaited (v id : String) (past : List (Program.Event Op Op.Res)) : Prop :=
  ∃ since before, past = since ++ ⟨.awaitSnapshot id, .ok ()⟩ :: before ∧
    ∃ c ∈ before, c.1.gives v c.2 = some id

/-- A snapshot is requested for the reservation that is taken down, of its volume and in the name
of its user and its disk; a volume is deleted when a snapshot of it has been waited for; nothing is
looked up after the request. -/
def Teardown.Minds (t : Teardown) (past : List (Program.Event Op Op.Res)) : Op → Prop
  | .createSnapshot v user disk => ∃ x podName, t.target past = some (x, podName) ∧
      (x.diskName = "" ∨ disk = x.diskName) ∧ x.hasStorage podName past (user, v)
  | .deleteVolume v => ∃ id, hasAwaited v id past
  | .getItem _ | .startingWith _ _ => ∀ c ∈ past, ∀ v user disk, c.1 ≠ .createSnapshot v user disk
  | _ => True

section Run

variable {t : Teardown} {cfg : Settings} {x : Record} {podName : String}
  {past : List (Program.Event Op Op.Res)} {K : List (Program.Event Op Op.Res) → Prop}

theorem minds_plain {op : Op} (h : op.isPlain = true) : t.Minds past op := by
  cases op <;> trivial

theorem issues_plain {α : Type} {op : Op} {answer : op.Res → Except Failure α}
    (h : op.isPlain = true) :
    (request op answer : Lambda α).Issues fun op => op.isPlain = true := issues_request h

/-- What plain calls do not change. -/
def Stable (K : List (Program.Event Op Op.Res) → Prop) : Prop :=
  ∀ past op r, K past → op.isPlain = true → K (⟨op, r⟩ :: past)

theorem stable_true : Stable fun _ => True := fun _ _ _ _ _ => trivial

theorem stable_exists (A : Program.Event Op Op.Res → Prop) : Stable fun past => ∃ c ∈ past, A c :=
  fun _ _ _ h _ => h.imp fun _ hc => ⟨List.mem_cons_of_mem _ hc.1, hc.2⟩

theorem stable_hasAwaited (v id : String) : Stable (hasAwaited v id) := by
  rintro _ op r ⟨since, before, rfl, h⟩ _
  exact ⟨⟨op, r⟩ :: since, before, rfl, h⟩

theorem stable_lookedUp (x : Record) : Stable fun past => lookedUp past = some x :=
  fun _ op _ h hop => by cases op <;> first | exact h | cases hop

theorem stable_hasStorage (storage : String × String) :
    Stable fun past => x.hasStorage podName past storage := by
  intro past op r h _
  unfold Record.hasStorage at h ⊢
  split
  · rwa [if_pos ‹_›] at h
  · rw [if_neg ‹_›] at h
    obtain ⟨pod, hpod, hstorage⟩ := h
    exact ⟨pod, List.mem_cons_of_mem _ hpod, hstorage⟩

theorem Stable.heeds {α : Type} {p : Lambda α} (hK : Stable K)
    (h : p.Issues fun op => op.isPlain = true) (hpast : K past) :
    p.Heeds t.Minds (fun past _ => K past) (fun past _ => K past) past :=
  Issues.heeds h (fun _ _ _ hop => minds_plain hop) (fun past op r hpast hop =>
    hK past op r hpast hop) hpast

/-- The storage is known from the record, or from the pod. -/
theorem heeds_storageOf :
    (storageOf podName x).Heeds t.Minds
      (fun past storage => storage.1 ≠ "" ∧ storage.2 ≠ "" → x.hasStorage podName past storage)
      (fun _ _ => True) past := by
  unfold storageOf Record.hasStorage
  dsimp only
  split
  · exact heeds_pure fun _ => rfl
  · rename_i hknown
    refine Heeds.orElseGive (E := fun _ _ => True) ?_ fun _ _ _ h => (hknown h).elim
    refine Heeds.bind (Q := fun past pod => ⟨.readPod podName, .ok pod⟩ ∈ past)
      (heeds_request (minds_plain rfl) (fun r pod hr => by cases hr; exact List.mem_cons_self)
        fun _ _ _ => trivial) fun past pod hpod => heeds_pure fun _ => ⟨pod, hpod, rfl⟩

/-- The disk is that of the record, if that names one. -/
theorem heeds_diskNameOf (hK : Stable K) (volume : String) (hpast : K past) :
    (diskNameOf volume x).Heeds t.Minds
      (fun past disk => K past ∧ (x.diskName = "" ∨ disk = x.diskName)) (fun _ _ => True) past := by
  unfold diskNameOf
  split
  · refine (hK.heeds (Issues.orElseGive ((issues_plain rfl).bind fun _ => issues_pure _) _)
      hpast).mono (fun _ _ h => ⟨h, Or.inl (And.right ‹_›)⟩) fun _ _ _ => trivial
  · exact heeds_pure ⟨hpast, Or.inr rfl⟩

/-- A snapshot that is returned has been given by a call. -/
theorem heeds_safeCreateSnapshot {volume user disk : String} (hK : Stable K)
    (hcreate : ∀ past, K past → t.Minds past (.createSnapshot volume user disk)) (hpast : K past) :
    (safeCreateSnapshot volume user disk).Heeds t.Minds
      (fun past r => ∀ id, r = some id → ∃ c ∈ past, c.1.gives volume c.2 = some id)
      (fun _ _ => True) past := by
  refine Heeds.orElseGive (E := fun _ _ => True) ?_ fun _ _ _ id h => nomatch h
  refine Heeds.bind
    (Q := fun past ongoing => K past ∧ ⟨.pendingSnapshots volume, .ok ongoing⟩ ∈ past)
    (heeds_request (minds_plain rfl)
      (fun r ongoing hr => by
        cases hr
        exact ⟨hK _ _ _ hpast rfl, List.mem_cons_self⟩) fun _ _ _ => trivial)
    fun past ongoing hongoing => ?_
  split
  · rename_i latest hlatest
    refine heeds_pure fun id hid => ⟨_, hongoing.2, ?_⟩
    cases hid
    simp [Op.gives, hlatest]
  · refine Heeds.bind (Q := fun past id => ∃ c ∈ past, c.1.gives volume c.2 = some id)
      (heeds_request (hcreate past hongoing.1)
        (fun r id hr => by
          cases hr
          exact ⟨_, List.mem_cons_self, by simp [Op.gives]⟩) fun _ _ _ => trivial)
      fun past id hid => Heeds.bind (Q := fun past _ => ∃ c ∈ past, c.1.gives volume c.2 = some id)
        (((stable_exists _).heeds (Issues.whenever _ (Issues.logged (issues_plain rfl)))
          hid).mono (fun _ _ h => h) fun _ _ _ => trivial)
        fun past _ h => heeds_pure fun id' hid' => by cases hid'; exact h

/-- A volume is deleted when its snapshot has been waited for. -/
theorem heeds_retireVolume {snapshotId volume user disk : String}
    (hpast : ∃ c ∈ past, c.1.gives volume c.2 = some snapshotId) :
    (retireVolume snapshotId volume user disk x).Heeds t.Minds (fun _ _ => True) (fun _ _ => True)
      past := by
  have hstable : Stable (hasAwaited volume snapshotId) := stable_hasAwaited _ _
  refine Heeds.bind (Q := fun past _ => hasAwaited volume snapshotId past)
    (heeds_request (minds_plain rfl)
      (fun r _ hr => by
        cases hr
        exact ⟨[], past, rfl, hpast⟩) fun _ _ _ => trivial)
    fun past _ h => ?_
  refine Heeds.bind ((hstable.heeds (Issues.whenever _ (Issues.logged (issues_plain rfl)))
    h).mono (fun _ _ h => h) fun _ _ _ => trivial) fun past _ h => ?_
  refine Heeds.logged (K := fun _ => True) (Heeds.bind (Q := fun _ _ => True)
    (heeds_request ⟨snapshotId, h⟩ (fun _ _ _ => trivial) fun _ _ _ => trivial) fun past _ _ => ?_)
  exact stable_true.heeds (Issues.whenever _ (Issues.logged (issues_plain rfl))) trivial

/-- The snapshot before a pod is deleted is requested for its reservation. -/
theorem heeds_shutdownSnapshot (ht : ∀ past, t.target past = some (x, podName)) :
    (shutdownSnapshot podName x).Heeds t.Minds (fun _ _ => True) (fun _ _ => True) past := by
  refine Heeds.logged (K := fun _ => True) (heeds_storageOf.bind fun past storage hstorage => ?_)
  obtain ⟨user, volume⟩ := storage
  have hK : Stable fun past => user ≠ "" ∧ volume ≠ "" → x.hasStorage podName past (user, volume) :=
    fun past op r h hop hne => stable_hasStorage _ past op r (h hne) hop
  refine (heeds_diskNameOf hK volume hstorage).bind fun past disk hdisk =>
    Heeds.whenever (K := fun _ => True) trivial fun hne => ?_
  simp only [Bool.and_eq_true, decide_eq_true_eq] at hne
  have hstable : Stable fun past => x.hasStorage podName past (user, volume) := stable_hasStorage _
  refine Heeds.bind ((hstable.heeds (Issues.whenever _ (Issues.logged (issues_plain rfl)))
    (hdisk.1 hne)).mono (fun _ _ h => h) fun _ _ _ => trivial) fun past _ hpast => ?_
  refine (heeds_safeCreateSnapshot hstable
    (fun past h => ⟨x, podName, ht past, hdisk.2, h⟩) hpast).bind fun past snapshotId hgiven => ?_
  cases snapshotId with
  | none => exact heeds_pure trivial
  | some snapshotId =>
    exact Heeds.logged (K := fun _ => True) (heeds_retireVolume (hgiven snapshotId rfl))

theorem issues_releaseDisk : (releaseDisk x).Issues fun op => op.isPlain = true := by
  refine Issues.bind ?_ fun _ => Issues.whenever _ (Issues.logged (issues_plain rfl))
  unfold diskOf
  split
  · exact Issues.orElseGive ((issues_plain rfl).bind fun _ => issues_pure _) _
  · exact issues_pure _

theorem issues_deletePodOrForce (podName : String) :
    (deletePodOrForce podName).Issues fun op => op.isPlain = true :=
  (issues_plain rfl).tryCatch fun e => by
    cases e <;> first | exact issues_plain rfl | trivial

theorem heeds_cleanupPod (ht : ∀ past, t.target past = some (x, podName)) :
    (cleanupPod cfg podName x).Heeds t.Minds (fun _ _ => True) (fun _ _ => True) past := by
  refine Heeds.tryCatch (E := fun _ _ => True) ?_ fun past _ _ =>
    stable_true.heeds (issues_releaseDisk.bind fun _ => issues_throw _) trivial
  refine (stable_true.heeds (Issues.whenever _ ((issues_plain rfl).bind fun _ => issues_plain rfl))
    trivial).bind fun _ _ _ => ?_
  refine (stable_true.heeds (Issues.whenever _ (Issues.logged (issues_plain rfl)))
    trivial).bind fun _ _ _ => ?_
  refine (stable_true.heeds (issues_plain rfl) trivial).bind fun _ _ _ =>
    (heeds_shutdownSnapshot ht).bind fun _ _ _ => ?_
  exact stable_true.heeds ((Issues.logged (issues_plain rfl)).bind fun _ =>
    (issues_deletePodOrForce podName).bind fun _ =>
    (Issues.logged (issues_plain rfl)).bind fun _ => issues_releaseDisk) trivial

/-! ### Cancellations -/

/-- Nothing has been looked up. -/
theorem heeds_findExactly {id user reservationId message : String}
    (hpast : past = []) :
    (findExactly reservationId user).Heeds (Teardown.cancel id message).Minds
      (fun past r => (∀ c ∈ past, ∀ v u d, c.1 ≠ .createSnapshot v u d) ∧
        ∀ y, r = some y → lookedUp past = some y) (fun _ _ => True) past := by
  subst hpast
  unfold findExactly
  split
  · refine Heeds.orElseGive (E := fun past _ => ∀ c ∈ past, ∀ v u d, c.1 ≠ .createSnapshot v u d) ?_
      fun past _ h => ⟨h, fun _ hy => nomatch hy⟩
    refine Heeds.bind (Q := fun past item => past = [⟨.getItem reservationId, .ok item⟩])
      (heeds_request (fun c hc => nomatch hc) (fun r item hr => by cases hr; rfl)
        fun r e _ c hc => by simp_all) fun past item hitem => heeds_pure ?_
    subst hitem
    refine ⟨by simp, fun y hy => ?_⟩
    obtain ⟨rfl, -⟩ := Option.filter_eq_some_iff.mp hy
    rfl
  · exact heeds_pure ⟨by simp, fun _ hy => nomatch hy⟩

/-- What is found is what has been looked up last. -/
theorem heeds_lookUpReservation {id user reservationId message : String} :
    (lookUpReservation reservationId user).Heeds (Teardown.cancel id message).Minds
      (fun past r => ∀ y, r = .ok y → lookedUp past = some y) (fun _ _ => True) [] := by
  refine Heeds.tryCatch (E := fun _ _ => True)
    (Heeds.bind (Q := fun past y => lookedUp past = some y)
    ?_ fun past y hy => heeds_pure fun z hz => by cases hz; exact hy) fun past e _ => ?_
  · refine (heeds_findExactly rfl).bind fun past found hfound => ?_
    cases found with
    | some item => exact heeds_pure (hfound.2 item rfl)
    | none =>
      refine Heeds.bind (Q := fun past xs => ∃ start u before,
          past = ⟨.startingWith start u, .ok xs⟩ :: before)
        (heeds_request hfound.1 (fun r xs hr => by cases hr; exact ⟨_, _, _, rfl⟩)
          fun _ _ _ => trivial) fun past xs hxs => ?_
      obtain ⟨start, u, before, rfl⟩ := hxs
      match xs with
      | [] => exact heeds_throw trivial
      | [y] => exact heeds_pure rfl
      | _ :: _ :: _ => exact heeds_throw trivial
  · cases e <;> exact heeds_pure fun _ h => nomatch h

theorem heeds_cancelReservation {id user message : String} (hpast : lookedUp past = some x) :
    (cancelReservation x user).Heeds (Teardown.cancel id message).Minds (fun _ _ => True)
      (fun _ _ => True) past := by
  have hx : Stable fun past => lookedUp past = some x := stable_lookedUp x
  have hany : ∀ {α : Type} {p : Lambda α} {past}, p.Issues (fun op => op.isPlain = true) →
      p.Heeds (Teardown.cancel id message).Minds (fun _ _ => True) (fun _ _ => True) past :=
    fun h => stable_true.heeds h trivial
  refine Heeds.bind ((hx.heeds (Issues.logged (issues_plain rfl)) hpast).mono (fun _ _ h => h)
    fun _ _ _ => trivial) fun past _ hpast => ?_
  refine Heeds.bind ((hx.heeds (issues_plain rfl) hpast).mono (fun _ _ h => h)
    fun _ _ _ => trivial) fun past now hpast => ?_
  refine Heeds.bind ((hx.heeds (Issues.logged (issues_plain rfl)) hpast).mono (fun _ _ h => h)
    fun _ _ _ => trivial) fun past _ hpast => ?_
  refine Heeds.bind (Q := fun _ _ => True) ?_ fun past _ _ =>
    hany ((Issues.whenever _ (Issues.logged (issues_plain rfl))).bind fun _ =>
      Issues.whenever _ (Issues.logged (issues_plain rfl)))
  refine Heeds.whenever (K := fun _ => True) trivial fun hactive => ?_
  simp only [Bool.and_eq_true, decide_eq_true_eq] at hactive
  refine Heeds.bind (Q := fun _ _ => True) (Heeds.logged (K := fun _ => True) ?_) fun past _ _ =>
    hany (Issues.whenever _ (Issues.logged (issues_plain rfl)))
  refine Heeds.bind (Q := fun _ _ => True) ?_ fun past _ _ => hany (Issues.bind ?_ fun _ =>
    Issues.whenever _ (Issues.logged (issues_plain rfl)))
  · refine Heeds.whenever (K := fun _ => True) trivial fun hvolume => ?_
    rw [decide_eq_true_eq] at hvolume
    refine Heeds.bind ((hx.heeds (Issues.whenever _ (Issues.logged (issues_plain rfl)))
      hpast).mono (fun _ _ h => h) fun _ _ _ => trivial) fun past _ hpast => ?_
    refine (heeds_safeCreateSnapshot hx (fun past h => ⟨x, x.podName, ?_, Or.inr rfl, ?_⟩)
      hpast).bind fun _ _ _ => heeds_pure trivial
    · simp [Teardown.target, h]
    · exact (if_pos ⟨hactive.2, hvolume⟩).mpr rfl
  · exact (issues_plain rfl).bind fun _ => (Issues.tryCatch (issues_plain rfl) fun e => by
      cases e <;> trivial).bind fun _ => issues_deletePodOrForce _

/-- Every run minds what it has done before. -/
theorem Teardown.minds (cfg : Settings) (t : Teardown) :
    (t.program cfg).Heeds t.Minds (fun _ _ => True) [] := by
  cases t with
  | cleanup podName x => exact (heeds_cleanupPod fun _ => rfl).toEnd
  | cancel id user =>
    refine Heeds.toEnd (Q := fun _ _ => True) (E := fun _ _ => True) ?_
    unfold processCancellationRequest
    split
    · exact heeds_pure trivial
    · refine Heeds.orElseGive (E := fun _ _ => True)
        (heeds_lookUpReservation.bind fun past found hfound => ?_) fun _ _ _ => trivial
      cases found with
      | error done => exact heeds_pure trivial
      | ok x =>
        dsimp only
        split
        · exact (heeds_cancelReservation (hfound x rfl)).bind fun _ _ _ => heeds_pure trivial
        · exact heeds_pure trivial

end Run

/-! ### Every history -/

section Histories

variable {cfg : Settings} {ι : Type} [DecidableEq ι] {job : ι → Teardown} {w : World}
  {T : System ι Op Op.Res Unit World} {later earlier es : List (Occurrence ι)} {e : Occurrence ι}

/-- Whatever happens, volumes and snapshots endure. -/
theorem endures_of_history {S : System ι Op Op.Res Unit World}
    (h : History Op.Answers Endures S es T) (he : e ∈ es) : Endures e.before e.after := by
  cases hcall : e.call with
  | none => exact h.changed he hcall
  | some c => exact (h.served he hcall).endures

theorem mem_takedownAt {past : List (Occurrence ι)} {t : Takedown ι} :
    t ∈ takedownAt job past e ↔ ∃ c x podName b, e.call = some (t.run, c) ∧
      (job t.run).target (callsOf t.run past) = some (x, podName) ∧ began t.run past = some b ∧
      x.storageIn podName e.before = (t.user, t.volume) ∧ t.disk = x.diskName ∧
      b.writesOf t.volume = some t.written ∧ c.1.takesDown t.volume = true ∧
      c.1.deletesVolume = t.ofVolume := by
  unfold takedownAt
  simp only [Option.mem_def, Option.bind_eq_some_iff]
  constructor
  · rintro ⟨⟨i, c⟩, hcall, ⟨x, podName⟩, htarget, n, ⟨b, hb, hn⟩, ht⟩
    obtain ⟨htakes, ht⟩ := Option.ite_none_right_eq_some.mp ht
    obtain rfl := Option.some.inj ht
    exact ⟨c, x, podName, b, hcall, htarget, hb, rfl, rfl, hn, htakes, rfl⟩
  · rintro ⟨c, x, podName, b, hcall, htarget, hb, hstorage, hdisk, hn, htakes, hdeletes⟩
    refine ⟨_, hcall, _, htarget, t.written, ⟨b, hb, ?_⟩, ?_⟩
    · rw [hstorage]
      exact hn
    · obtain ⟨i, v, user, disk, volume, written⟩ := t
      simp_all

theorem mem_callsOf {i : ι} {past : List (Occurrence ι)} {c : Program.Event Op Op.Res} :
    c ∈ callsOf i past ↔ ∃ d ∈ past, d.callOf i = some c := List.mem_filterMap

theorem mem_givenTo {i : ι} {V id : String} {d : Occurrence ι} :
    id ∈ givenTo i V d ↔ ∃ c, d.callOf i = some c ∧ c.1.gives V c.2 = some id :=
  Option.mem_toList.trans Option.bind_eq_some_iff

omit [DecidableEq ι] in
/-- A snapshot that is given is a new one, or the latest one in progress. -/
theorem eq_of_gives {V id : String} {c : Program.Event Op Op.Res}
    (h : c.1.gives V c.2 = some id) :
    (∃ user disk, c = ⟨.createSnapshot V user disk, .ok id⟩) ∨
      ∃ xs s, c = ⟨.pendingSnapshots V, .ok xs⟩ ∧
        xs.argmax (fun s => s.2.startTime) = some (id, s) := by
  obtain ⟨op, res⟩ := c
  cases op with
  | createSnapshot v user disk =>
    cases res with
    | ok new =>
      obtain ⟨rfl, hnew⟩ := Option.ite_none_right_eq_some.mp h
      cases hnew
      exact Or.inl ⟨user, disk, rfl⟩
    | error _ => cases h
  | pendingSnapshots v =>
    cases res with
    | ok xs =>
      obtain ⟨rfl, hlatest⟩ := Option.ite_none_right_eq_some.mp h
      obtain ⟨⟨_, s⟩, hmax, rfl⟩ := Option.map_eq_some_iff.mp hlatest
      exact Or.inr ⟨xs, s, rfl, hmax⟩
    | error _ => cases h
  | _ => cases h

theorem call_of_callOf {i : ι} {d : Occurrence ι} {c : Program.Event Op Op.Res}
    (h : d.callOf i = some c) : d.call = some (i, c) := by
  unfold Happening.callOf at h
  split at h
  · split at h
    · cases h
      simp_all
    · cases h
  · cases h

/-- A usable snapshot that a run was given is still what it was. -/
theorem snapshot_since {S : System ι Op Op.Res Unit World} {i : ι} {V id user disk : String}
    {d : Occurrence ι} {s : Snapshot} (h : History Op.Answers Endures S (later ++ d :: earlier) T)
    (hstays : NeverEnds (givenTo i V) (fun id w => ∃ s ∈ w.snapshots.lookup id,
      s.isOf user disk = true ∧ s.isUsable = true) (later ++ d :: earlier))
    (hid : id ∈ givenTo i V d) (hs : d.after.snapshots.lookup id = some s)
    (hof : s.isOf user disk = true) (husable : s.isUsable = true) :
    ∃ s', T.state.snapshots.lookup id = some s' ∧
      (s'.isOf user disk = true ∧ s'.isUsable = true) ∧ s.Becomes s' := by
  refine h.holds_since (K := fun w => ∃ s', w.snapshots.lookup id = some s' ∧
    (s'.isOf user disk = true ∧ s'.isUsable = true) ∧ s.Becomes s')
    ⟨s, hs, ⟨hof, husable⟩, .refl s⟩ ?_
  rintro e he ⟨s', hs', hok, hbecomes⟩
  obtain ⟨s'', hs'', hok'⟩ := hstays.keeps hid e he ⟨s', hs', hok⟩
  have hendures := endures_of_history h (List.mem_append_left _ he)
  exact ⟨s'', hs'', hok', hbecomes.trans (hendures.snapshots id s' s'' hs' hs'')⟩

theorem exists_callOf_of_began {i : ι} {past : List (Occurrence ι)} {b : World}
    (h : began i past = some b) : ∃ d ∈ past, (d.callOf i).isSome = true := by
  induction past with
  | nil => cases h
  | cons d past ih =>
    by_cases hd : (d.callOf i).isSome = true
    · exact ⟨d, by simp, hd⟩
    · obtain ⟨d', hd', hcall⟩ := ih (by simpa [began, hd] using h)
      exact ⟨d', List.mem_cons_of_mem _ hd', hcall⟩

/-- While a volume stays, it is only written to. -/
theorem writes_since_began {S : System ι Op Op.Res Unit World} {i : ι} {V : String} {b : World}
    {n : ℕ} (h : History Op.Answers Endures S es T)
    (hstays : StaysTrue (fun d => ((d.callOf i).map fun _ => ()).toList)
      (fun _ w => (w.writesOf V).isSome = true) es)
    (hb : began i es = some b) (hn : b.writesOf V = some n) :
    ∃ m, T.state.writesOf V = some m ∧ n ≤ m := by
  induction es generalizing T with
  | nil => cases hb
  | cons e past ih =>
    obtain ⟨U, hU, hbefore, hafter⟩ := h.tail
    have hfound : ∃ m, e.before.writesOf V = some m ∧ n ≤ m := by
      cases hpast : began i past with
      | none =>
        have hcall : (e.callOf i).isSome = true := by
          by_contra hcall
          simp [began, hpast, hcall] at hb
        have : e.before = b := by simpa [began, hpast, hcall] using hb
        exact ⟨n, this ▸ hn, le_rfl⟩
      | some b' =>
        have : b' = b := by simpa [began, hpast] using hb
        exact hbefore ▸ ih hU hstays.2 (this ▸ hpast)
    obtain ⟨m, hm, hnm⟩ := hfound
    obtain ⟨d, hd, hcall⟩ := exists_callOf_of_began hb
    obtain ⟨c, hc⟩ := Option.isSome_iff_exists.mp hcall
    have hleft : (e.after.writesOf V).isSome = true :=
      hstays.1.2 d hd () (by simp [hc]) (by simp [hm])
    obtain ⟨m', hm'⟩ := Option.isSome_iff_exists.mp hleft
    refine ⟨m', hafter ▸ hm', hnm.trans ?_⟩
    obtain ⟨v, hv, rfl⟩ := Option.map_eq_some_iff.mp hm
    obtain ⟨v', hv', rfl⟩ := Option.map_eq_some_iff.mp hm'
    exact (endures_of_history h List.mem_cons_self).writes V v v' hv hv'

/-- A run begins with its first call. -/
theorem began_append {i : ι} {d : Occurrence ι} (hd : (d.callOf i).isSome = true) :
    began i (later ++ d :: earlier) = began i (d :: earlier) := by
  have hsome : (began i (d :: earlier)).isSome = true := by
    cases h : began i earlier <;> simp [began, h, hd]
  obtain ⟨b, hb⟩ := Option.isSome_iff_exists.mp hsome
  induction later with
  | nil => rfl
  | cons e later ih => rw [List.cons_append, began, ih, hb, Option.some_or]

/-- When its snapshot is requested, all that had been written when the run began is still there. -/
theorem written_of_request {S : System ι Op Op.Res Unit World} {i : ι} {V : String}
    {d : Occurrence ι} {b : World} {n : ℕ} {c : Program.Event Op Op.Res}
    (h : History Op.Answers Endures S (later ++ d :: earlier) T) (hc : d.callOf i = some c)
    (hrequests : c.1.requests V = true) (htime : requestsInTime i V earlier d)
    (hb : began i (later ++ d :: earlier) = some b) (hn : b.writesOf V = some n) :
    ∃ m, d.before.writesOf V = some m ∧ n ≤ m := by
  rw [began_append (by simp [hc])] at hb
  obtain ⟨U, hU, hbefore⟩ := h.before
  cases hpast : began i earlier with
  | none =>
    have : d.before = b := by simpa [began, hpast, hc] using hb
    exact ⟨n, this ▸ hn, le_rfl⟩
  | some b' =>
    have : b' = b := by simpa [began, hpast] using hb
    exact hbefore ▸ writes_since_began hU (htime c hc hrequests) hpast (this ▸ hn)

theorem target_cons {t : Teardown} {c : Program.Event Op Op.Res}
    {past : List (Program.Event Op Op.Res)} (hitem : ∀ id, c.1 ≠ .getItem id)
    (hstart : ∀ start user, c.1 ≠ .startingWith start user) :
    t.target (c :: past) = t.target past := by
  cases t with
  | cleanup podName x => rfl
  | cancel id user =>
    obtain ⟨op, res⟩ := c
    cases op <;> first | rfl | exact (hitem _ rfl).elim | exact (hstart _ _ rfl).elim

/-- After its request, a run goes on with the reservation for which it was made. -/
theorem target_since {i : ι} {d : Occurrence ι} {V user disk : String}
    {res : (Op.createSnapshot V user disk).Res}
    (h : History Op.Answers Endures ⟨w, fun i => (job i).program cfg⟩ (later ++ d :: earlier) T)
    (hd : d.callOf i = some ⟨.createSnapshot V user disk, res⟩) :
    (job i).target (callsOf i (later ++ d :: earlier)) = (job i).target (callsOf i earlier) := by
  induction later generalizing T with
  | nil =>
    rw [List.nil_append, callsOf, List.filterMap_cons_some hd]
    exact target_cons nofun nofun
  | cons e later ih =>
    obtain ⟨U, hU, -, -⟩ := h.tail
    rw [← ih hU, List.cons_append]
    cases hcall : e.callOf i with
    | none => rw [callsOf, List.filterMap_cons_none hcall, callsOf]
    | some c =>
      obtain ⟨op, r⟩ := c
      have hminds := (show History _ _ _ ([] ++ e :: _) T from h).heeds
        (Teardown.minds cfg (job i)) (call_of_callOf hcall)
      have hrequested : ⟨.createSnapshot V user disk, res⟩ ∈ callsOf i (later ++ d :: earlier) :=
        mem_callsOf.mpr ⟨d, by simp, hd⟩
      rw [callsOf, List.filterMap_cons_some hcall]
      refine target_cons (fun id hop => ?_) fun start u hop => ?_
      · obtain rfl : op = _ := hop
        exact hminds _ hrequested _ _ _ rfl
      · obtain rfl : op = _ := hop
        exact hminds _ hrequested _ _ _ rfl

/-- The storage that a run has read is that of the reservation, while the pod stays as it was. -/
theorem storageIn_of_hasStorage {S : System ι Op Op.Res Unit World} {i : ι} {x : Record}
    {podName : String} {storage : String × String} {d : Occurrence ι}
    (h : History Op.Answers Endures S (later ++ d :: earlier) T)
    (hpods : StaysTrue (podsRead i) (fun p w => w.pods.lookup p.1 = some p.2)
      (later ++ d :: earlier))
    (hstorage : x.hasStorage podName (callsOf i earlier) storage) :
    x.storageIn podName T.state = storage := by
  unfold Record.hasStorage at hstorage
  unfold Record.storageIn
  split
  · rw [if_pos ‹_›] at hstorage
    exact hstorage.symm
  · rw [if_neg ‹_›] at hstorage
    obtain ⟨pod, hpod, rfl⟩ := hstorage
    obtain ⟨d', hd', hcall⟩ := mem_callsOf.mp hpod
    have hread : T.state.pods.lookup podName = some pod :=
      hpods.holds h d' (by simp [hd']) (podName, pod) (by simp [podsRead, hcall])
    rw [hread]

/-- A snapshot that a run is given, as it was then. -/
theorem snapshot_of_given
    (h : History Op.Answers Endures ⟨w, fun i => (job i).program cfg⟩ es T) {t : Takedown ι}
    {x : Record} {podName : String} {b : World}
    (htarget : (job t.run).target (callsOf t.run es) = some (x, podName))
    (hb : began t.run es = some b) (hwritten : b.writesOf t.volume = some t.written)
    (hstorage : x.storageIn podName T.state = (t.user, t.volume)) (hdisk : t.disk = x.diskName)
    (hsnap : t.HasSnapshot es T.state) (hes : es = later ++ e :: earlier) {id : String}
    (hid : id ∈ givenTo t.run t.volume e) :
    ∃ s, e.after.snapshots.lookup id = some s ∧ s.volume = t.volume ∧ t.written ≤ s.captured ∧
      s.isOf t.user t.disk = true ∧ s.isUsable = true := by
  subst hes
  obtain ⟨c, hc, hgives⟩ := mem_givenTo.mp hid
  have hserved := h.served (by simp) (call_of_callOf hc)
  rcases eq_of_gives hgives with ⟨user, disk, rfl⟩ | ⟨xs, s, rfl, hmax⟩
  · obtain ⟨m, hm, hle⟩ := written_of_request h hc (by simp [Op.requests])
      (Throughout.earlier hsnap.inTime).1 hb hwritten
    obtain ⟨x', podName', htarget', hdisk', hstorage'⟩ :=
      h.heeds (Teardown.minds cfg (job t.run)) (call_of_callOf hc)
    rw [target_since h hc] at htarget
    obtain ⟨rfl, rfl⟩ := Prod.mk.inj (Option.some.inj (htarget'.symm.trans htarget))
    have hsame := (storageIn_of_hasStorage h hsnap.pods hstorage').symm.trans hstorage
    obtain ⟨huser, -⟩ := Prod.mk.inj hsame
    refine ⟨_, by rw [hserved.2]; exact AList.lookup_insert _, rfl, ?_, ?_, rfl⟩
    · exact hle.trans (show m ≤ ((e.before.volumes.lookup t.volume).map Volume.writes).getD 0 by
        rw [show (e.before.volumes.lookup t.volume).map Volume.writes = some m from hm]
        exact le_rfl)
    · rcases hdisk' with hnone | hname
      · simp [Snapshot.isOf, huser, hdisk, hnone]
      · simp [Snapshot.isOf, huser, hdisk, hname]
  · obtain ⟨hle, hof, husable⟩ := hsnap.reused e (by simp) _ hc s (by simp [Op.reuses, hmax])
    obtain ⟨hafter, hxs⟩ := hserved
    rw [hafter]
    have hmem := List.argmax_mem hmax
    rw [hxs xs rfl] at hmem
    obtain ⟨hentry, hof'⟩ := List.mem_filter.mp hmem
    simp only [Bool.and_eq_true, beq_iff_eq] at hof'
    exact ⟨s, World.mem_snapshots.mp hentry, hof'.1, hle, hof, husable⟩

/-- The latest of the snapshots of a disk is the one that is restored. -/
theorem nextRestore_of_latest {user disk id : String} {s : Snapshot}
    (hs : w.snapshots.lookup id = some s) (hof : s.isOf user disk = true)
    (husable : s.isUsable = true)
    (hlatest : ∀ other ∈ w.restorable user disk, other.1 ≠ id → other.2.startTime < s.startTime) :
    w.nextRestore user disk = some id := by
  have hunique : ∀ other ∈ w.restorable user disk, other.1 = id → other = (id, s) := by
    rintro ⟨_, s'⟩ hother rfl
    obtain ⟨hentry, -⟩ := List.mem_filter.mp hother
    rw [Option.some.inj (hs.symm.trans (World.mem_snapshots.mp hentry))]
  have hmem : (id, s) ∈ w.restorable user disk := by
    refine List.mem_filter.mpr ⟨World.mem_snapshots.mpr hs, ?_⟩
    simp [hof, husable]
  have hmax : (w.restorable user disk).argmax (fun s => s.2.startTime) = some (id, s) := by
    refine List.argmax_eq_some_iff.mpr ⟨hmem, fun other hother => ?_, fun other hother hle => ?_⟩
    · by_cases hid : other.1 = id
      · rw [hunique other hother hid]
      · exact (hlatest other hother hid).le
    · by_cases hid : other.1 = id
      · rw [hunique other hother hid]
      · exact absurd (hlatest other hother hid) (not_lt.mpr hle)
  simp [World.nextRestore, hmax]

/-- The state of a snapshot that has been waited for. -/
theorem exists_awaited {S : System ι Op Op.Res Unit World} {i : ι} {V id : String}
    (h : History Op.Answers Endures S es T) (hawaited : hasAwaited V id (callsOf i es)) :
    ∃ later d earlier, es = later ++ d :: earlier ∧ d.after = d.before ∧
      (∃ s ∈ d.before.snapshots.lookup id, s.state = .completed) ∧
        ∃ d' ∈ earlier, id ∈ givenTo i V d' := by
  obtain ⟨since, before, hcalls, c, hc, hgives⟩ := hawaited
  obtain ⟨l₁, l₂, rfl, -, hrest⟩ := List.filterMap_eq_append_iff.mp hcalls
  obtain ⟨l₃, d, earlier, rfl, -, hd, hbefore⟩ := List.filterMap_eq_cons_iff.mp hrest
  obtain ⟨hafter, hshown⟩ := h.served (by simp) (call_of_callOf hd)
  rw [← hbefore] at hc
  obtain ⟨d', hd', hcall⟩ := mem_callsOf.mp hc
  exact ⟨l₁ ++ l₃, d, earlier, by simp, hafter, hshown () rfl, d', hd',
    mem_givenTo.mpr ⟨c, hcall, hgives⟩⟩

section Saved

variable {t : Takedown ι} {x : Record} {podName : String} {b : World}

/-- The snapshot that a run is given is the one that is restored, and holds all that had been
written when the run began. -/
theorem saved_of_given
    (h : History Op.Answers Endures ⟨w, fun i => (job i).program cfg⟩ es T)
    (htarget : (job t.run).target (callsOf t.run es) = some (x, podName))
    (hb : began t.run es = some b) (hwritten : b.writesOf t.volume = some t.written)
    (hstorage : x.storageIn podName T.state = (t.user, t.volume)) (hdisk : t.disk = x.diskName)
    (hsnap : t.HasSnapshot es T.state) {d : Occurrence ι} (hd : d ∈ es) {id : String}
    (hid : id ∈ givenTo t.run t.volume d) :
    T.state.nextRestore t.user t.disk = some id ∧ ∃ s, T.state.snapshots.lookup id = some s ∧
      s.volume = t.volume ∧ t.written ≤ s.captured := by
  obtain ⟨later, earlier, rfl⟩ := List.append_of_mem hd
  obtain ⟨s, hs, hvolume, hle, hof, husable⟩ :=
    snapshot_of_given h htarget hb hwritten hstorage hdisk hsnap rfl hid
  obtain ⟨s', hs', ⟨hof', husable'⟩, hbecomes⟩ :=
    snapshot_since h hsnap.stays hid hs hof husable
  refine ⟨nextRestore_of_latest hs' hof' husable' (hsnap.latest d (by simp) id hid s' hs'),
    s', hs', hbecomes.volume.trans hvolume, ?_⟩
  rw [hbecomes.captured]
  exact hle

/-- A snapshot that has been waited for is complete from then on. -/
theorem completed_since
    (h : History Op.Answers Endures ⟨w, fun i => (job i).program cfg⟩ es T)
    (htarget : (job t.run).target (callsOf t.run es) = some (x, podName))
    (hb : began t.run es = some b) (hwritten : b.writesOf t.volume = some t.written)
    (hstorage : x.storageIn podName T.state = (t.user, t.volume)) (hdisk : t.disk = x.diskName)
    (hsnap : t.HasSnapshot es T.state) {later earlier : List (Occurrence ι)} {d d' : Occurrence ι}
    (hes : es = later ++ d :: earlier) (hafter : d.after = d.before) {id : String}
    (hcompleted : ∃ s ∈ d.before.snapshots.lookup id, s.state = .completed)
    (hd' : d' ∈ earlier) (hid : id ∈ givenTo t.run t.volume d') :
    ∃ s, T.state.snapshots.lookup id = some s ∧ s.state = .completed := by
  obtain ⟨k₁, k₂, rfl⟩ := List.append_of_mem hd'
  obtain ⟨s, hs, -, -, hof, husable⟩ := snapshot_of_given h htarget hb hwritten hstorage
    hdisk hsnap (show es = (later ++ d :: k₁) ++ d' :: k₂ by simp [hes]) hid
  subst hes
  obtain ⟨U, hU, hbefore⟩ := h.before
  obtain ⟨s', hs', hok, -⟩ :=
    snapshot_since hU (Throughout.earlier hsnap.stays).2 hid hs hof husable
  rw [← hbefore] at hs'
  obtain ⟨s'', hs'', hstate⟩ := hcompleted
  obtain rfl := Option.some.inj (hs'.symm.trans hs'')
  obtain ⟨s, hs, -, hstate⟩ := h.holds_since (K := fun w => ∃ s, w.snapshots.lookup id = some s ∧
    (s.isOf t.user t.disk = true ∧ s.isUsable = true) ∧ s.state = .completed)
    ⟨s', by rw [hafter]; exact hs', hok, hstate⟩ (by
      rintro e he ⟨s, hs, hok, hstate⟩
      have hstays : NeverEnds (givenTo t.run t.volume) (fun id w =>
          ∃ s ∈ w.snapshots.lookup id, s.isOf t.user t.disk = true ∧ s.isUsable = true)
          ((later ++ d :: k₁) ++ d' :: k₂) := by simpa using hsnap.stays
      obtain ⟨s'', hs'', hok''⟩ := hstays.keeps hid e (by simp [he]) ⟨s, hs, hok⟩
      have hendures := endures_of_history h (List.mem_append_left _ he)
      exact ⟨s'', hs'', hok'', (hendures.snapshots id s s'' hs hs'').completed hstate⟩)
  exact ⟨s, hs, hstate⟩

end Saved

theorem eq_deleteVolume {V : String} {op : Op} (h : op.takesDown V = true)
    (hdeletes : op.deletesVolume = true) : op = .deleteVolume V := by
  cases op with
  | deleteVolume v => rw [of_decide_eq_true h]
  | _ => cases hdeletes

/-- In every history, what a run with a snapshot that will do takes down is saved, and no run
deletes a volume without a snapshot of it that is complete. -/
theorem takedowns_saved
    (h : History Op.Answers Endures ⟨w, fun i => (job i).program cfg⟩ es T) :
    Throughout (savesWhatItCan job) es := by
  refine .intro fun later e earlier hsplit t ht => ?_
  subst hsplit
  obtain ⟨U, hU, hbefore⟩ := h.before
  obtain ⟨c, x, podName, b, hcall, htarget, hb, hstorage, hdisk, hwritten, htakes, hdeletes⟩ :=
    mem_takedownAt.mp ht
  have hawaited : t.ofVolume = true →
      ∃ id, hasAwaited t.volume id (callsOf t.run earlier) := by
    intro hvolume
    obtain ⟨op, res⟩ := c
    obtain rfl := eq_deleteVolume htakes (hdeletes.trans hvolume)
    exact h.heeds (Teardown.minds cfg (job t.run)) hcall
  constructor
  · intro hsnap
    rw [hbefore] at hsnap hstorage ⊢
    cases hvolume : t.ofVolume with
    | false =>
      obtain ⟨d, hd, hgiven⟩ := hsnap.given
      obtain ⟨id, hid⟩ := List.exists_mem_of_ne_nil _ hgiven
      obtain ⟨hrestore, s, hs, hof, hle⟩ :=
        saved_of_given hU htarget hb hwritten hstorage hdisk hsnap hd hid
      exact ⟨id, hrestore, s, hs, hof, hle, by simp [hvolume]⟩
    | true =>
      obtain ⟨id, hid⟩ := hawaited hvolume
      obtain ⟨since, d, before, hes, hafter, hcompleted, d', hd', hgiven⟩ := exists_awaited hU hid
      obtain ⟨hrestore, s, hs, hof, hle⟩ :=
        saved_of_given hU htarget hb hwritten hstorage hdisk hsnap (by simp [hes, hd']) hgiven
      obtain ⟨s', hs', hstate⟩ := completed_since hU htarget hb hwritten hstorage hdisk hsnap hes
        hafter hcompleted hd' hgiven
      obtain rfl := Option.some.inj (hs.symm.trans hs')
      exact ⟨id, hrestore, s, hs, hof, hle, fun _ => hstate⟩
  · intro hvolume
    obtain ⟨id, hid⟩ := hawaited hvolume
    obtain ⟨since, d, before, hes, -, hcompleted, d', hd', hgiven⟩ := exists_awaited hU hid
    exact ⟨id, ⟨d', by simp [hes, hd'], hgiven⟩, d, by simp [hes], hcompleted⟩

end Histories

/-! ### A snapshot that is in progress already -/

/-- A reservation with a disk that is over. -/
def withDisk : Record := { twoHours with diskName := "data", ebsVolumeId := "vol-1" }

/-- Its volume has been written twice. -/
def writtenTwice (snapshots : AList fun _ : String => Snapshot) : World :=
  { justOver with volumes := AList.singleton "vol-1" ⟨2, "data"⟩, snapshots := snapshots }

/-- A snapshot that was requested between the two writes. -/
def betweenWrites : Snapshot := ⟨"vol-1", "mira", "data", 1, 7000, .pending, false⟩

/-- The cleanup of its pod. -/
def oneCleanup (_ : Unit) : Teardown := .cleanup "gpu-dev-6f1d3c52" withDisk

/-- The cleanup before it has begun. -/
def beforeCleanup (snapshots : AList fun _ : String => Snapshot) :
    System Unit Op Op.Res Unit World :=
  ⟨writtenTwice snapshots, fun i => (oneCleanup i).program .usual⟩

/-- A snapshot completes. -/
def World.complete (id : String) (w : World) : World :=
  match w.snapshots.lookup id with
  | some s => { w with snapshots := w.snapshots.insert id { s with state := .completed } }
  | none => w

theorem World.endures_complete (id : String) (w : World) : Endures w (w.complete id) := by
  unfold World.complete
  split
  · rename_i s hs
    refine ⟨le_rfl, fun V v v' hv hv' => ?_, fun other s₁ s₂ h₁ h₂ => ?_⟩
    · obtain rfl := Option.some.inj (hv.symm.trans hv')
      exact le_rfl
    · by_cases hother : other = id
      · subst hother
        obtain rfl := Option.some.inj (hs.symm.trans h₁)
        rw [AList.lookup_insert] at h₂
        cases h₂
        exact ⟨rfl, rfl, rfl, fun _ => rfl⟩
      · rw [AList.lookup_insert_ne hother] at h₂
        obtain rfl := Option.some.inj (h₁.symm.trans h₂)
        exact .refl s₁
  · exact .refl w

/-- The snapshot that the cleanup requests completes while it waits. -/
def completesInTime : List (Turn Unit World) :=
  List.replicate 5 (.call ()) ++ [.env (World.complete "snap-0")] ++ List.replicate 8 (.call ())

/-- The cleanup goes on without a break. -/
def withoutBreak : List (Turn Unit World) := List.replicate 13 (.call ())

/-- A cleanup deletes the volume, then the pod, and both are saved. -/
theorem takedowns_saved_completesInTime :
    Throughout (savesWhatItCan oneCleanup)
      (play Script.fine.serve (beforeCleanup ∅) completesInTime).1 ∧
    Throughout (savesFirst oneCleanup)
      (play Script.fine.serve (beforeCleanup ∅) completesInTime).1 ∧
    (play Script.fine.serve (beforeCleanup ∅) completesInTime).2.state.volumes.keys = [] := by
  refine ⟨takedowns_saved (History.of_play Script.fine.answers_serve (beforeCleanup ∅)
    completesInTime fun change hchange w => ?_), by decide +kernel, by decide +kernel⟩
  obtain rfl : change = World.complete "snap-0" := by simpa [completesInTime] using hchange
  exact w.endures_complete "snap-0"

/-- A cleanup that finds an older snapshot in progress takes the pod down with it. -/
theorem not_savesFirst_betweenWrites :
    History Op.Answers Endures (beforeCleanup (AList.singleton "snap-9" betweenWrites))
      (play Script.fine.serve (beforeCleanup (AList.singleton "snap-9" betweenWrites))
        withoutBreak).1
      (play Script.fine.serve (beforeCleanup (AList.singleton "snap-9" betweenWrites))
        withoutBreak).2 ∧
    ¬ Throughout (savesFirst oneCleanup)
      (play Script.fine.serve (beforeCleanup (AList.singleton "snap-9" betweenWrites))
        withoutBreak).1 :=
  ⟨History.of_play Script.fine.answers_serve _ withoutBreak (by simp [withoutBreak]),
    by decide +kernel⟩

end CiInfra.GpuDev.Lifecycle

import CiInfra.GpuDev.SnapshotBookkeeping
import CiInfra.Lib.History

/-!
# The order of the calls that keep the books

An operation raises the counter right after it has created a snapshot, records a completion only of
a snapshot that it was shown to be complete, and goes on from a recording to the look at the counter
and, where that shows that nothing is pending, to the reset.
-/

namespace CiInfra.GpuDev.SnapshotBookkeeping

open Interaction Program Fallible

variable {key : DiskKey}

/-- A call with its answer. -/
abbrev Call := Program.Event Op Op.Res

/-! ### What an answer says -/

def openIf (isOpen : Bool) (key : DiskKey) : Option DiskKey :=
  if isOpen then some key else none

def shownNonePending (answer : Option (Option Disk)) : Bool :=
  match answer with
  | some (some d) => d.showsNonePending
  | _ => false

def completedIds (answer : Option (List Snapshot)) : List String :=
  (answer.getD []).map Snapshot.id

def waitedFor (ok : Bool) (id : String) : List String := if ok then [id] else []

/-- The disk whose update is not finished with this answer. -/
def Op.leavesOpen : (op : Op) → op.Res → Option DiskKey
  | .record key _ _, ok => openIf ok key
  | .lookAfter key, answer => openIf (shownNonePending answer) key
  | _, _ => none

/-- The snapshot that this answer says was created. -/
def Op.creates : (op : Op) → op.Res → Option String
  | .createSnapshot _ _ _, answer => answer
  | _, _ => none

/-- The snapshots that this answer shows to be complete. -/
def Op.showsFinished : (op : Op) → op.Res → List String
  | .describeCompleted, answer => completedIds answer
  | .waitCompleted id, ok => waitedFor ok id
  | _, _ => []

/-- The disk whose update is not finished after these calls, the latest first. -/
def openDisk (past : List Call) : Option DiskKey :=
  past.head?.bind fun c => c.1.leavesOpen c.2

/-- The snapshot that the latest call has created. -/
def newId (past : List Call) : Option String := past.head?.bind fun c => c.1.creates c.2

/-- A counter is raised right after the snapshot was created, a completion is recorded for a
snapshot that was shown to be complete, and an update that was begun is finished first. -/
def Orderly (past : List Call) : Op → Prop
  | .raise _ id => newId past = some id ∧ openDisk past = none
  | .record _ id _ => openDisk past = none ∧ ∃ c ∈ past, id ∈ c.1.showsFinished c.2
  | .lookAfter key | .reset key => openDisk past = some key
  | _ => openDisk past = none

/-- These snapshots were shown to be complete. -/
def ShownFinished (ids : List String) (past : List Call) : Prop :=
  ∀ id ∈ ids, ∃ c ∈ past, id ∈ c.1.showsFinished c.2

theorem shownFinished_nil (past : List Call) : ShownFinished [] past := fun _ hid => by cases hid

theorem ShownFinished.cons {ids : List String} {past : List Call} (h : ShownFinished ids past)
    (c : Call) : ShownFinished ids (c :: past) :=
  fun id hid => (h id hid).imp fun _ hd => ⟨List.mem_cons_of_mem _ hd.1, hd.2⟩

/-- No update is unfinished, and these snapshots were shown to be complete. -/
def Closed (ids : List String) (past : List Call) : Prop :=
  openDisk past = none ∧ ShownFinished ids past

theorem Closed.cons {ids : List String} {past : List Call} {c : Call} (h : Closed ids past)
    (hc : c.1.leavesOpen c.2 = none) : Closed ids (c :: past) := ⟨hc, h.2.cons c⟩

theorem Closed.finished {ids : List String} {past : List Call} {c : Call} (h : Closed ids past)
    (hc : c.1.leavesOpen c.2 = none) {id : String} (hid : id ∈ c.1.showsFinished c.2) :
    Closed (id :: ids) (c :: past) :=
  ⟨hc, List.forall_mem_cons.mpr ⟨⟨c, List.mem_cons_self, hid⟩, (h.cons hc).2⟩⟩

theorem Closed.anti {ids ids' : List String} {past : List Call} (h : Closed ids past)
    (hsub : ids' ⊆ ids) : Closed ids' past := ⟨h.1, fun id hid => h.2 id (hsub hid)⟩

/-- The call is none of those that keep the books. -/
def Op.isPlain : Op → Bool
  | .raise _ _ | .record _ _ _ | .lookAfter _ | .reset _ => false
  | _ => true

theorem Op.leavesOpen_of_isPlain {op : Op} (h : op.isPlain = true) (r : op.Res) :
    op.leavesOpen r = none := by
  cases op <;> first | rfl | cases h

theorem orderly_of_isPlain {past : List Call} {op : Op} (h : op.isPlain = true)
    (hpast : openDisk past = none) : Orderly past op := by
  cases op <;> first | exact hpast | cases h

/-- What keeps no books may come wherever no update is unfinished. -/
theorem heeds_of_isPlain {α : Type} {p : Lambda α} {ids : List String} {past : List Call}
    (hp : p.Issues fun op => op.isPlain = true) (hpast : Closed ids past) :
    p.Heeds Orderly (fun past _ => Closed ids past) (fun past _ => Closed ids past) past :=
  hp.heeds (fun _ _ hK hop => orderly_of_isPlain hop hK.1)
    (fun _ _ r hK hop => hK.cons (Op.leavesOpen_of_isPlain hop r)) hpast

theorem issues_ask {α : Type} {op : Op} {answer : op.Res → Option α} (h : op.isPlain = true) :
    (ask op answer).Issues fun op => op.isPlain = true := issues_request h

theorem issues_perform {op : Op} {succeeded : op.Res → Bool} (h : op.isPlain = true) :
    (perform op succeeded).Issues fun op => op.isPlain = true := issues_request h

/-- An update of the books that leaves nothing open. -/
theorem heeds_perform {op : Op} {succeeded : op.Res → Bool} {ids : List String} {past : List Call}
    (hop : Orderly past op) (hopen : ∀ r, op.leavesOpen r = none) (hids : ShownFinished ids past) :
    (perform op succeeded).Heeds Orderly (fun past _ => Closed ids past)
      (fun past _ => Closed ids past) past := by
  have hclosed (r : op.Res) : Closed ids (⟨op, r⟩ :: past) := ⟨hopen r, hids.cons _⟩
  exact heeds_request hop (fun r _ _ => hclosed r) fun r _ _ => hclosed r

theorem heeds_safeCreateSnapshot {volumeId userId snapshotType : String}
    {diskName contentS3Path diskSize : Option String} {ids : List String} {past : List Call}
    (hpast : Closed ids past) :
    (safeCreateSnapshot volumeId userId snapshotType diskName contentS3Path diskSize).Heeds Orderly
      (fun past _ => Closed ids past) (fun past _ => Closed ids past) past := by
  refine Heeds.orElseGive (E := fun past _ => Closed ids past) ?_ fun _ _ h => h
  refine (heeds_of_isPlain (issues_ask rfl) hpast).bind fun past ongoing hpast => ?_
  dsimp only
  split
  · exact heeds_pure hpast
  refine (heeds_of_isPlain (issues_request rfl) hpast).bind fun past timestamp hpast => ?_
  have hcreate : (ask (.createSnapshot volumeId
      (snapshotDescription userId snapshotType diskName diskSize)
      (snapshotTags userId snapshotType diskName contentS3Path diskSize timestamp)) id).Heeds
      Orderly (fun past id => Closed ids past ∧ newId past = some id)
      (fun past _ => Closed ids past) past := by
    refine heeds_request hpast.1 (fun r id hid => ⟨hpast.cons rfl, ?_⟩) fun _ _ _ => hpast.cons rfl
    cases r with
    | none => cases hid
    | some id' =>
      cases hid
      rfl
  refine hcreate.bind fun past snapshotId h => ?_
  obtain ⟨hpast, hid⟩ := h
  split
  · rename_i disk _
    have hop : Orderly past (.raise (userId, disk) snapshotId) := ⟨hid, hpast.1⟩
    exact (heeds_perform hop (fun _ => rfl) hpast.2).logged.bind fun _ _ hpast => heeds_pure hpast
  · exact heeds_pure hpast

theorem heeds_updateDiskSnapshotCompleted {snapshotId : String} {sizeGb : Option ℤ}
    {contentS3Path diskSize : Option String} {ids : List String} {past : List Call}
    (hpast : Closed ids past) (hid : snapshotId ∈ ids) :
    (updateDiskSnapshotCompleted key snapshotId sizeGb contentS3Path diskSize).Heeds Orderly
      (fun past _ => Closed ids past) (fun past _ => Closed ids past) past := by
  refine Heeds.logged ?_
  refine (heeds_of_isPlain (issues_request rfl) hpast).bind fun past now hpast => ?_
  have hrecord : (perform (.record key snapshotId ⟨now, sizeGb, contentS3Path, diskSize⟩) id).Heeds
      Orderly
      (fun past _ => openDisk past = some key ∧ ShownFinished ids past)
      (fun past _ => Closed ids past) past := by
    refine heeds_request ⟨hpast.1, hpast.2 _ hid⟩ (fun r _ hr => ?_) fun r _ hr => ?_
    · cases r with
      | true => exact ⟨rfl, hpast.2.cons _⟩
      | false => cases hr
    · cases r with
      | true => cases hr
      | false => exact hpast.cons rfl
  refine hrecord.bind fun past _ h => ?_
  obtain ⟨hopen, hids⟩ := h
  have hlook : (ask (.lookAfter key) id).Heeds Orderly
      (fun past item => openDisk past = openIf (shownNonePending (some item)) key ∧
        ShownFinished ids past)
      (fun past _ => Closed ids past) past := by
    refine heeds_request hopen (fun r item hr => ?_) fun r _ hr => ?_
    · cases r with
      | none => cases hr
      | some item' =>
        cases hr
        exact ⟨rfl, hids.cons _⟩
    · cases r with
      | none => exact ⟨rfl, hids.cons _⟩
      | some item' => cases hr
  refine hlook.bind fun past item h => ?_
  obtain ⟨hopen, hids⟩ := h
  cases item with
  | none => exact heeds_pure ⟨hopen, hids⟩
  | some d =>
    dsimp only
    unfold Fallible.whenever
    cases hd : d.showsNonePending with
    | false =>
      rw [if_neg Bool.false_ne_true]
      exact heeds_pure ⟨by simpa [shownNonePending, hd, openIf] using hopen, hids⟩
    | true =>
      rw [if_pos rfl]
      have hreset : openDisk past = some key := by
        simpa [shownNonePending, hd, openIf] using hopen
      exact heeds_perform hreset (fun _ => rfl) hids

theorem heeds_syncCompletedSnapshots :
    syncCompletedSnapshots.Heeds Orderly (fun past _ => Closed [] past)
      (fun past _ => Closed [] past) [] := by
  refine Heeds.orElseGive (E := fun past _ => Closed [] past) ?_ fun _ _ h => h
  have hlist : (ask .describeCompleted id).Heeds Orderly
      (fun past snapshots => Closed (snapshots.map Snapshot.id) past)
      (fun past _ => Closed [] past) [] := by
    refine heeds_request rfl (fun r snapshots hr => ?_) fun _ _ _ => ⟨rfl, shownFinished_nil _⟩
    cases r with
    | none => cases hr
    | some shown =>
      cases hr
      exact ⟨rfl, fun id hid => ⟨_, List.mem_cons_self, hid⟩⟩
  refine hlist.bind fun past snapshots hpast => ?_
  refine Heeds.mono (E := fun past _ => Closed (snapshots.map Snapshot.id) past)
    (Q := fun past _ => Closed (snapshots.map Snapshot.id) past) ?_
    (fun _ _ h => h.anti (by simp)) fun _ _ h => h.anti (by simp)
  refine (Heeds.collect (fun snapshot hsnapshot past hpast => ?_) hpast).bind
    fun past updated hpast => heeds_pure hpast
  have hid : snapshot.id ∈ snapshots.map Snapshot.id := List.mem_map_of_mem hsnapshot
  unfold syncSnapshot
  split
  · refine Heeds.orElseGive (E := fun past _ => Closed (snapshots.map Snapshot.id) past) ?_
      fun _ _ h => h
    refine (heeds_of_isPlain (issues_ask rfl) hpast).bind fun past item hpast => ?_
    split
    · exact heeds_pure hpast
    · split
      · exact (heeds_updateDiskSnapshotCompleted hpast hid).bind fun _ _ hpast => heeds_pure hpast
      · exact heeds_pure hpast
  · exact heeds_pure hpast

theorem issues_findStorage (data : ReservationData) :
    (findStorage data).Issues fun op => op.isPlain = true := by
  unfold findStorage
  split
  · exact issues_pure _
  · exact Issues.orElseGive ((issues_ask rfl).bind fun _ => issues_pure _) _

theorem issues_findDiskName (data : ReservationData) (volumeId : Option String) :
    (findDiskName data volumeId).Issues fun op => op.isPlain = true := by
  unfold findDiskName
  split
  · refine Issues.orElseGive ((issues_ask rfl).bind fun tags => ?_) _
    cases tags <;> exact issues_pure _
  · exact issues_pure _

theorem issues_captureContents (userId : String) (diskName : Option String) :
    (captureContents userId diskName).Issues fun op => op.isPlain = true := by
  unfold captureContents
  split
  · have hclock : wallClock.Issues fun op => op.isPlain = true := issues_request rfl
    exact Issues.orElseGive (hclock.bind fun _ => issues_ask rfl) _
  · exact issues_pure _

theorem issues_deleteVolume (userId volumeId : String) (diskName : Option String) :
    (deleteVolume userId volumeId diskName).Issues fun op => op.isPlain = true := by
  refine Issues.logged ((issues_perform rfl).bind fun _ => ?_)
  split
  · exact (issues_perform rfl).logged
  · exact issues_pure _

theorem heeds_recordCompletion {userId snapshotId : String} {diskName : Option String}
    {ids : List String} {past : List Call} (hpast : Closed ids past) (hid : snapshotId ∈ ids) :
    (recordCompletion userId diskName snapshotId).Heeds Orderly
      (fun past _ => Closed ids past) (fun past _ => Closed ids past) past := by
  unfold recordCompletion
  split
  · refine Heeds.logged ?_
    refine (heeds_of_isPlain (issues_ask rfl) hpast).bind fun past shown hpast => ?_
    split
    · exact heeds_updateDiskSnapshotCompleted hpast hid
    · exact heeds_pure hpast
  · exact heeds_pure hpast

theorem heeds_finishSnapshot {userId volumeId : String} {diskName : Option String}
    {past : List Call} (hpast : Closed [] past) (snapshotId : Option String) :
    (finishSnapshot userId volumeId diskName snapshotId).Heeds Orderly
      (fun past _ => Closed [] past) (fun past _ => Closed [] past) past := by
  cases snapshotId with
  | none => exact heeds_pure hpast
  | some snapshotId =>
    refine Heeds.logged ?_
    have hwait : (perform (.waitCompleted snapshotId) id).Heeds Orderly
        (fun past _ => Closed [snapshotId] past) (fun past _ => Closed [] past) past := by
      refine heeds_request hpast.1 (fun r _ hr => ?_) fun _ _ _ => hpast.cons rfl
      cases r with
      | true => exact hpast.finished rfl List.mem_cons_self
      | false => cases hr
    refine hwait.bind fun past _ hpast => ?_
    refine Heeds.mono (E := fun past _ => Closed [snapshotId] past)
      (Q := fun past _ => Closed [snapshotId] past) ?_
      (fun _ _ h => h.anti (by simp)) fun _ _ h => h.anti (by simp)
    refine (heeds_recordCompletion hpast List.mem_cons_self).bind fun past _ hpast => ?_
    exact heeds_of_isPlain (issues_deleteVolume _ _ _) hpast

theorem heeds_shutdownSnapshot (data : ReservationData) :
    (shutdownSnapshot data).Heeds Orderly (fun past _ => Closed [] past)
      (fun past _ => Closed [] past) [] := by
  refine Heeds.logged ?_
  have hnothing : Closed [] [] := ⟨rfl, shownFinished_nil _⟩
  refine (heeds_of_isPlain (issues_findStorage data) hnothing).bind fun past storage hpast => ?_
  obtain ⟨userId, volumeId⟩ := storage
  refine (heeds_of_isPlain (issues_findDiskName data volumeId) hpast).bind
    fun past diskName hpast => ?_
  split
  · refine (heeds_of_isPlain (issues_captureContents _ _) hpast).bind fun past contents hpast => ?_
    obtain ⟨contentS3Path, diskSize⟩ := contents
    refine (heeds_safeCreateSnapshot hpast).bind fun past created hpast => ?_
    exact heeds_finishSnapshot hpast _
  · exact heeds_pure hpast

/-- The calls of every operation come in order, and no update is unfinished at its end. -/
theorem Job.heeds (job : Job) :
    job.program.Heeds Orderly (fun past _ => Closed [] past) [] := by
  have hnothing : Closed [] [] := ⟨rfl, shownFinished_nil _⟩
  cases job with
  | create => exact (heeds_safeCreateSnapshot hnothing).toEnd_keeps
  | cleanUp data => exact (heeds_shutdownSnapshot data).toEnd_keeps
  | sync => exact heeds_syncCompletedSnapshots.toEnd_keeps

end CiInfra.GpuDev.SnapshotBookkeeping

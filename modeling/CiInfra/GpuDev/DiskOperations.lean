import CiInfra.GpuDev.SoftDeletionRuns
import CiInfra.Lib.History

/-!
# The results of disk operations

Creating and cloning a disk put its item in the table unless there is one, and write a result for
the operation. This file says when such a result is true, what every step leaves of the items and
the snapshots, and what the programs go by.
-/

namespace CiInfra.GpuDev.SoftDeletions

open Interaction Program Fallible
open SnapshotBookkeeping (DiskKey firstMax truthy)

/-! ### The services -/

namespace World

/-- The item of a disk. -/
def record (w : World) (key : DiskKey) : Option Item := (w.items key).head?

/-- The snapshot as it is. -/
def current (w : World) (id : String) : Option Snapshot := (w.snapshots id).head?

/-- A completed snapshot of the disk. -/
structure Has (w : World) (key : DiskKey) (s : Snapshot) : Prop where
  current : w.current s.id = some s
  unpurged : .purged s.id ∉ w.deeds
  disk : s.disk = some key
  completed : s.completed = true

end World

/-- A listing on all pages shows the completed snapshots of the disk. A snapshot that is created is
new and starts after those that are completed, and is described by its id. A put is refused only
where there is an item. -/
def Op.Reports : (op : Op) → World → op.Res → World → Prop
  | .putIfAbsent key _, _, answer, w' =>
    answer = .error .conditionalCheckFailed → w'.items key ≠ []
  | .describeCompletedOf key, w, answer, _ =>
    ∀ shown, answer = .ok shown → ∀ s, s ∈ shown ↔ w.Has key s
  | .createSnapshot _ key, w, answer, w' => ∀ id, answer = .ok id →
    ∃ s : Snapshot, s.id = id ∧ s.disk = some key ∧ w' = w.request s ∧ w.snapshots id = [] ∧
      .purged id ∉ w.deeds ∧
      ∀ id', ∀ t ∈ w.current id', t.completed = true → t.startTime ≤ s.startTime
  | .describeSnapshot id, _, answer, _ => ∀ shown, answer = .ok shown → ∀ s ∈ shown, s.id = id
  | _, _, _, _ => True

/-- The answers of services that report what there is. -/
def Op.Answers (op : Op) (w : World) (r : op.Res) (w' : World) : Prop :=
  op.Serves w r w' ∧ op.Reports w r w'

/-- No other part of the system changes the snapshot that a clone refers to. -/
def Elsewhere (w w' : World) : Prop :=
  Surroundings w w' ∧ ∀ key, ∀ item ∈ w.record key,
    ∃ item' ∈ w'.record key, item'.cloneSourceSnapshot = item.cloneSourceSnapshot

/-! ### Messages and what they ask for -/

deriving instance DecidableEq for DeleteMessage, CreateMessage, CloneMessage, Job

/-- The disk that is to be created. -/
def Job.target : Job → Option DiskKey
  | .createDisk (some message) => do
    let user ← truthy message.userId
    let disk ← truthy message.diskName
    return (user, disk)
  | .cloneDisk (some message) => do
    let user ← truthy message.userId
    let target ← truthy message.targetDisk
    return (user, target)
  | _ => none

/-- The disk that is to be cloned. -/
def Job.source : Job → Option DiskKey
  | .cloneDisk (some message) => do
    let user ← truthy message.userId
    let source ← truthy message.sourceDisk
    return (user, source)
  | _ => none

/-- The disk whose item is put. -/
def Op.puts : Op → Option DiskKey
  | .putIfAbsent key _ => some key
  | _ => none

/-- The status of an operation that is written. -/
def Op.writes : Op → Option String
  | .writeResult _ status _ => some status
  | _ => none

variable {ι : Type} [DecidableEq ι]

/-- One of the programs puts the item of the disk, which had none. -/
def Makes (program : ι → Prop) (key : DiskKey) (e : Occurrence ι) : Prop :=
  (∃ c ∈ e.call, program c.1 ∧ c.2.1.puts = some key) ∧ e.before.items key = [] ∧
    e.after.items key ≠ []

/-! ### Results that are true -/

/-- The snapshot is one of the disk, and none that the disk had when the program made its first call
is more recent. -/
def IsLatest (i : ι) (past : List (Occurrence ι)) (w : World) (source : DiskKey) (id : String) :
    Prop :=
  .purged id ∉ w.deeds ∧ ∃ s ∈ w.current id, s.disk = some source ∧
    AtFirstCall i (fun d => ∀ t, d.before.Has source t → t.startTime ≤ s.startTime) past

/-- What the result of a program says of the disk that its message asks for is so. The message may
have been delivered to several programs. -/
structure IsTrue (job : ι → Job) (i : ι) (past : List (Occurrence ι)) (w : World) (key : DiskKey)
    (status : String) : Prop where
  /-- A completed operation leaves a disk that is not deleted. -/
  live : status = "completed" → ∃ item ∈ w.record key, item.isDeleted ≠ some true
  /-- A clone refers to the latest snapshot, or was made in an earlier delivery. -/
  source : status = "completed" → ∀ source ∈ (job i).source,
    (∃ d ∈ past, Makes (fun j => j ≠ i ∧ job j = job i) key d) ∨
      ∃ item ∈ w.record key, ∃ id ∈ item.cloneSourceSnapshot, IsLatest i past w source id
  /-- A disk that is there for another reason is a failure. -/
  taken : w.items key ≠ [] → (∀ d ∈ past, ¬ Makes (fun j => job j = job i) key d) →
    status = "failed"

/-- A result that is written is true. -/
def TellsTruth (job : ι → Job) (past : List (Occurrence ι)) (e : Occurrence ι) : Prop :=
  ∀ c ∈ e.call, ∀ status ∈ c.2.1.writes, ∃ key ∈ (job c.1).target,
    IsTrue job c.1 past e.before key status

/-! ### Operations that are not disturbed -/

/-- The disk that a deed marks as deleted. -/
def Deed.marks : Deed → Option DiskKey
  | .deleted key _ => some key
  | _ => none

/-- The snapshot that a deed purges. -/
def Deed.purges : Deed → Option String
  | .purged id => some id
  | _ => none

/-- The disk whose item is there when it is to be put. -/
def Op.refuses : (op : Op) → op.Res → Option DiskKey
  | .putIfAbsent key _, .error .conditionalCheckFailed => some key
  | _, _ => none

/-- The completed snapshots that an answer shows. -/
def Op.showsCompleted : (op : Op) → op.Res → List Snapshot
  | .describeCompletedOf _, answer => answer.toOption.getD []
  | _, _ => []

/-- Unless all the snapshots are to be deleted, none that is to be deleted is later than all the
others. -/
def LatestStays (shown : List Snapshot) : Prop :=
  (∃ s ∈ shown, s.deleteDate = none) →
    ∀ s ∈ shown, ∃ t ∈ shown, t.deleteDate = none ∧ s.startTime ≤ t.startTime

/-- The snapshots of the disk that have been purged since then were to be deleted then. -/
def PurgesOnlyOld (w w' : World) (key : DiskKey) (shown : List Snapshot) : Prop :=
  ∀ deed ∈ w'.deeds, ∀ id ∈ deed.purges, deed ∈ w.deeds ∨
    (∀ s ∈ w'.current id, s.disk ≠ some key) ∨ ∃ s ∈ shown, s.id = id ∧ s.deleteDate.isSome = true

/-- Nothing comes between a program and the disk that its message asks for. -/
structure Undisturbed (job : ι → Job) (i : ι) (past : List (Occurrence ι)) (w : World)
    (key : DiskKey) : Prop where
  /-- A disk that is there already was made for the same message. -/
  refused : ∀ d ∈ past, (∃ c ∈ d.callOf i, c.1.refuses c.2 = some key) → d.before.items key = [] ∨
    ∃ m ∈ past, Makes (fun j => job j = job i) key m
  /-- The disk has not been deleted. -/
  unmarked : ∀ deed ∈ w.deeds, deed.marks ≠ some key
  /-- When a clone is made, the latest snapshot of its source was not to be deleted. -/
  listed : ∀ source ∈ (job i).source, (∃ d ∈ past, Makes (fun j => j = i) key d) →
    AtFirstCall i (fun d => ∀ c ∈ d.callOf i, LatestStays (c.1.showsCompleted c.2) ∧
      PurgesOnlyOld d.before w source (c.1.showsCompleted c.2)) past

/-- A result is written as completed only where nothing came between. -/
def CompletesUndisturbed (job : ι → Job) (past : List (Occurrence ι)) (e : Occurrence ι) : Prop :=
  ∀ c ∈ e.call, c.2.1.writes = some "completed" → ∀ key ∈ (job c.1).target,
    Undisturbed job c.1 past e.before key

/-! ### What every step keeps -/

section Keeps

variable {w w' w'' : World}

/-- Items and snapshots stay, and those of a disk that is not deleted as they are. -/
structure Keeps (w w' : World) : Prop where
  items : ∀ key, ∀ item ∈ w.record key, (∀ deed ∈ w'.deeds, deed.marks ≠ some key) →
    ∃ item' ∈ w'.record key, item'.isDeleted = item.isDeleted ∧
      item'.cloneSourceSnapshot = item.cloneSourceSnapshot
  snapshots : ∀ id, ∀ s ∈ w.current id, ∃ s' ∈ w'.current id, s'.disk = s.disk ∧
    s'.startTime = s.startTime ∧ (s.completed = true → s'.completed = true)
  deeds : w.deeds ⊆ w'.deeds

theorem Keeps.refl (w : World) : Keeps w w :=
  ⟨fun _ item hitem _ => ⟨item, hitem, rfl, rfl⟩, fun _ s hs => ⟨s, hs, rfl, rfl, id⟩,
    List.Subset.refl _⟩

theorem Keeps.trans (h : Keeps w w') (h' : Keeps w' w'') : Keeps w w'' where
  items := by
    intro key item hitem hunmarked
    obtain ⟨item', hitem', hdeleted, hsource⟩ :=
      h.items key item hitem fun deed hdeed => hunmarked deed (h'.deeds hdeed)
    obtain ⟨item'', hitem'', hdeleted', hsource'⟩ := h'.items key item' hitem' hunmarked
    exact ⟨item'', hitem'', hdeleted'.trans hdeleted, hsource'.trans hsource⟩
  snapshots := by
    intro id s hs
    obtain ⟨s', hs', hdisk, hstart, hcompleted⟩ := h.snapshots id s hs
    obtain ⟨s'', hs'', hdisk', hstart', hcompleted'⟩ := h'.snapshots id s' hs'
    exact ⟨s'', hs'', hdisk'.trans hdisk, hstart'.trans hstart,
      fun hc => hcompleted' (hcompleted hc)⟩
  deeds := List.Subset.trans h.deeds h'.deeds

/-- Items that stay as they are. -/
theorem keeps_of_items (hitems : w'.items = w.items)
    (hsnapshots : ∀ id, ∀ s ∈ w.current id, ∃ s' ∈ w'.current id, s'.disk = s.disk ∧
      s'.startTime = s.startTime ∧ (s.completed = true → s'.completed = true))
    (hdeeds : w.deeds ⊆ w'.deeds) : Keeps w w' :=
  ⟨fun key item hitem _ => ⟨item, by rwa [World.record, hitems], rfl, rfl⟩, hsnapshots, hdeeds⟩

theorem World.record_updateItem_of_ne (w : World) {key key' : DiskKey} (h : key' ≠ key)
    (f : Item → Item) : (w.updateItem key f).record key' = w.record key' := by
  unfold World.record World.updateItem
  dsimp only
  rw [Function.update_of_ne h]

theorem World.record_updateItem_self (w : World) (key : DiskKey) (f : Item → Item) :
    (w.updateItem key f).record key = some (f ((w.items key).headD {})) := by
  unfold World.record World.updateItem
  dsimp only
  rw [Function.update_self]
  rfl

theorem World.headD_of_record {key : DiskKey} {item : Item} (h : item ∈ w.record key) :
    (w.items key).headD {} = item := by
  rw [List.headD_eq_head?_getD, ← World.record, h, Option.getD_some]

/-- The item of one disk is changed. -/
theorem keeps_of_updateItem {key : DiskKey} {f : Item → Item}
    (hitems : w'.items = (w.updateItem key f).items) (hsnapshots : w'.snapshots = w.snapshots)
    (hdeeds : w.deeds ⊆ w'.deeds)
    (hf : ∀ item ∈ w.record key, (∀ deed ∈ w'.deeds, deed.marks ≠ some key) →
      (f item).isDeleted = item.isDeleted ∧
        (f item).cloneSourceSnapshot = item.cloneSourceSnapshot) : Keeps w w' where
  items := by
    intro key' item hitem hunmarked
    have hrecord : w'.record key' = (w.updateItem key f).record key' := by
      rw [World.record, World.record, hitems]
    by_cases hkey : key' = key
    · subst hkey
      refine ⟨f item, ?_, hf item hitem hunmarked⟩
      rw [hrecord, World.record_updateItem_self, World.headD_of_record hitem]
      rfl
    · exact ⟨item, by rwa [hrecord, World.record_updateItem_of_ne w hkey], rfl, rfl⟩
  snapshots := fun id s hs => ⟨s, by rwa [World.current, hsnapshots], rfl, rfl, fun h => h⟩
  deeds := hdeeds

/-- A new snapshot leaves the others. -/
theorem keeps_request {snapshot : Snapshot} (hnew : w.snapshots snapshot.id = []) :
    Keeps w (w.request snapshot) := by
  refine keeps_of_items rfl (fun id s hs => ?_) (List.subset_append_right _ _)
  have hid : id ≠ snapshot.id := by
    rintro rfl
    rw [World.current, hnew] at hs
    cases hs
  refine ⟨s, ?_, rfl, rfl, fun h => h⟩
  unfold World.current World.request
  dsimp only
  rwa [Function.update_of_ne hid]

/-- A snapshot that is changed, but for its disk and its start, leaves the others. -/
theorem keeps_update {id : String} {l : List Snapshot} {f : Snapshot → Snapshot}
    (hitems : w'.items = w.items)
    (hsnapshots : w'.snapshots = Function.update w.snapshots id (l ++ w.snapshots id))
    (hdeeds : w.deeds ⊆ w'.deeds) (hl : ∀ s ∈ w.current id, l = [f s])
    (hf : ∀ s, (f s).disk = s.disk ∧ (f s).startTime = s.startTime ∧
      (s.completed = true → (f s).completed = true)) : Keeps w w' := by
  refine keeps_of_items hitems (fun id' s hs => ?_) hdeeds
  by_cases hid : id' = id
  · subst hid
    refine ⟨f s, ?_, hf s⟩
    rw [World.current, hsnapshots, Function.update_self, hl s hs]
    rfl
  · exact ⟨s, by rwa [World.current, hsnapshots, Function.update_of_ne hid], rfl, rfl, fun h => h⟩

theorem Op.Serves.keeps {op : Op} {r : op.Res} (h : op.Serves w r w') : Keeps w w' := by
  cases op with
  | markDeleted key date markedAt =>
    obtain rfl | ⟨-, rfl⟩ := h
    · refine keeps_of_updateItem (f := fun item => { item with
        isDeleted := some true, deleteDate := some date, markedDeletedAt := some markedAt }) rfl rfl
        (List.subset_cons_self _ _) fun _ _ hunmarked => ?_
      exact absurd rfl (hunmarked _ List.mem_cons_self)
    · exact .refl _
  | putIfAbsent key item =>
    obtain ⟨hnone, rfl⟩ | ⟨-, rfl⟩ := h
    · refine keeps_of_updateItem rfl rfl (List.Subset.refl _) fun item hitem _ => ?_
      rw [World.record, hnone] at hitem
      cases hitem
    · exact .refl _
  | createTags id date markedAt =>
    obtain rfl | ⟨-, rfl⟩ := h
    · refine keeps_update rfl rfl (List.subset_cons_self _ _) (fun s hs => ?_)
        (f := fun s => { s with deleteDate := some date, markedDeletedAt := some markedAt })
        fun s => ⟨rfl, rfl, fun h => h⟩
      have hhead : (w.snapshots id).head? = some s := hs
      rw [hhead]
      rfl
    · exact .refl _
  | deleteSnapshot id =>
    obtain rfl | ⟨-, rfl⟩ := h
    · exact keeps_of_items rfl (fun id s hs => ⟨s, hs, rfl, rfl, fun h => h⟩)
        (List.subset_cons_self _ _)
    · exact .refl _
  | createSnapshot volume key =>
    obtain ⟨snapshot, hnew, -, -, rfl⟩ | ⟨-, rfl⟩ := h
    · exact keeps_request hnew
    · exact .refl _
  | today | scanDeleted | describeOf | describeCompletedOf | describeTagged => exact h.1 ▸ .refl _
  | _ => exact h ▸ .refl _

theorem Elsewhere.keeps (h : Elsewhere w w') : Keeps w w' := by
  obtain ⟨hsurroundings, hsources⟩ := h
  cases hsurroundings with
  | request snapshot hnew => exact keeps_request hnew
  | complete id snapshot hid =>
    refine keeps_update (l := [{ snapshot with completed := true }]) rfl rfl
      (List.Subset.refl _) (fun s hs => ?_) (f := fun s => { s with completed := true })
      fun s => ⟨rfl, rfl, fun _ => rfl⟩
    cases hid.symm.trans hs
    rfl
  | change key f hdeleted hdate =>
    refine keeps_of_updateItem rfl rfl (List.Subset.refl _) fun item hitem _ =>
      ⟨hdeleted item, ?_⟩
    obtain ⟨item', hitem', hsource⟩ := hsources key item hitem
    rw [World.record_updateItem_self, World.headD_of_record hitem] at hitem'
    cases hitem'
    exact hsource
  | pass =>
    exact keeps_of_items rfl (fun id s hs => ⟨s, hs, rfl, rfl, fun h => h⟩) (List.Subset.refl _)

end Keeps

/-! ### What the programs go by -/

/-- The disk whose item is there once it has been put, by this call or before. -/
def Op.settles : (op : Op) → op.Res → Option DiskKey
  | .putIfAbsent key _, .ok _ => some key
  | .putIfAbsent key _, .error .conditionalCheckFailed => some key
  | _, _ => none

/-- The first call has listed these snapshots of the disk. -/
def Listed (key : DiskKey) (shown : List Snapshot) (past : List Call) : Prop :=
  past.getLast? = some ⟨.describeCompletedOf key, .ok shown⟩

def notDeleted (shown : List Snapshot) : List Snapshot := shown.filter fun s => s.deleteDate.isNone

/-- The snapshot is the latest of those listed that are not to be deleted, or was created since
there are none. -/
def Chosen (key : DiskKey) (past : List Call) (id : String) : Prop :=
  ∃ shown, Listed key shown past ∧
    ((∃ s, firstMax Snapshot.startTime (notDeleted shown) = some s ∧ s.id = id) ∨
      ∃ volume created, ⟨.createSnapshot volume key, .ok created⟩ ∈ past ∧
        ∃ s rest, ⟨.describeSnapshot created, .ok (s :: rest)⟩ ∈ past ∧ s.id = id)

/-- An item is put for the target, not deleted, and for a clone with a snapshot that was chosen. A
result is written as completed once the item is there, and as failed otherwise. -/
def Grounded (job : Job) (past : List Call) : Op → Prop
  | .putIfAbsent key item => job.target = some key ∧ item.isDeleted = some false ∧
      ∀ source ∈ job.source, ∃ id ∈ item.cloneSourceSnapshot, Chosen source past id
  | .writeResult _ status _ =>
      ∃ key ∈ job.target, status = "failed" ∨
        status = "completed" ∧ ∃ c ∈ past, c.1.settles c.2 = some key
  | _ => True

/-- The call is neither the putting of an item nor the writing of a result. -/
def Op.IsFree (op : Op) : Prop := op.puts = none ∧ op.writes = none

theorem Op.IsFree.grounded {op : Op} (h : op.IsFree) (job : Job) (past : List Call) :
    Grounded job past op := by
  cases op with
  | putIfAbsent => cases h.1
  | writeResult => cases h.2
  | _ => trivial

theorem Listed.append {key : DiskKey} {shown : List Snapshot} {past : List Call}
    (h : Listed key shown past) (later : List Call) : Listed key shown (later ++ past) := by
  rw [Listed, List.getLast?_append, h]
  rfl

theorem Chosen.append {key : DiskKey} {past : List Call} {id : String} (h : Chosen key past id)
    (later : List Call) : Chosen key (later ++ past) id := by
  obtain ⟨shown, hlisted, hchosen⟩ := h
  refine ⟨shown, hlisted.append later, hchosen.imp_right ?_⟩
  rintro ⟨volume, created, hcreated, s, rest, hshown, hid⟩
  exact ⟨volume, created, List.mem_append_right _ hcreated, s, rest,
    List.mem_append_right _ hshown, hid⟩

/-- Each call of the program is grounded. -/
def IsGrounded {α : Type} (job : Job) (past : List Call) (p : Lambda α) : Prop :=
  p.Heeds (Grounded job) (fun _ _ => True) (fun _ _ => True) past

/-- A sequence goes on with what its first program has found. -/
theorem IsGrounded.bind {α β : Type} {job : Job} {past : List Call} {Q : List Call → α → Prop}
    {p : Lambda α} {f : α → Lambda β} (hp : p.Heeds (Grounded job) Q (fun _ _ => True) past)
    (hf : ∀ past a, Q past a → IsGrounded job past (f a)) : IsGrounded job past (p >>= f) :=
  Fallible.Heeds.bind hp hf

theorem isGrounded_of_isFree {α : Type} {p : Lambda α} (job : Job) (past : List Call)
    (hp : p.Issues Op.IsFree) : IsGrounded job past p :=
  hp.heeds (K := fun _ => True) (fun past _ _ hop => hop.grounded job past)
    (fun _ _ _ _ _ => trivial) trivial

/-- A free call leaves what grows with the calls. -/
theorem heeds_of_isFree {α : Type} {p : Lambda α} {job : Job} {past : List Call}
    {K : List Call → Prop} (hp : p.Issues Op.IsFree) (hkeep : ∀ past c, K past → K (c :: past))
    (hK : K past) : p.Heeds (Grounded job) (fun past _ => K past) (fun _ _ => True) past :=
  (hp.heeds (K := K) (fun past _ _ hop => hop.grounded job past)
    (fun past op r hK _ => hkeep past ⟨op, r⟩ hK) hK).mono (fun _ _ h => h) fun _ _ _ => trivial

theorem issues_ask {α : Type} {op : Op} {answer : op.Res → Except String α} (h : op.IsFree) :
    (ask op answer).Issues Op.IsFree := issues_request h

theorem issues_wallClock : wallClock.Issues Op.IsFree := issues_request ⟨rfl, rfl⟩

theorem issues_tagSnapshotsOf (key : DiskKey) (date : String) {markedAt : Lambda String}
    (hmarked : markedAt.Issues Op.IsFree) :
    (tagSnapshotsOf key date markedAt).Issues Op.IsFree := by
  refine Issues.orElseGive (Issues.bind (issues_ask ⟨rfl, rfl⟩) fun snapshots => ?_) _
  refine Issues.bind (Issues.collect fun s _ => ?_) fun _ => issues_pure _
  unfold tagSnapshot
  split
  · exact issues_pure _
  · refine Issues.orElseGive (hmarked.bind fun _ => ?_) _
    exact Issues.bind (issues_ask ⟨rfl, rfl⟩) fun _ => issues_pure _

theorem issues_processDeleteDiskAction (message : Option DeleteMessage) :
    (processDeleteDiskAction message).Issues Op.IsFree := by
  unfold processDeleteDiskAction
  split
  · exact issues_pure _
  · split
    · refine issues_wallClock.bind fun now => Issues.orElseGive ?_ _
      refine Issues.bind (issues_ask ⟨rfl, rfl⟩) fun _ => ?_
      exact (issues_tagSnapshotsOf _ _ (issues_pure _)).bind fun _ => issues_pure _
    · exact issues_pure _

theorem issues_syncDiskDeletedSnapshots : syncDiskDeletedSnapshots.Issues Op.IsFree := by
  refine Issues.orElseGive (Issues.bind (issues_ask ⟨rfl, rfl⟩) fun disks => ?_) _
  refine Issues.bind (Issues.collect fun x _ => ?_) fun _ => issues_pure _
  unfold syncDeletedDisk
  split
  · exact issues_tagSnapshotsOf _ _ (issues_wallClock.bind fun _ => issues_pure _)
  · exact issues_pure _

theorem issues_cleanupSoftDeletedSnapshots : cleanupSoftDeletedSnapshots.Issues Op.IsFree := by
  have htoday : today.Issues Op.IsFree := issues_request ⟨rfl, rfl⟩
  refine htoday.bind fun day => Issues.orElseGive ?_ _
  refine Issues.bind (issues_ask ⟨rfl, rfl⟩) fun snapshots => ?_
  refine Issues.bind (Issues.collect fun s _ => ?_) fun _ => issues_pure _
  unfold purgeSnapshot
  dsimp only
  split
  · exact Issues.orElseGive (Issues.bind (issues_ask ⟨rfl, rfl⟩) fun _ => issues_pure _) _
  · exact issues_pure _

theorem isGrounded_writeOperationResult {job : Job} {past : List Call} {operationId : Option String}
    {status : String} {error : Option String}
    (h : ∀ operation, Grounded job past (.writeResult operation status error)) :
    IsGrounded job past (writeOperationResult operationId status error) := by
  unfold writeOperationResult
  split
  · exact Heeds.logged (heeds_request (h _) (fun _ _ _ => trivial) fun _ _ _ => trivial)
  · exact heeds_pure trivial

theorem isGrounded_reply {job : Job} {past : List Call} {operationId : Option String}
    {status : String} {error : Option String} {b : Bool}
    (h : ∀ operation, Grounded job past (.writeResult operation status error)) :
    IsGrounded job past (do
      writeOperationResult operationId status error
      return b) :=
  IsGrounded.bind (isGrounded_writeOperationResult h) fun _ _ _ => heeds_pure trivial

/-- An item is put, and what is known is what was answered. -/
theorem heeds_putIfAbsent {job : Job} {past : List Call} {key : DiskKey} {item : Item}
    (h : Grounded job past (.putIfAbsent key item)) :
    (request (.putIfAbsent key item) .ok : Lambda (Except PutFailure Unit)).Heeds (Grounded job)
      (fun past answer => ⟨.putIfAbsent key item, answer⟩ ∈ past) (fun _ _ => True) past := by
  refine heeds_request h (fun r answer hr => ?_) fun _ _ _ => trivial
  cases hr
  exact List.mem_cons_self

theorem isGrounded_processCreateDiskAction (message : Option CreateMessage) :
    IsGrounded (.createDisk message) [] (processCreateDiskAction message) := by
  unfold processCreateDiskAction
  split
  · exact heeds_pure trivial
  · rename_i message
    split
    · rename_i user disk _ huser hdisk
      have htarget : (Job.createDisk (some message)).target = some (user, disk) := by
        simp [Job.target, huser, hdisk]
      refine IsGrounded.bind (isGrounded_of_isFree _ _ issues_wallClock) fun past now _ => ?_
      have hitem : Grounded (.createDisk (some message)) past
          (.putIfAbsent (user, disk) (newItem now)) :=
        ⟨htarget, rfl, fun _ hsource => by cases hsource⟩
      refine IsGrounded.bind (heeds_putIfAbsent hitem) fun past answer hput => ?_
      split
      · exact isGrounded_reply fun _ => ⟨_, htarget, Or.inr ⟨rfl, _, hput, rfl⟩⟩
      · exact isGrounded_reply fun _ => ⟨_, htarget, Or.inr ⟨rfl, _, hput, rfl⟩⟩
      · exact isGrounded_reply fun _ => ⟨_, htarget, Or.inl rfl⟩
    · exact heeds_pure trivial

/-- The snapshot that is given was chosen from what the first call has listed. -/
theorem heeds_cloneSource (job : Job) (key : DiskKey) :
    (cloneSource key).Heeds (Grounded job)
      (fun past answer => ∀ id ∈ answer, Chosen key past id) (fun _ _ => True) [] := by
  have hlist : (ask (.describeCompletedOf key) id).Heeds (Grounded job)
      (fun past shown => Listed key shown past) (fun _ _ => True) [] := by
    refine heeds_request trivial (fun r shown hr => ?_) fun _ _ _ => trivial
    obtain rfl : r = .ok shown := hr
    rfl
  refine Fallible.Heeds.bind hlist fun past shown hlisted => ?_
  split
  · rename_i s hs
    refine heeds_pure fun id hid => ?_
    cases hid
    exact ⟨shown, hlisted, Or.inl ⟨s, hs, rfl⟩⟩
  · have hkeep : ∀ past c, Listed key shown past → Listed key shown (c :: past) :=
      fun past c h => h.append [c]
    refine Fallible.Heeds.bind (heeds_of_isFree (issues_ask ⟨rfl, rfl⟩) hkeep hlisted)
      fun past volumes hlisted => ?_
    split
    · exact heeds_pure fun id hid => by cases hid
    · rename_i volume _
      have hcreate : (ask (.createSnapshot volume key) id).Heeds (Grounded job)
          (fun past created => Listed key shown past ∧
            ⟨.createSnapshot volume key, .ok created⟩ ∈ past) (fun _ _ => True) past := by
        refine heeds_request trivial (fun r created hr => ?_) fun _ _ _ => trivial
        obtain rfl : r = .ok created := hr
        exact ⟨hkeep _ _ hlisted, List.mem_cons_self⟩
      refine Fallible.Heeds.bind hcreate fun past created hcreated => ?_
      have hkeep' : ∀ past c,
          Listed key shown past ∧ ⟨.createSnapshot volume key, .ok created⟩ ∈ past →
            Listed key shown (c :: past) ∧
              ⟨.createSnapshot volume key, .ok created⟩ ∈ c :: past :=
        fun past c h => ⟨hkeep past c h.1, List.mem_cons_of_mem _ h.2⟩
      refine Fallible.Heeds.bind (heeds_of_isFree (issues_ask ⟨rfl, rfl⟩) hkeep' hcreated)
        fun past _ hwaited => ?_
      have hdescribe : (ask (.describeSnapshot created) id).Heeds (Grounded job)
          (fun past described => (Listed key shown past ∧
              ⟨.createSnapshot volume key, .ok created⟩ ∈ past) ∧
            ⟨.describeSnapshot created, .ok described⟩ ∈ past) (fun _ _ => True) past := by
        refine heeds_request trivial (fun r described hr => ?_) fun _ _ _ => trivial
        obtain rfl : r = .ok described := hr
        exact ⟨hkeep' _ _ hwaited, List.mem_cons_self⟩
      refine Fallible.Heeds.bind hdescribe fun past described hdescribed => ?_
      obtain ⟨⟨hlisted, hcreated⟩, hdescribed⟩ := hdescribed
      split
      · exact heeds_throw trivial
      · rename_i s rest
        refine heeds_pure fun id hid => ?_
        cases hid
        exact ⟨shown, hlisted, Or.inr ⟨volume, created, hcreated, s, rest, hdescribed, rfl⟩⟩

theorem heeds_putClone {job : Job} {past : List Call} {user source target snapshotId : String}
    (operationId : Option String) (htarget : job.target = some (user, target))
    (hsource : job.source = some (user, source)) (hchosen : Chosen (user, source) past snapshotId) :
    IsGrounded job past (putClone user source target operationId snapshotId) := by
  have hkeep : ∀ past c, Chosen (user, source) past snapshotId →
      Chosen (user, source) (c :: past) snapshotId := fun past c h => h.append [c]
  refine IsGrounded.bind (heeds_of_isFree issues_wallClock hkeep hchosen)
    fun past now hchosen => ?_
  have hget : (orElseGive (ask (.getItem (user, source)) id) none).Issues Op.IsFree :=
    Issues.orElseGive (issues_ask ⟨rfl, rfl⟩) _
  refine IsGrounded.bind (heeds_of_isFree hget hkeep hchosen) fun past sourceItem hchosen => ?_
  refine IsGrounded.bind (heeds_putIfAbsent ⟨htarget, rfl, fun source' hsource' => ?_⟩)
    fun past answer hput => ?_
  · cases hsource.symm.trans hsource'
    exact ⟨snapshotId, rfl, hchosen⟩
  · split
    · exact isGrounded_reply fun _ => ⟨_, htarget, Or.inr ⟨rfl, _, hput, rfl⟩⟩
    · exact isGrounded_reply fun _ => ⟨_, htarget, Or.inr ⟨rfl, _, hput, rfl⟩⟩
    · exact heeds_throw trivial

theorem isGrounded_processCloneDiskAction (message : Option CloneMessage) :
    IsGrounded (.cloneDisk message) [] (processCloneDiskAction message) := by
  unfold processCloneDiskAction
  split
  · exact heeds_throw trivial
  · rename_i message
    split
    · rename_i user source target huser hsource htarget
      have htarget : (Job.cloneDisk (some message)).target = some (user, target) := by
        simp [Job.target, huser, htarget]
      have hsource : (Job.cloneDisk (some message)).source = some (user, source) := by
        simp [Job.source, huser, hsource]
      refine Fallible.Heeds.tryCatch (E := fun _ _ => True) ?_ fun past text _ =>
        isGrounded_reply fun _ => ⟨_, htarget, Or.inl rfl⟩
      refine IsGrounded.bind (heeds_cloneSource _ _) fun past snapshot hchosen => ?_
      split
      · exact heeds_putClone _ htarget hsource (hchosen _ rfl)
      · exact isGrounded_reply fun _ => ⟨_, htarget, Or.inl rfl⟩
    · exact heeds_pure trivial

/-- Each call of every operation is grounded. -/
theorem Job.grounded (job : Job) : job.program.Heeds (Grounded job) (fun _ _ => True) [] := by
  cases job with
  | createDisk message => exact (isGrounded_processCreateDiskAction message).toEnd
  | cloneDisk message => exact (isGrounded_processCloneDiskAction message).toEnd
  | deleteDisk message =>
    exact (isGrounded_of_isFree _ _ (issues_processDeleteDiskAction message)).toEnd
  | sync => exact (isGrounded_of_isFree _ _ issues_syncDiskDeletedSnapshots).toEnd
  | cleanUp => exact (isGrounded_of_isFree _ _ issues_cleanupSoftDeletedSnapshots).toEnd

end CiInfra.GpuDev.SoftDeletions

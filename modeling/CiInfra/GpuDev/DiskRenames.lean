import CiInfra.GpuDev.DiskRestores
import CiInfra.GpuDev.Lifecycle
import CiInfra.Lib.Characters
import Mathlib.Data.List.Sort

/-!
# Renaming disks

A disk is listed by its record in the disks table and restored by the tags of its snapshots. The
client renames one by the tags of those snapshots that come with the first answer, and goes on to
the next one when a tag is not written. What is listed and restored under the two names afterwards?
-/

namespace CiInfra.GpuDev.DiskRenames

open DiskRestores (Account Snapshot State activeSnapshots isListed
  pendingSnapshots)
open Lifecycle (Stamp)
open SnapshotBookkeeping (firstMax truthy)

/-! ### Listing -/

/-- A record of the disks table. An empty text stands for a missing one, and so does a zero. -/
structure Item where
  diskName : String
  sizeGb : Option ℤ := none
  diskSize : Option String := none
  createdAt : Option Stamp := none
  lastUsed : Option Stamp := none
  snapshotCount : Option ℤ := none
  pendingSnapshotCount : Option ℤ := none
  inUse : Option Bool := none
  isBackingUp : Option Bool := none
  attachedToReservation : Option String := none
  isDeleted : Option Bool := none
  deleteDate : Option String := none

/-- A disk, as it is listed. -/
structure Disk where
  name : String
  sizeGb : ℤ
  diskSize : Option String
  createdAt : Option ℚ
  lastUsed : Option ℚ
  snapshotCount : ℤ
  pendingSnapshotCount : ℤ
  inUse : Bool
  isBackingUp : Bool
  reservationId : Option String
  isDeleted : Bool
  deleteDate : Option String
  deriving DecidableEq

/-- A reservation, as the index shows it. -/
structure Reservation where
  reservationId : String
  diskName : Option String

/-- What the calls of the client find: the records of a user, the reservations of a user that the
first answer shows for a status, and what the disks are restored from. -/
structure World where
  items : String → List Item
  reservations : String → String → List Reservation
  today : String
  account : Account

/-- Which queries of a listing raise an error. -/
structure Failures where
  disks : Bool := false
  reservations : Bool := false

/-- A time that may be missing. There is an error if it is garbled. -/
def time : Option Stamp → Option (Option ℚ)
  | none => some none
  | some stamp => stamp.time?.map some

/-- The entry of `disks` for a record. -/
def Item.disk (item : Item) : Option Disk := do
  let createdAt ← time item.createdAt
  let lastUsed ← time item.lastUsed
  return {
    name := item.diskName
    sizeGb := item.sizeGb.getD 0
    diskSize := item.diskSize
    createdAt := createdAt
    lastUsed := lastUsed
    snapshotCount := item.snapshotCount.getD 0
    pendingSnapshotCount := item.pendingSnapshotCount.getD 0
    inUse := item.inUse.getD false
    isBackingUp := item.isBackingUp.getD false
    reservationId := truthy item.attachedToReservation
    isDeleted := item.isDeleted.getD false
    deleteDate := truthy item.deleteDate }

/-- `active_disks`, with the last entry for a disk first. -/
def activeDisks (w : World) (user : String) : List (String × String) :=
  (["active", "preparing", "queued", "pending"].flatMap fun status =>
    (w.reservations user status).filterMap fun r => (truthy r.diskName).map fun disk =>
      (disk, String.ofList (r.reservationId.toList.take 8))).reverse

/-- A disk with an active reservation is in use. -/
def marked (w : World) (user : String) (d : Disk) : Disk :=
  match (activeDisks w user).lookup d.name with
  | some reservation => { d with inUse := true, reservationId := some reservation }
  | none => d

/-- The day has come on which the disk is to be deleted. -/
def isExpired (today : String) (d : Disk) : Bool := d.isDeleted && d.deleteDate.any (· ≤ today)

/-- `datetime.min`, in seconds. -/
def datetimeMin : ℚ := -62135596800

/-- `list_disks`. There is an error if the table cannot be read or a time is garbled. -/
def listDisks (w : World) (user : String) (f : Failures) : Option (List Disk) :=
  if f.disks then none
  else ((w.items user).mapM Item.disk).map fun disks =>
    let disks := if f.reservations then disks else disks.map (marked w user)
    (disks.filter fun d => !isExpired w.today d).insertionSort fun d d' =>
      d'.lastUsed.getD datetimeMin ≤ d.lastUsed.getD datetimeMin

/-! ### Restoring -/

/-- What a reservation naming the disk restores: nothing if it gets no volume, otherwise the id of
the snapshot, if there is one. -/
def restored (a : Account) (user disk : String) : Option (Option String) :=
  match (DiskRestores.createDiskFromSnapshotOrEmpty a user "" (some disk) false 0).result with
  | .ok (volume, _) => some (volume.source.map Snapshot.id)
  | .error _ => none

/-- The snapshots of the disk, in any state. -/
def snapshotsOf (a : Account) (user disk : String) : List Snapshot :=
  a.snapshots.filter fun s =>
    s.tag "gpu-dev-user" == some user && s.tag "disk_name" == some disk

/-! ### `rename_disk` -/

/-- `re.match(r'^[a-zA-Z0-9_-]+$', new_name)`. The end may stand before a newline. -/
def isValidName (name : String) : Bool :=
  let cs := if name.toList.getLast? = some '\n' then name.toList.dropLast else name.toList
  cs ≠ [] ∧ ∀ c ∈ cs, c.isAlphanum ∨ c = '_' ∨ c = '-'

/-- What becomes of a call of `create_tags`. -/
inductive Tagging
  | done
  | raisedAfter
  | raisedBefore
  deriving DecidableEq

/-- What becomes of the calls of a rename: which queries of its listing raise an error, how many
snapshots the answer of `describe_snapshots` has, if it has any, and the tagging of each. -/
structure Calls where
  failures : Failures := {}
  firstPage : Option ℕ
  tagging : String → Tagging

/-- The snapshot with another `disk_name`. -/
def named (name : String) (s : Snapshot) : Snapshot :=
  { s with tags := ("disk_name", name) :: s.tags.filter fun tag => tag.1 ≠ "disk_name" }

/-- `create_tags`, on the snapshots. -/
def retag (name id : String) (snapshots : List Snapshot) : List Snapshot :=
  snapshots.map fun s => if s.id = id then named name s else s

theorem ids_retag (name id : String) (snapshots : List Snapshot) :
    (retag name id snapshots).map Snapshot.id = snapshots.map Snapshot.id := by
  rw [retag, List.map_map]
  refine List.map_congr_left fun s _ => ?_
  rw [Function.comp_apply]
  split_ifs <;> rfl

/-- A call of `create_tags`. -/
def createTags (c : Calls) (name : String) (a : Account) (s : Snapshot) : Account :=
  if c.tagging s.id = .raisedBefore then a
  else { a with
    snapshots := retag name s.id a.snapshots
    ids := (ids_retag name s.id a.snapshots).symm ▸ a.ids }

/-- The tagging loop. A call that raises an error is passed over. -/
def tagAll (c : Calls) (name : String) (page : List Snapshot) (w : World) : World :=
  { w with account := page.foldl (createTags c name) w.account }

/-- `rename_disk`: what there is afterwards, and the result, unless an error is raised. -/
def renameDisk (w : World) (c : Calls) (user old new : String) : World × Option Bool :=
  if !isValidName new then (w, some false)
  else match listDisks w user c.failures with
    | none => (w, none)
    | some disks =>
      match disks.find? fun d => d.name = old with
      | none => (w, some false)
      | some oldDisk =>
        if disks.any fun d => d.name = new then (w, some false)
        else if oldDisk.inUse then (w, some false)
        else match c.firstPage with
          | none => (w, some false)
          | some n =>
            match (snapshotsOf w.account user old).take n with
            | [] => (w, some false)
            | page => (tagAll c new page w, some true)

/-! ### What a rename is for -/

/-- The disk is the same under its new name: it is listed as it was, it restores the snapshot that
it restored, and nothing is left of the old name. -/
structure IsRenamed (w w' : World) (user old new : String) : Prop where
  listed : ∀ f before after, listDisks w user f = some before → listDisks w' user f = some after →
    (∀ d ∈ before, d.name = old → { d with name := new } ∈ after) ∧ ∀ d ∈ after, d.name ≠ old
  restored : restored w'.account user new = restored w.account user old
  left : snapshotsOf w'.account user old = []

/-- What the old name stands for has not changed. -/
structure IsUnchanged (w w' : World) (user old : String) : Prop where
  listed : ∀ f, listDisks w' user f = listDisks w user f
  restored : restored w'.account user old = restored w.account user old

/-- The result of the rename is true. -/
structure KeepsDisk (w : World) (c : Calls) (user old new : String) : Prop where
  renamed : (renameDisk w c user old new).2 = some true →
    IsRenamed w (renameDisk w c user old new).1 user old new
  unchanged : (renameDisk w c user old new).2 = some false →
    IsUnchanged w (renameDisk w c user old new).1 user old

/-- The rename comes to the tags: the new name is a valid one that is not listed, the old one is
listed and not in use, and the first answer shows a snapshot of it. -/
structure ComesToTags (w : World) (c : Calls) (user old new : String) (disks : List Disk) (n : ℕ) :
    Prop where
  valid : isValidName new = true
  listed : listDisks w user c.failures = some disks
  exists_old : ∃ d, disks.find? (fun d => d.name = old) = some d ∧ d.inUse = false
  ne_new : ∀ d ∈ disks, d.name ≠ new
  described : c.firstPage = some n
  shown : (snapshotsOf w.account user old).take n ≠ []

variable {w : World} {c : Calls} {user old new : String}

theorem renameDisk_of_comesToTags {disks : List Disk} {n : ℕ}
    (h : ComesToTags w c user old new disks n) :
    renameDisk w c user old new =
      (tagAll c new ((snapshotsOf w.account user old).take n) w, some true) := by
  obtain ⟨d, hfind, hfree⟩ := h.exists_old
  have hnew : (disks.any fun d => d.name = new) = false := by
    rw [List.any_eq_false]
    exact fun d hd => by simpa using h.ne_new d hd
  obtain ⟨first, rest, hpage⟩ := List.exists_cons_of_ne_nil h.shown
  simp only [renameDisk, h.valid, h.listed, hfind, hnew, hfree, h.described, hpage]
  rfl

/-- Otherwise nothing is done, and the result is not true. -/
theorem renameDisk_of_not (h : ∀ disks n, ¬ ComesToTags w c user old new disks n) :
    (renameDisk w c user old new).1 = w ∧ (renameDisk w c user old new).2 ≠ some true := by
  have hno : (some false : Option Bool) ≠ some true := by decide
  unfold renameDisk
  split_ifs with hvalid
  · exact ⟨rfl, hno⟩
  split
  case h_1 => exact ⟨rfl, by simp⟩
  case h_2 disks hlist =>
    split
    case h_1 => exact ⟨rfl, hno⟩
    case h_2 oldDisk hfind =>
      split_ifs with hnew huse
      · exact ⟨rfl, hno⟩
      · exact ⟨rfl, hno⟩
      split
      case h_1 => exact ⟨rfl, hno⟩
      case h_2 n hpage =>
        split
        case h_1 => exact ⟨rfl, hno⟩
        case h_2 hshown =>
          exact absurd ⟨by simpa using hvalid, hlist, ⟨oldDisk, hfind, by simpa using huse⟩,
            by simpa using hnew, hpage, hshown⟩ (h disks n)

/-- Renaming a disk keeps it only where the rename does not come to the tags: the record of the disk
stays under the old name. -/
theorem keepsDisk_iff (w : World) (c : Calls) (user old new : String) :
    KeepsDisk w c user old new ↔ ∀ disks n, ¬ ComesToTags w c user old new disks n := by
  constructor
  · intro h disks n htags
    have hrename := renameDisk_of_comesToTags htags
    have hrenamed := h.renamed (congrArg Prod.snd hrename)
    rw [hrename] at hrenamed
    obtain ⟨d, hfind, -⟩ := htags.exists_old
    have hgone := (hrenamed.listed c.failures disks disks htags.listed htags.listed).2
    exact hgone d (List.mem_of_find?_eq_some hfind) (by simpa using List.find?_some hfind)
  · intro h
    obtain ⟨hworld, hresult⟩ := renameDisk_of_not h
    refine ⟨fun htrue => absurd htrue hresult, fun _ => ?_⟩
    rw [hworld]
    exact ⟨fun _ => rfl, rfl⟩

/-- A disk with a snapshot, which is given its new name. -/
def oneSnapshot : World where
  items _ := [{ diskName := "old" }]
  reservations _ _ := []
  today := "2026-01-01"
  account := {
    volumes := fun _ => []
    snapshots := [⟨"snap-1", .completed, 0, none,
      [("gpu-dev-user", "octocat"), ("disk_name", "old")]⟩]
    ids := List.nodup_singleton _
    files := fun _ => ∅
    cloneSource := fun _ => none }

/-- The disk is still listed under its old name. -/
theorem not_keepsDisk :
    ¬ KeepsDisk oneSnapshot { firstPage := some 1, tagging := fun _ => .done } "octocat" "old"
      "new" := by
  intro h
  have hlisted := (h.renamed rfl).listed {} _ _ rfl rfl
  exact hlisted.2 _ List.mem_cons_self rfl

/-! ### The snapshots -/

/-- The ids of the snapshots that are tagged. -/
def taken (c : Calls) (page : List Snapshot) : List String :=
  (page.filter fun s => c.tagging s.id ≠ .raisedBefore).map Snapshot.id

theorem lookup_filter_ne {key name : String} (h : key ≠ name) (tags : List (String × String)) :
    (tags.filter fun tag => tag.1 ≠ name).lookup key = tags.lookup key := by
  induction tags with
  | nil => rfl
  | cons tag tags ih =>
    rw [List.filter_cons]
    split_ifs with hkept
    · rw [List.lookup_cons, List.lookup_cons, ih]
    · have hname : tag.1 = name := by simpa using hkept
      rw [List.lookup_cons, ih, beq_false_of_ne (hname ▸ h)]

theorem tag_named_disk {name : String} {s : Snapshot} :
    (named name s).tag "disk_name" = some name :=
  List.lookup_cons_self

theorem tag_named {name key : String} {s : Snapshot} (h : key ≠ "disk_name") :
    (named name s).tag key = s.tag key := by
  rw [Snapshot.tag, named, List.lookup_cons, beq_false_of_ne h]
  exact lookup_filter_ne h s.tags

theorem named_named {name : String} {s : Snapshot} : named name (named name s) = named name s := by
  simp [named, List.filter_filter]

theorem mem_taken_cons {c : Calls} {first : Snapshot} {page : List Snapshot} {id : String} :
    id ∈ taken c (first :: page) ↔
      id = first.id ∧ c.tagging first.id ≠ .raisedBefore ∨ id ∈ taken c page := by
  rw [taken, List.filter_cons]
  split_ifs with h
  · simp [taken, of_decide_eq_true h]
  · have h : c.tagging first.id = .raisedBefore := by simpa using h
    simp [taken, h]

/-- A snapshot has its new tag if one of the calls for it was carried out. -/
theorem snapshots_foldl (c : Calls) (name : String) (page : List Snapshot) (a : Account) :
    (page.foldl (createTags c name) a).snapshots =
      a.snapshots.map fun s => if s.id ∈ taken c page then named name s else s := by
  induction page generalizing a with
  | nil => simp [taken]
  | cons first page ih =>
    rw [List.foldl_cons, ih, createTags]
    split_ifs with hraised
    · refine List.map_congr_left fun s _ => ?_
      simp only [mem_taken_cons, hraised, ne_eq, not_true_eq_false, and_false, false_or]
    · simp only [retag, List.map_map]
      refine List.map_congr_left fun s _ => ?_
      simp only [Function.comp_apply, mem_taken_cons, hraised, ne_eq, not_false_eq_true, and_true]
      by_cases hs : s.id = first.id
      · have hid : (named name s).id = first.id := hs
        simp only [hs, if_true, true_or, hid]
        split_ifs
        · exact named_named
        · rfl
      · simp only [hs, if_false, false_or]

theorem volumes_foldl (c : Calls) (name : String) (page : List Snapshot) (a : Account) :
    (page.foldl (createTags c name) a).volumes = a.volumes := by
  induction page generalizing a with
  | nil => rfl
  | cons first page ih =>
    rw [List.foldl_cons, ih, createTags]
    split_ifs <;> rfl

/-- The snapshots that keep the old name are those that are not tagged. -/
theorem snapshotsOf_tagAll (hne : old ≠ new) (page : List Snapshot) :
    snapshotsOf (tagAll c new page w).account user old =
      (snapshotsOf w.account user old).filter fun s => s.id ∉ taken c page := by
  rw [snapshotsOf, snapshotsOf, tagAll, snapshots_foldl, List.filter_map, List.filter_filter]
  have hkeep : ∀ s : Snapshot,
      ((fun s => s.tag "gpu-dev-user" == some user && s.tag "disk_name" == some old) ∘
        fun s => if s.id ∈ taken c page then named new s else s) s =
      (decide (s.id ∉ taken c page) &&
        (s.tag "gpu-dev-user" == some user && s.tag "disk_name" == some old)) := by
    intro s
    rw [Function.comp_apply]
    split_ifs with hs
    · simp [tag_named_disk, hs, hne.symm]
    · simp [hs]
  rw [List.filter_congr fun s _ => hkeep s]
  refine (List.map_congr_left fun s hs => ?_).trans (List.map_id _)
  have hs : s.id ∉ taken c page :=
    of_decide_eq_true (Bool.and_eq_true_iff.mp (List.mem_filter.mp hs).2).1
  rw [if_neg hs, id]

/-- The answers of a rename of which everything goes through. -/
def allDone : Calls where
  firstPage := some 1
  tagging _ := .done

/-- All snapshots of the disk come with the first answer and are tagged, and none had the new name
before. -/
structure MovesAll (w : World) (c : Calls) (user old new : String) (n : ℕ) : Prop where
  old_ne : old ≠ ""
  new_ne : new ≠ ""
  none_new : snapshotsOf w.account user new = []
  shown : (snapshotsOf w.account user old).length ≤ n
  tagged : ∀ s ∈ snapshotsOf w.account user old, c.tagging s.id ≠ .raisedBefore

section MovesAll

variable {n : ℕ} (h : MovesAll w c user old new n)

include h

theorem MovesAll.mem_taken_iff {s : Snapshot} (hs : s ∈ w.account.snapshots) :
    s.id ∈ taken c ((snapshotsOf w.account user old).take n) ↔
      s ∈ snapshotsOf w.account user old := by
  rw [List.take_of_length_le h.shown, taken]
  constructor
  · intro htaken
    obtain ⟨t, ht, hid⟩ := List.mem_map.mp htaken
    have ht := (List.mem_filter.mp ht).1
    have heq : t = s :=
      List.inj_on_of_nodup_map w.account.ids (List.mem_of_mem_filter ht) hs hid
    exact heq ▸ ht
  · intro hold
    exact List.mem_map_of_mem (List.mem_filter.mpr ⟨hold, decide_eq_true (h.tagged s hold)⟩)

/-- The snapshots with the new name are those that had the old one. -/
theorem MovesAll.filter_isListed (state : State) :
    (tagAll c new ((snapshotsOf w.account user old).take n) w).account.snapshots.filter
        (isListed user (some new) state) =
      (w.account.snapshots.filter (isListed user (some old) state)).map (named new) := by
  have hname : ∀ {name : String}, name ≠ "" → truthy (some name) = some name := by
    intro name hname
    simp [truthy, hname]
  have hbelongs : ∀ {s : Snapshot} {name : String}, name ≠ "" →
      isListed user (some name) state s =
        ((s.tag "gpu-dev-user" == some user && s.tag "disk_name" == some name) &&
          s.state == state) := by
    intro s name hne
    simp only [isListed, hname hne, Option.all_some]
    rw [Bool.and_right_comm]
  rw [tagAll, snapshots_foldl, List.filter_map]
  have hlisted : ∀ s ∈ w.account.snapshots,
      (isListed user (some new) state ∘ fun s =>
        if s.id ∈ taken c ((snapshotsOf w.account user old).take n) then named new s else s) s =
      isListed user (some old) state s := by
    intro s hs
    rw [Function.comp_apply, hbelongs h.new_ne, hbelongs h.old_ne]
    split_ifs with htaken
    · have hold := (List.mem_filter.mp ((h.mem_taken_iff hs).mp htaken)).2
      rw [hold, tag_named_disk, tag_named (by decide), (Bool.and_eq_true_iff.mp hold).1,
        beq_self_eq_true, Bool.and_true]
      rfl
    · have hold := mt (h.mem_taken_iff hs).mpr htaken
      have hnew : s ∉ snapshotsOf w.account user new := by
        rw [h.none_new]
        exact List.not_mem_nil
      rw [snapshotsOf, List.mem_filter, not_and] at hold hnew
      rw [Bool.eq_false_iff.mpr (hold hs), Bool.eq_false_iff.mpr (hnew hs)]
  rw [List.filter_congr hlisted]
  refine List.map_congr_left fun s hs => if_pos ?_
  obtain ⟨hs, hold⟩ := List.mem_filter.mp hs
  rw [hbelongs h.old_ne] at hold
  exact (h.mem_taken_iff hs).mpr (List.mem_filter.mpr ⟨hs, (Bool.and_eq_true_iff.mp hold).1⟩)

end MovesAll

theorem firstMax_map {α : Type} {key : α → ℤ} {f : α → α} (hkey : ∀ x, key (f x) = key x)
    (l : List α) : firstMax key (l.map f) = (firstMax key l).map f := by
  cases l with
  | nil => rfl
  | cons first l =>
    simp only [firstMax, List.map_cons, List.foldl_map, Option.map_some, Option.some.injEq, hkey]
    induction l generalizing first with
    | nil => rfl
    | cons x l ih =>
      rw [List.foldl_cons, List.foldl_cons, ← ih]
      simp only [hkey]
      split_ifs <;> rfl

theorem movesAll_oneSnapshot : MovesAll oneSnapshot allDone "octocat" "old" "new" 1 where
  old_ne := by decide
  new_ne := by decide
  none_new := rfl
  shown := le_rfl
  tagged _ _ := nofun

end CiInfra.GpuDev.DiskRenames

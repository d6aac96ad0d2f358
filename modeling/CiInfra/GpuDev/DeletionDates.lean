import CiInfra.GpuDev.SoftDeletions

/-!
# Dates that are spread and snapshots that are purged

A date is put only on snapshots that were listed for a disk that was shown to be deleted with that
date, and only snapshots whose date has come are purged. A snapshot that was requested for a disk
which has not been used since its deletion was requested before that deletion.
-/

namespace CiInfra.GpuDev.SoftDeletions

open Interaction Program Fallible
open SnapshotBookkeeping (DiskKey truthy)

/-! ### What was requested before a deletion -/

/-- The snapshot was requested before a deletion of its disk with such a date. -/
def RequestedBefore (id : String) (dates : String → Prop) : List Deed → Prop
  | [] => False
  | .deleted key date :: earlier =>
    dates date ∧ .requested id key ∈ earlier ∨ RequestedBefore id dates earlier
  | _ :: earlier => RequestedBefore id dates earlier

/-- The disk has been used again: a snapshot was requested after its last deletion with this
date. -/
def isReused (key : DiskKey) (date : String) : List Deed → Bool
  | [] => false
  | .deleted other date' :: earlier => !(other == key && date' == date) && isReused key date earlier
  | .requested _ other :: earlier => other == key || isReused key date earlier
  | _ :: earlier => isReused key date earlier

theorem RequestedBefore.mono {id : String} {dates dates' : String → Prop} {deeds : List Deed}
    (h : RequestedBefore id dates deeds) (hdates : ∀ date, dates date → dates' date) :
    RequestedBefore id dates' deeds := by
  induction deeds with
  | nil => exact h
  | cons deed earlier ih =>
    cases deed with
    | deleted => exact h.imp (fun hd => ⟨hdates _ hd.1, hd.2⟩) ih
    | _ => exact ih h

theorem RequestedBefore.append {id : String} {dates : String → Prop} {deeds : List Deed}
    (h : RequestedBefore id dates deeds) (later : List Deed) :
    RequestedBefore id dates (later ++ deeds) := by
  induction later with
  | nil => exact h
  | cons deed later ih =>
    cases deed with
    | deleted => exact Or.inr ih
    | _ => exact ih

/-- What was requested for a disk that has not been used since a deletion was requested before
that. -/
theorem requestedBefore_of_not_isReused {id date : String} {key : DiskKey} {deeds : List Deed}
    (hreused : isReused key date deeds = false) (hdeleted : .deleted key date ∈ deeds)
    (hrequested : .requested id key ∈ deeds) : RequestedBefore id (· = date) deeds := by
  induction deeds with
  | nil => cases hdeleted
  | cons deed earlier ih =>
    cases deed with
    | deleted other date' =>
      have hearlier : .requested id key ∈ earlier := by simpa using hrequested
      by_cases hsame : other = key ∧ date' = date
      · obtain ⟨rfl, rfl⟩ := hsame
        exact Or.inl ⟨rfl, hearlier⟩
      · refine Or.inr (ih ?_ ?_ hearlier)
        · have hother : (other == key && date' == date) = false := by
            simpa [Bool.and_eq_false_iff, not_and_or] using hsame
          simpa [isReused, hother] using hreused
        · rcases List.mem_cons.mp hdeleted with heq | hmem
          · cases heq
            exact absurd ⟨rfl, rfl⟩ hsame
          · exact hmem
    | requested id' other =>
      obtain ⟨hother, hreused⟩ : other ≠ key ∧ isReused key date earlier = false := by
        simpa [isReused] using hreused
      refine ih hreused (by simpa using hdeleted) ?_
      rcases List.mem_cons.mp hrequested with heq | hmem
      · cases heq
        exact absurd rfl hother
      · exact hmem
    | _ => exact ih hreused (by simpa using hdeleted) (by simpa using hrequested)

/-! ### What the programs know -/

/-- A call with its answer. -/
abbrev Call := Program.Event Op Op.Res

def deletedDates (answer : Except String (List (DiskKey × Item))) : List (DiskKey × String) :=
  (answer.toOption.getD []).filterMap fun x => x.2.deleteDate.map fun date => (x.1, date)

def markedDate (answer : Except String Unit) (key : DiskKey) (date : String) :
    List (DiskKey × String) :=
  if answer.toOption.isSome then [(key, date)] else []

def listedIds (answer : Except String (List Snapshot)) : List String :=
  (answer.toOption.getD []).map Snapshot.id

def listedTags (answer : Except String (List Snapshot)) : List (String × String) :=
  (answer.toOption.getD []).filterMap fun s => s.deleteDate.map fun date => (s.id, date)

/-- The deletions that an answer shows. -/
def Op.showsDeleted : (op : Op) → op.Res → List (DiskKey × String)
  | .scanDeleted, answer => deletedDates answer
  | .markDeleted key date _, answer => markedDate answer key date
  | _, _ => []

/-- The snapshots that an answer shows to be of the disk. -/
def Op.lists (key : DiskKey) : (op : Op) → op.Res → List String
  | .describeOf key', answer => if key' = key then listedIds answer else []
  | _, _ => []

/-- The dates that an answer shows on snapshots. -/
def Op.showsTags : (op : Op) → op.Res → List (String × String)
  | .describeTagged, answer => listedTags answer
  | _, _ => []

/-- The day that an answer gives. -/
def Op.tellsDay : (op : Op) → op.Res → Option String
  | .today, day => some day
  | _, _ => none

/-- A date is put on a snapshot of a disk that was shown to be deleted with that date, a snapshot is
deleted whose date has come, and an item that is put in the table is not marked. -/
def Justified (past : List Call) : Op → Prop
  | .createTags id date _ => ∃ key, (∃ c ∈ past, (key, date) ∈ c.1.showsDeleted c.2) ∧
      ∃ c ∈ past, id ∈ c.1.lists key c.2
  | .deleteSnapshot id => ∃ date, (∃ c ∈ past, (id, date) ∈ c.1.showsTags c.2) ∧
      ∃ c ∈ past, ∃ day ∈ c.1.tellsDay c.2, date ≤ day
  | .putIfAbsent _ item => item.deleteDate = none
  | _ => True

/-- The call needs nothing to be known. -/
def Op.isPlain : Op → Bool
  | .createTags _ _ _ | .deleteSnapshot _ | .putIfAbsent _ _ => false
  | _ => true

theorem justified_of_isPlain {past : List Call} {op : Op} (h : op.isPlain = true) :
    Justified past op := by
  cases op <;> trivial

/-- Something that has been shown. -/
def Known (shows : Call → Prop) (past : List Call) : Prop := ∃ c ∈ past, shows c

theorem Known.cons {shows : Call → Prop} {past : List Call} (h : Known shows past) (c : Call) :
    Known shows (c :: past) := h.imp fun _ hd => ⟨List.mem_cons_of_mem _ hd.1, hd.2⟩

/-- Whatever it gives or raises, each call of the program is justified. -/
def IsJustified {α : Type} (past : List Call) (p : Lambda α) : Prop :=
  p.Heeds Justified (fun _ _ => True) (fun _ _ => True) past

theorem isJustified_of_isPlain {α : Type} {p : Lambda α} (past : List Call)
    (hp : p.Issues fun op => op.isPlain = true) : IsJustified past p :=
  hp.heeds (K := fun _ => True) (fun _ _ _ hop => justified_of_isPlain hop)
    (fun _ _ _ _ _ => trivial) trivial

theorem IsJustified.orElseGive {α : Type} {p : Lambda α} {past : List Call}
    (hp : IsJustified past p) (a : α) : IsJustified past (p.orElseGive a) :=
  Heeds.orElseGive hp fun _ _ _ => trivial

theorem IsJustified.bind {α β : Type} {p : Lambda α} {f : α → Lambda β} {past : List Call}
    (hp : IsJustified past p) (hf : ∀ past a, IsJustified past (f a)) :
    IsJustified past (p >>= f) := Heeds.bind hp fun past a _ => hf past a

/-- The steps of a loop, each of which is justified by what was known before. -/
theorem isJustified_sum {β : Type} {K : List Call → Prop} {f : β → Lambda ℕ} {bs : List β}
    {past : List Call} (hkeep : ∀ past c, K past → K (c :: past)) (hK : K past)
    (hf : ∀ b ∈ bs, ∀ past, K past → IsJustified past (f b)) :
    IsJustified past (do
      let ns ← collect f bs
      return ns.sum) := by
  have hloop : (collect f bs).Heeds Justified (fun past _ => K past) (fun past _ => K past) past :=
    Heeds.collect (fun b hb past hK => ((hf b hb past hK).keeps hkeep hK).mono
      (fun _ _ h => h.2) fun _ _ h => h.2) hK
  have hjustified : IsJustified past (collect f bs) :=
    hloop.mono (fun _ _ _ => trivial) fun _ _ _ => trivial
  exact hjustified.bind fun _ _ => trivial

theorem isJustified_tagSnapshotsOf {key : DiskKey} {date : String} {markedAt : Lambda String}
    {past : List Call} (hmarked : markedAt.Issues fun op => op.isPlain = true)
    (hdeleted : Known (fun c => (key, date) ∈ c.1.showsDeleted c.2) past) :
    IsJustified past (tagSnapshotsOf key date markedAt) := by
  refine IsJustified.orElseGive ?_ _
  have hlist : (ask (.describeOf key) id).Heeds Justified
      (fun past snapshots => Known (fun c => (key, date) ∈ c.1.showsDeleted c.2) past ∧
        ∀ s ∈ snapshots, Known (fun c => s.id ∈ c.1.lists key c.2) past)
      (fun _ _ => True) past := by
    refine heeds_request trivial (fun r snapshots hr => ⟨hdeleted.cons _, fun s hs => ?_⟩)
      fun _ _ _ => trivial
    obtain rfl : r = .ok snapshots := hr
    refine ⟨_, List.mem_cons_self, ?_⟩
    change s.id ∈ if key = key then snapshots.map Snapshot.id else []
    rw [if_pos rfl]
    exact List.mem_map_of_mem hs
  refine hlist.bind fun past snapshots hknown => ?_
  refine isJustified_sum (K := fun past =>
    Known (fun c => (key, date) ∈ c.1.showsDeleted c.2) past ∧
      ∀ s ∈ snapshots, Known (fun c => s.id ∈ c.1.lists key c.2) past)
    (fun past c hK => ⟨hK.1.cons c, fun s hs => (hK.2 s hs).cons c⟩) hknown fun s hs past hK => ?_
  unfold tagSnapshot
  split
  · exact trivial
  · refine IsJustified.orElseGive ?_ _
    have hmark : markedAt.Heeds Justified
        (fun past _ => Known (fun c => (key, date) ∈ c.1.showsDeleted c.2) past ∧
          Known (fun c => s.id ∈ c.1.lists key c.2) past) (fun _ _ => True) past :=
      ((isJustified_of_isPlain past hmarked).keeps
        (K := fun past => Known (fun c => (key, date) ∈ c.1.showsDeleted c.2) past ∧
          Known (fun c => s.id ∈ c.1.lists key c.2) past)
        (fun past c hK => ⟨hK.1.cons c, hK.2.cons c⟩) ⟨hK.1, hK.2 s hs⟩).mono
        (fun _ _ h => h.2) fun _ _ _ => trivial
    refine hmark.bind fun past m hK => ?_
    have htag : IsJustified past (ask (.createTags s.id date m) id) :=
      heeds_request ⟨key, hK⟩ (fun _ _ _ => trivial) fun _ _ _ => trivial
    exact htag.bind fun _ _ => trivial

theorem eq_some_of_truthy {text : Option String} {value : String} (h : truthy text = some value) :
    text = some value := by
  rw [truthy, Option.filter_eq_some_iff] at h
  exact h.1

theorem isJustified_syncDiskDeletedSnapshots : IsJustified [] syncDiskDeletedSnapshots := by
  refine IsJustified.orElseGive ?_ _
  have hscan : (ask .scanDeleted id).Heeds Justified
      (fun past disks => ∀ x ∈ disks, ∀ date, x.2.deleteDate = some date →
        Known (fun c => (x.1, date) ∈ c.1.showsDeleted c.2) past)
      (fun _ _ => True) [] := by
    refine heeds_request trivial (fun r disks hr x hx date hdate => ?_) fun _ _ _ => trivial
    obtain rfl : r = .ok disks := hr
    exact ⟨_, List.mem_cons_self, List.mem_filterMap.mpr ⟨x, hx, by rw [hdate]; rfl⟩⟩
  refine hscan.bind fun past disks hknown => ?_
  refine isJustified_sum (K := fun past => ∀ x ∈ disks, ∀ date, x.2.deleteDate = some date →
      Known (fun c => (x.1, date) ∈ c.1.showsDeleted c.2) past)
    (fun past c hK x hx date hdate => (hK x hx date hdate).cons c) hknown fun x hx past hK => ?_
  have hclock : wallClock.Issues fun op => op.isPlain = true := issues_request rfl
  unfold syncDeletedDisk
  split
  · rename_i user name date huser hname hdate
    have hkey : x.1 = (user, name) := Prod.ext (Option.some.inj (eq_some_of_truthy huser))
      (Option.some.inj (eq_some_of_truthy hname))
    exact isJustified_tagSnapshotsOf (hclock.bind fun _ => issues_pure _)
      (hkey ▸ hK x hx date (eq_some_of_truthy hdate))
  · exact trivial

theorem isJustified_cleanupSoftDeletedSnapshots :
    IsJustified [] cleanupSoftDeletedSnapshots := by
  have htoday : today.Heeds Justified
      (fun past day => Known (fun c => day ∈ c.1.tellsDay c.2) past) (fun _ _ => True) [] := by
    refine heeds_request trivial (fun r day hr => ?_) fun _ _ _ => trivial
    cases hr
    exact ⟨_, List.mem_cons_self, rfl⟩
  refine htoday.bind fun past day hday => ?_
  refine IsJustified.orElseGive ?_ _
  have hlist : (ask .describeTagged id).Heeds Justified
      (fun past snapshots => Known (fun c => day ∈ c.1.tellsDay c.2) past ∧
        ∀ s ∈ snapshots, ∀ date, s.deleteDate = some date →
          Known (fun c => (s.id, date) ∈ c.1.showsTags c.2) past)
      (fun _ _ => True) past := by
    refine heeds_request trivial (fun r snapshots hr => ⟨hday.cons _, fun s hs date hdate => ?_⟩)
      fun _ _ _ => trivial
    obtain rfl : r = .ok snapshots := hr
    exact ⟨_, List.mem_cons_self, List.mem_filterMap.mpr ⟨s, hs, by rw [hdate]; rfl⟩⟩
  refine hlist.bind fun past snapshots hknown => ?_
  refine isJustified_sum (K := fun past => Known (fun c => day ∈ c.1.tellsDay c.2) past ∧
      ∀ s ∈ snapshots, ∀ date, s.deleteDate = some date →
        Known (fun c => (s.id, date) ∈ c.1.showsTags c.2) past)
    (fun past c hK => ⟨hK.1.cons c, fun s hs date hdate => (hK.2 s hs date hdate).cons c⟩) hknown
    fun s hs past hK => ?_
  unfold purgeSnapshot
  dsimp only
  split
  · rename_i hdue
    obtain ⟨hne, hle⟩ := hdue
    cases hdate : s.deleteDate with
    | none => simp [hdate] at hne
    | some date =>
      rw [hdate] at hle
      obtain ⟨c, hc, hday⟩ := hK.1
      have hpurge : IsJustified past (ask (.deleteSnapshot s.id) id) :=
        heeds_request ⟨date, hK.2 s hs date hdate, c, hc, day, hday, hle⟩
          (fun _ _ _ => trivial) fun _ _ _ => trivial
      refine IsJustified.orElseGive ?_ _
      exact hpurge.bind fun _ _ => trivial
  · exact trivial

theorem isJustified_wallClock (past : List Call) : IsJustified past wallClock :=
  heeds_request trivial (fun _ _ _ => trivial) fun _ _ _ => trivial

theorem isJustified_processDeleteDiskAction (message : Option DeleteMessage) :
    IsJustified [] (processDeleteDiskAction message) := by
  unfold processDeleteDiskAction
  split
  · exact trivial
  · rename_i message
    split
    · rename_i user disk date _ _ _ _
      refine (isJustified_wallClock _).bind fun past now => IsJustified.orElseGive ?_ _
      have hmark : (ask (.markDeleted (user, disk) date
          (message.requestedAt.getD (toString now))) id).Heeds Justified
          (fun past _ => Known (fun c => ((user, disk), date) ∈ c.1.showsDeleted c.2) past)
          (fun _ _ => True) past := by
        refine heeds_request trivial (fun r _ hr => ?_) fun _ _ _ => trivial
        obtain rfl : r = .ok () := hr
        exact ⟨_, List.mem_cons_self, List.mem_cons_self⟩
      refine hmark.bind fun past _ hdeleted => ?_
      exact (isJustified_tagSnapshotsOf (issues_pure _) hdeleted).bind fun _ _ => trivial
    · exact trivial

theorem isJustified_writeOperationResult (operationId : Option String) (status : String)
    (error : Option String) (past : List Call) :
    IsJustified past (writeOperationResult operationId status error) := by
  refine isJustified_of_isPlain past ?_
  unfold writeOperationResult
  split
  · exact Issues.logged (issues_request rfl)
  · exact issues_pure _

theorem isJustified_putIfAbsent {key : DiskKey} {item : Item} (hitem : item.deleteDate = none)
    (past : List Call) :
    IsJustified past (request (.putIfAbsent key item) .ok : Lambda (Except PutFailure Unit)) :=
  heeds_request hitem (fun _ _ _ => trivial) fun _ _ _ => trivial

theorem isJustified_processCreateDiskAction (message : Option CreateMessage) :
    IsJustified [] (processCreateDiskAction message) := by
  unfold processCreateDiskAction
  split
  · exact trivial
  · split
    · refine (isJustified_wallClock _).bind fun past now => ?_
      refine (isJustified_putIfAbsent rfl past).bind fun past put => ?_
      split
      all_goals exact (isJustified_writeOperationResult ..).bind fun _ _ => trivial
    · exact trivial

theorem isJustified_cloneSource (key : DiskKey) (past : List Call) :
    IsJustified past (cloneSource key) := by
  refine isJustified_of_isPlain past ?_
  have hask {α : Type} {op : Op} {answer : op.Res → Except String α} (h : op.isPlain = true) :
      (ask op answer).Issues fun op => op.isPlain = true := issues_request h
  refine (hask rfl).bind fun snapshots => ?_
  split
  · exact issues_pure _
  · refine (hask rfl).bind fun volumes => ?_
    split
    · exact issues_pure _
    · refine (hask rfl).bind fun snapshotId => (hask rfl).bind fun _ => ?_
      refine (hask rfl).bind fun shown => ?_
      split
      · exact issues_throw _
      · exact issues_pure _

theorem isJustified_putClone (user source target : String) (operationId : Option String)
    (snapshotId : String) (past : List Call) :
    IsJustified past (putClone user source target operationId snapshotId) := by
  refine (isJustified_wallClock _).bind fun past now => ?_
  have hitem : IsJustified past (orElseGive (ask (.getItem (user, source)) id) none) :=
    IsJustified.orElseGive (isJustified_of_isPlain _ (issues_request rfl)) _
  refine hitem.bind fun past sourceItem => ?_
  refine (isJustified_putIfAbsent rfl past).bind fun past put => ?_
  split
  · exact (isJustified_writeOperationResult ..).bind fun _ _ => trivial
  · exact (isJustified_writeOperationResult ..).bind fun _ _ => trivial
  · exact heeds_throw trivial

theorem isJustified_processCloneDiskAction (message : Option CloneMessage) :
    IsJustified [] (processCloneDiskAction message) := by
  unfold processCloneDiskAction
  split
  · exact heeds_throw trivial
  · split
    · refine Heeds.tryCatch (E := fun _ _ => True) ?_ fun past text _ =>
        (isJustified_writeOperationResult ..).bind fun _ _ => trivial
      refine (isJustified_cloneSource _ _).bind fun past snapshot => ?_
      split
      · exact isJustified_putClone ..
      · exact (isJustified_writeOperationResult ..).bind fun _ _ => trivial
    · exact trivial

/-- Each call of every operation is justified. -/
theorem Job.heeds (job : Job) : job.program.Heeds Justified (fun _ _ => True) [] := by
  cases job with
  | deleteDisk message => exact (isJustified_processDeleteDiskAction message).toEnd
  | createDisk message => exact (isJustified_processCreateDiskAction message).toEnd
  | cloneDisk message => exact (isJustified_processCloneDiskAction message).toEnd
  | sync => exact isJustified_syncDiskDeletedSnapshots.toEnd
  | cleanUp => exact isJustified_cleanupSoftDeletedSnapshots.toEnd

end CiInfra.GpuDev.SoftDeletions

import CiInfra.GpuDev.BookkeepingOrder
import Mathlib.Order.Basic

/-!
# Runs of the snapshot bookkeeping

Nothing in the item of a disk tells which completions were recorded, and the recording, the look at
the counter and the reset are three calls. The bookkeeping matches the snapshots as long as each of
these calls comes when it can.
-/

namespace CiInfra.GpuDev.SnapshotBookkeeping

open Interaction Program

variable {ι : Type} [DecidableEq ι] {key : DiskKey} {w w' : World}

/-! ### What each update does to the values of a disk -/

namespace World

variable {id : String} {c : Completion} {f : Disk → Disk} {other : DiskKey}

@[simp] theorem disk_updateItem_self :
    (w.updateItem key f).disk key = some (f ((w.disk key).getD {})) := by
  simp [updateItem, disk]

theorem disk_updateItem_of_ne (h : other ≠ key) :
    (w.updateItem key f).disk other = w.disk other := by
  simp [updateItem, disk, Function.update_of_ne h]

theorem disk_raise : (w.raise key id).disk = (w.updateItem key Disk.raise).disk := rfl

theorem disk_record : (w.record key id c).disk = (w.updateItem key (Disk.record · c)).disk := rfl

theorem disk_reset : (w.reset key).disk = (w.updateItem key Disk.reset).disk := rfl

@[simp] theorem pendingCount_raise :
    (w.raise key id).pendingCount key = w.pendingCount key + 1 := by
  rw [pendingCount, disk_raise, disk_updateItem_self, pendingCount]
  cases w.disk key <;> rfl

@[simp] theorem snapshotCount_raise :
    (w.raise key id).snapshotCount key = w.snapshotCount key := by
  rw [snapshotCount, disk_raise, disk_updateItem_self, snapshotCount]
  cases w.disk key <;> rfl

@[simp] theorem isBackingUp_raise : (w.raise key id).isBackingUp key = true := by
  rw [isBackingUp, disk_raise, disk_updateItem_self]
  rfl

@[simp] theorem snapshotCount_record :
    (w.record key id c).snapshotCount key = w.snapshotCount key + 1 := by
  rw [snapshotCount, disk_record, disk_updateItem_self, snapshotCount]
  cases w.disk key <;> rfl

@[simp] theorem isBackingUp_record :
    (w.record key id c).isBackingUp key = w.isBackingUp key := by
  rw [isBackingUp, disk_record, disk_updateItem_self, isBackingUp]
  cases w.disk key <;> rfl

/-- Where there is no counter, a recording leaves it at 0. -/
theorem pendingCount_record (w : World) (key : DiskKey) (id : String) (c : Completion) :
    (w.record key id c).pendingCount key = w.pendingCount key - 1 ∨
      w.pendingCount key = 0 ∧ (w.record key id c).pendingCount key = 0 := by
  rw [pendingCount, pendingCount, disk_record, disk_updateItem_self]
  cases w.disk key with
  | none => exact Or.inr ⟨rfl, rfl⟩
  | some d =>
    cases hd : d.pendingSnapshotCount with
    | none => exact Or.inr ⟨by simp [hd], by simp [Disk.record, hd]⟩
    | some n => exact Or.inl (by simp [Disk.record, hd])

@[simp] theorem pendingCount_reset : (w.reset key).pendingCount key = 0 := by
  rw [pendingCount, disk_reset, disk_updateItem_self]
  rfl

@[simp] theorem snapshotCount_reset : (w.reset key).snapshotCount key = w.snapshotCount key := by
  rw [snapshotCount, disk_reset, disk_updateItem_self, snapshotCount]
  cases w.disk key <;> rfl

theorem raisedOf_raise : (w.raise key id).raisedOf key = id :: w.raisedOf key := by
  simp [raisedOf, raise]

theorem recordedOf_raise : (w.raise key id).recordedOf = w.recordedOf := rfl

theorem raisedOf_record : (w.record key id c).raisedOf = w.raisedOf := rfl

theorem recordedOf_record : (w.record key id c).recordedOf key = id :: w.recordedOf key := by
  simp [recordedOf, record]

theorem mem_recordedOf : id ∈ w.recordedOf key ↔ (key, id) ∈ w.recorded := by
  simp [recordedOf]

end World

/-! ### Books that are kept -/

/-- What the item of a disk says, and what the record of its snapshots says, are the same. -/
structure SameBooks (key : DiskKey) (w w' : World) : Prop where
  pendingCount : w'.pendingCount key = w.pendingCount key
  snapshotCount : w'.snapshotCount key = w.snapshotCount key
  isBackingUp : w'.isBackingUp key = w.isBackingUp key
  raisedOf : w'.raisedOf key = w.raisedOf key
  recordedOf : w'.recordedOf key = w.recordedOf key

theorem SameBooks.refl (key : DiskKey) (w : World) : SameBooks key w w := ⟨rfl, rfl, rfl, rfl, rfl⟩

theorem SameBooks.of_disk (hdisk : w'.disk key = w.disk key)
    (hraised : w'.raisedOf key = w.raisedOf key)
    (hrecorded : w'.recordedOf key = w.recordedOf key) : SameBooks key w w' where
  pendingCount := by rw [World.pendingCount, hdisk, World.pendingCount]
  snapshotCount := by rw [World.snapshotCount, hdisk, World.snapshotCount]
  isBackingUp := by rw [World.isBackingUp, hdisk, World.isBackingUp]
  raisedOf := hraised
  recordedOf := hrecorded

/-- An update of one disk leaves the books of another. -/
theorem SameBooks.raise {other : DiskKey} {id : String} (h : other ≠ key) :
    SameBooks key w (w.raise other id) :=
  .of_disk (World.disk_updateItem_of_ne h.symm) (by simp [World.raisedOf, World.raise, h]) rfl

theorem SameBooks.record {other : DiskKey} {id : String} {c : Completion} (h : other ≠ key) :
    SameBooks key w (w.record other id c) := by
  refine .of_disk ?_ rfl (by simp [World.recordedOf, World.record, h])
  rw [World.disk_record]
  exact World.disk_updateItem_of_ne h.symm

theorem SameBooks.reset {other : DiskKey} (h : other ≠ key) : SameBooks key w (w.reset other) :=
  .of_disk (World.disk_updateItem_of_ne h.symm) rfl rfl

theorem SameBooks.addSnapshot (key : DiskKey) (w : World) (snapshot : Snapshot) :
    SameBooks key w (w.addSnapshot snapshot) := .of_disk rfl rfl rfl

theorem Surroundings.sameBooks (h : Surroundings w w') (key : DiskKey) : SameBooks key w w' where
  pendingCount := congrFun h.pendingCount key
  snapshotCount := congrFun h.snapshotCount key
  isBackingUp := congrFun h.isBackingUp key
  raisedOf := by rw [World.raisedOf, h.raised, World.raisedOf]
  recordedOf := by rw [World.recordedOf, h.recorded, World.recordedOf]

namespace World

/-- The counter is above 0, so the flag stays, or the flag has been cleared already. -/
def HasNothingToClear (w : World) (key : DiskKey) : Prop :=
  0 < w.pendingCount key ∨ w.pendingCount key = 0 ∧ w.isBackingUp key = false

instance (w : World) (key : DiskKey) : Decidable (w.HasNothingToClear key) :=
  inferInstanceAs (Decidable (_ ∨ _))

/-- What is kept in the middle of an update too. A counter that has become negative counts as 0. -/
structure Counts (w : World) (key : DiskKey) : Prop where
  pending : (w.pendingCount key).toNat = (w.pendingSnapshots key).length
  count : w.snapshotCount key = (w.recordedOf key).length
  nodup : (w.recordedOf key).Nodup
  flag : w.isBackingUp key = false → w.pendingCount key ≤ 0

/-- The bookkeeping of a disk matches its snapshots. -/
structure Matches (w : World) (key : DiskKey) : Prop where
  pending : w.pendingCount key = (w.pendingSnapshots key).length
  count : w.snapshotCount key = (w.recordedOf key).length
  nodup : (w.recordedOf key).Nodup
  flag : w.isBackingUp key = true ↔ 0 < w.pendingCount key

theorem Matches.counts (h : w.Matches key) : w.Counts key where
  pending := by rw [h.pending, Int.toNat_natCast]
  count := h.count
  nodup := h.nodup
  flag := fun hflag => not_lt.mp fun hpos => by simp [h.flag.mpr hpos] at hflag

theorem Matches.hasNothingToClear (h : w.Matches key) : w.HasNothingToClear key := by
  have hpending := h.pending
  cases hflag : w.isBackingUp key with
  | true => exact Or.inl (h.flag.mp hflag)
  | false =>
    have hle := h.counts.flag hflag
    exact Or.inr ⟨by omega, hflag⟩

theorem Counts.matches (h : w.Counts key) (hclear : w.HasNothingToClear key) : w.Matches key where
  pending := by
    rw [← h.pending, Int.toNat_of_nonneg]
    rcases hclear with hpos | ⟨hzero, -⟩
    · exact hpos.le
    · exact hzero.ge
  count := h.count
  nodup := h.nodup
  flag := by
    rcases hclear with hpos | ⟨hzero, hflag⟩
    · refine iff_of_true ?_ hpos
      by_contra hflag
      have hle := h.flag (by simpa using hflag)
      omega
    · exact iff_of_false (by simp [hflag]) (by omega)

theorem pendingSnapshots_congr (h : SameBooks key w w') :
    w'.pendingSnapshots key = w.pendingSnapshots key := by
  rw [pendingSnapshots, h.raisedOf, h.recordedOf, pendingSnapshots]

theorem Counts.congr (h : w.Counts key) (hsame : SameBooks key w w') : w'.Counts key where
  pending := by rw [hsame.pendingCount, pendingSnapshots_congr hsame, h.pending]
  count := by rw [hsame.snapshotCount, hsame.recordedOf, h.count]
  nodup := by
    rw [hsame.recordedOf]
    exact h.nodup
  flag := by
    rw [hsame.isBackingUp, hsame.pendingCount]
    exact h.flag

theorem HasNothingToClear.congr (h : w.HasNothingToClear key) (hsame : SameBooks key w w') :
    w'.HasNothingToClear key := by
  rw [HasNothingToClear, hsame.pendingCount, hsame.isBackingUp]
  exact h

theorem Counts.raise {id : String} (h : w.Counts key) (hpos : 0 ≤ w.pendingCount key)
    (hid : id ∉ w.recordedOf key) : (w.raise key id).Counts key where
  pending := by
    have hpending := h.pending
    rw [pendingSnapshots, raisedOf_raise, recordedOf_raise, List.filter_cons_of_pos (by simpa),
      List.length_cons, pendingCount_raise, ← pendingSnapshots]
    omega
  count := by rw [snapshotCount_raise, recordedOf_raise, h.count]
  nodup := h.nodup
  flag := fun hflag => by simp at hflag

theorem length_pendingSnapshots_record {id : String} {c : Completion}
    (hraised : (w.raisedOf key).Nodup) (hid : id ∉ w.recordedOf key) (hmem : id ∈ w.raisedOf key) :
    ((w.record key id c).pendingSnapshots key).length + 1 = (w.pendingSnapshots key).length := by
  have hpending : id ∈ w.pendingSnapshots key := by simp [pendingSnapshots, hmem, hid]
  have herase : (w.record key id c).pendingSnapshots key = (w.pendingSnapshots key).erase id := by
    have hnodup : (w.pendingSnapshots key).Nodup := hraised.filter _
    rw [hnodup.erase_eq_filter, pendingSnapshots, raisedOf_record, recordedOf_record,
      pendingSnapshots, List.filter_filter]
    refine List.filter_congr fun id' _ => ?_
    by_cases hid' : id' = id <;> simp [hid']
  rw [herase, List.length_erase_of_mem hpending]
  have hpos := List.length_pos_of_mem hpending
  omega

theorem pendingSnapshots_record_of_nil {id : String} {c : Completion}
    (hnone : w.pendingSnapshots key = []) : (w.record key id c).pendingSnapshots key = [] := by
  rw [pendingSnapshots, List.filter_eq_nil_iff] at hnone ⊢
  intro id' hid' hnot
  refine hnone id' hid' ?_
  simp only [recordedOf_record, List.mem_cons, decide_eq_true_eq, not_or] at hnot ⊢
  exact hnot.2

/-- Recording a completion for the first time, of a snapshot that is pending or where none is. -/
theorem Counts.record {id : String} {c : Completion} (h : w.Counts key)
    (hraised : (w.raisedOf key).Nodup) (hid : id ∉ w.recordedOf key)
    (hpending : id ∈ w.raisedOf key ∨ w.pendingSnapshots key = []) :
    (w.record key id c).Counts key where
  pending := by
    have hcount := h.pending
    rcases hpending with hmem | hnone
    · have hlength := length_pendingSnapshots_record (c := c) hraised hid hmem
      rcases pendingCount_record w key id c with hless | ⟨hzero, -⟩
      · omega
      · simp only [hzero, Int.toNat_zero] at hcount
        omega
    · rw [hnone, List.length_nil] at hcount
      rw [pendingSnapshots_record_of_nil hnone, List.length_nil]
      rcases pendingCount_record w key id c with hless | ⟨-, hzero⟩
      · omega
      · simp [hzero]
  count := by
    rw [snapshotCount_record, recordedOf_record, h.count, List.length_cons]
    rfl
  nodup := by
    rw [recordedOf_record]
    exact List.nodup_cons.mpr ⟨hid, h.nodup⟩
  flag := by
    rw [isBackingUp_record]
    intro hflag
    have hle := h.flag hflag
    rcases pendingCount_record w key id c with hless | ⟨-, hzero⟩
    · omega
    · exact hzero.le

theorem Counts.reset (h : w.Counts key) (hnone : w.pendingSnapshots key = []) :
    (w.reset key).Counts key where
  pending := by
    change _ = (w.pendingSnapshots key).length
    rw [pendingCount_reset, hnone]
    rfl
  count := by rw [snapshotCount_reset]; exact h.count
  nodup := h.nodup
  flag := fun _ => pendingCount_reset.le

end World

/-! ### Where the operations are -/

/-- Something that happens in a run. -/
abbrev Occurrence (ι : Type) := Happening ι Op Op.Res World

/-- The calls that a program has made, the latest first. -/
def calls (i : ι) (es : List (Occurrence ι)) : List Call := es.filterMap (Happening.callOf i)

theorem calls_cons_self (i : ι) (c : Call) (s s' : World) (past : List (Occurrence ι)) :
    calls i (⟨some (i, c), s, s'⟩ :: past) = c :: calls i past := by
  simp [calls, Happening.callOf]

theorem calls_cons_of_ne {i j : ι} (h : i ≠ j) (c : Call) (s s' : World)
    (past : List (Occurrence ι)) : calls j (⟨some (i, c), s, s'⟩ :: past) = calls j past := by
  simp [calls, Happening.callOf, h]

variable {job : ι → Job} {es : List (Occurrence ι)} {T : System ι Op Op.Res Unit World}

theorem heeds_proc (h : History Op.Serves Surroundings (start job w) es T) (i : ι) :
    (T.procs i).Heeds Orderly (fun past _ => Closed [] past) (calls i es) := by
  have hrest := (job i).heeds.of_trace (h.trace i)
  rwa [traceOf, List.reverse_reverse, List.append_nil] at hrest

/-- A call that is next comes in order. -/
theorem orderly_next (h : History Op.Serves Surroundings (start job w) es T) {i : ι} {op : Op}
    {next : op.Res → Program Op Op.Res Unit} (hi : T.procs i = call op next) :
    Orderly (calls i es) op := by
  have hrest := heeds_proc h i
  rw [hi] at hrest
  exact hrest.1

/-- The program is between the recording of a completion and the end of the update. -/
def isUpdating (key : DiskKey) : Program Op Op.Res Unit → Bool
  | .call (.lookAfter disk) _ => disk = key
  | .call (.reset disk) _ => disk = key
  | _ => false

theorem isUpdating_of_openDisk (h : History Op.Serves Surroundings (start job w) es T) {i : ι}
    (hopen : openDisk (calls i es) = some key) : isUpdating key (T.procs i) = true := by
  have hrest := heeds_proc h i
  cases hi : T.procs i with
  | done a =>
    rw [hi] at hrest
    cases hopen.symm.trans hrest.1
  | call op next =>
    have hop := orderly_next h hi
    cases op with
    | lookAfter disk | reset disk =>
      cases hopen.symm.trans hop
      exact decide_eq_true rfl
    | record => cases hopen.symm.trans hop.1
    | raise => cases hopen.symm.trans hop.2
    | _ => cases hopen.symm.trans hop

/-! ### The ids of snapshots -/

/-- A snapshot for which the counter was raised is not raised again: its id was new, and known to
one operation only. -/
structure IdsDistinct (es : List (Occurrence ι)) (w : World) : Prop where
  issued : ∀ x ∈ w.raised, x.2 ∈ w.issued
  nodup : (w.raised.map Prod.snd).Nodup
  isNew : ∀ i id, newId (calls i es) = some id → id ∈ w.issued ∧ id ∉ w.raised.map Prod.snd
  once : ∀ i j id, newId (calls i es) = some id → newId (calls j es) = some id → i = j

theorem IdsDistinct.next {es es' : List (Occurrence ι)} (h : IdsDistinct es w)
    (hcalls : ∀ i id, newId (calls i es') = some id → newId (calls i es) = some id)
    (hraised : w'.raised = w.raised) (hissued : w.issued ⊆ w'.issued) : IdsDistinct es' w' where
  issued := by
    rw [hraised]
    exact fun x hx => hissued (h.issued x hx)
  nodup := by
    rw [hraised]
    exact h.nodup
  isNew := by
    rw [hraised]
    exact fun i id hid => (h.isNew i id (hcalls i id hid)).imp_left (@hissued id)
  once := fun i j id hi hj => h.once i j id (hcalls i id hi) (hcalls j id hj)

/-- The start of a run: every counter and flag matches the snapshots there are. -/
structure World.IsConsistent (w : World) : Prop where
  issued : ∀ x ∈ w.raised, x.2 ∈ w.issued
  nodup : (w.raised.map Prod.snd).Nodup
  finished : ∀ x ∈ w.recorded, w.IsFinished x.2
  matching : ∀ key, w.Matches key

/-- What a call can change. -/
theorem Op.Serves.cases {op : Op} {r : op.Res} (h : op.Serves w r w') :
    (w' = w ∧ op.creates r = none) ∨
    (∃ snapshot, snapshot.id ∉ w.issued ∧ w' = w.addSnapshot snapshot ∧
      ∀ id, op.creates r = some id → id = snapshot.id) ∨
    (∃ key id, op = .raise key id ∧ w' = w.raise key id) ∨
    (∃ key id c, op = .record key id c ∧ w' = w.record key id c) ∨
    ∃ key, op = .reset key ∧ w' = w.reset key := by
  cases op with
  | createSnapshot =>
    obtain ⟨snapshot, hnew, -, -, rfl, hid⟩ | ⟨hr, rfl⟩ := h
    · exact Or.inr (Or.inl ⟨snapshot, hnew, rfl, hid⟩)
    · exact Or.inl ⟨rfl, hr⟩
  | raise key id =>
    obtain rfl | ⟨-, rfl⟩ := h
    · exact Or.inr (Or.inr (Or.inl ⟨key, id, rfl, rfl⟩))
    · exact Or.inl ⟨rfl, rfl⟩
  | record key id c =>
    obtain rfl | ⟨-, rfl⟩ := h
    · exact Or.inr (Or.inr (Or.inr (Or.inl ⟨key, id, c, rfl, rfl⟩)))
    · exact Or.inl ⟨rfl, rfl⟩
  | reset key =>
    obtain rfl | ⟨-, rfl⟩ := h
    · exact Or.inr (Or.inr (Or.inr (Or.inr ⟨key, rfl, rfl⟩)))
    · exact Or.inl ⟨rfl, rfl⟩
  | describePending | lookAfter | getDisk | describeCompleted | waitCompleted =>
    exact Or.inl ⟨h.1, rfl⟩
  | _ => exact Or.inl ⟨h, rfl⟩

theorem Op.Serves.issued {op : Op} {r : op.Res} (h : op.Serves w r w') : w.issued ⊆ w'.issued := by
  obtain ⟨rfl, -⟩ | ⟨snapshot, -, rfl, -⟩ | ⟨_, _, -, rfl⟩ | ⟨_, _, _, -, rfl⟩ | ⟨_, -, rfl⟩ :=
    h.cases
  · exact List.Subset.refl _
  · exact List.subset_cons_self _ _
  all_goals exact List.Subset.refl _

theorem Op.Serves.isFinished {op : Op} {r : op.Res} (h : op.Serves w r w') {id : String}
    (hid : w.IsFinished id) : w'.IsFinished id := by
  refine ⟨h.issued hid.1, ?_⟩
  have hrunning := hid.2
  obtain ⟨rfl, -⟩ | ⟨snapshot, hnew, rfl, -⟩ | ⟨_, _, -, rfl⟩ | ⟨_, _, _, -, rfl⟩ | ⟨_, -, rfl⟩ :=
    h.cases
  · exact hrunning
  · have hne : id ≠ snapshot.id := fun heq => hnew (heq ▸ hid.1)
    simpa [World.isRunning, World.addSnapshot, Function.update_of_ne hne] using hrunning
  all_goals exact hrunning

theorem Surroundings.isFinished (h : Surroundings w w') {id : String} (hid : w.IsFinished id) :
    w'.IsFinished id :=
  ⟨h.issued hid.1, Bool.eq_false_iff.mpr fun hrunning =>
    Bool.eq_false_iff.mp hid.2 (h.isRunning id hid.1 hrunning)⟩

theorem Op.Serves.finished_of_shown {op : Op} {r : op.Res} (h : op.Serves w r w') {id : String}
    (hid : id ∈ op.showsFinished r) : w.IsFinished id := by
  cases op with
  | describeCompleted =>
    obtain ⟨-, hlists, hissued⟩ := h
    cases r with
    | none => cases hid
    | some shown =>
      obtain ⟨snapshot, hsnapshot, rfl⟩ := List.mem_map.mp hid
      obtain ⟨hfound, hstate⟩ := hlists shown rfl snapshot hsnapshot
      refine ⟨hissued shown rfl snapshot hsnapshot, ?_⟩
      have hcompleted : snapshot.state = .completed := by simpa using hstate
      simp [World.isRunning, hfound, hcompleted]
  | waitCompleted =>
    cases r with
    | true =>
      obtain rfl := List.mem_singleton.mp hid
      exact h.2 rfl
    | false => cases hid
  | _ => cases hid

/-- A latest call that creates nothing leaves the other new ids. -/
theorem newId_cons {i : ι} {c : Call} {s s' : World} {past : List (Occurrence ι)}
    (hnone : c.1.creates c.2 = none) (j : ι) (id : String)
    (hid : newId (calls j (⟨some (i, c), s, s'⟩ :: past)) = some id) :
    newId (calls j past) = some id := by
  by_cases hij : i = j
  · subst hij
    rw [calls_cons_self] at hid
    cases hnone.symm.trans hid
  · rwa [calls_cons_of_ne hij] at hid

/-- The id of a new snapshot is none of those that there have been. -/
theorem IdsDistinct.add {past : List (Occurrence ι)} {i : ι} {c : Call} {snapshot : Snapshot}
    (h : IdsDistinct past w) (hnew : snapshot.id ∉ w.issued)
    (hc : ∀ id, c.1.creates c.2 = some id → id = snapshot.id) :
    IdsDistinct (⟨some (i, c), w, w.addSnapshot snapshot⟩ :: past) (w.addSnapshot snapshot) := by
  have hcases {j : ι} {id : String}
      (hid : newId (calls j (⟨some (i, c), w, w.addSnapshot snapshot⟩ :: past)) = some id) :
      j = i ∧ id = snapshot.id ∨ newId (calls j past) = some id := by
    by_cases hij : i = j
    · subst hij
      rw [calls_cons_self] at hid
      exact Or.inl ⟨rfl, hc id hid⟩
    · rw [calls_cons_of_ne hij] at hid
      exact Or.inr hid
  have hother {j : ι} : newId (calls j past) ≠ some snapshot.id :=
    fun hj => hnew (h.isNew j _ hj).1
  refine ⟨fun x hx => List.mem_cons_of_mem _ (h.issued x hx), h.nodup, fun j id hid => ?_,
    fun j k id hj hk => ?_⟩
  · rcases hcases hid with ⟨-, rfl⟩ | hid
    · refine ⟨List.mem_cons_self, fun hmem => ?_⟩
      obtain ⟨x, hx, hxid⟩ := List.mem_map.mp hmem
      exact hnew (hxid ▸ h.issued x hx)
    · exact (h.isNew j id hid).imp_left (List.mem_cons_of_mem _)
  · rcases hcases hj with ⟨hji, rfl⟩ | hj'
    · rcases hcases hk with ⟨hki, -⟩ | hk'
      · exact hji.trans hki.symm
      · exact absurd hk' hother
    · rcases hcases hk with ⟨-, rfl⟩ | hk'
      · exact absurd hj' hother
      · exact h.once j k id hj' hk'

/-- The id for which a counter is raised was known to one program alone. -/
theorem IdsDistinct.raise {past : List (Occurrence ι)} {i : ι} {id : String}
    {r : (Op.raise key id).Res} (h : IdsDistinct past w) (hheld : newId (calls i past) = some id) :
    IdsDistinct (⟨some (i, ⟨.raise key id, r⟩), w, w.raise key id⟩ :: past) (w.raise key id) := by
  obtain ⟨hissued, hnot⟩ := h.isNew i id hheld
  have hcalls (j : ι) (id' : String) (hid' : newId
      (calls j (⟨some (i, ⟨.raise key id, r⟩), w, w.raise key id⟩ :: past)) = some id') :
      newId (calls j past) = some id' := newId_cons rfl j id' hid'
  refine ⟨List.forall_mem_cons.mpr ⟨hissued, h.issued⟩, List.nodup_cons.mpr ⟨hnot, h.nodup⟩,
    fun j id' hid' => ?_, fun j k id' hj hk => h.once j k id' (hcalls j id' hj) (hcalls k id' hk)⟩
  obtain ⟨hissued', hnot'⟩ := h.isNew j id' (hcalls j id' hid')
  refine ⟨hissued', fun hmem => ?_⟩
  rcases List.mem_cons.mp hmem with rfl | hmem
  · obtain rfl := h.once i j id' hheld (hcalls j id' hid')
    rw [calls_cons_self] at hid'
    cases hid'
  · exact hnot' hmem

theorem idsDistinct_run (hw : w.IsConsistent)
    (h : History Op.Serves Surroundings (start job w) es T) : IdsDistinct es T.state := by
  induction h with
  | nil =>
    refine ⟨hw.issued, hw.nodup, fun i id hid => ?_, fun i j id hid _ => ?_⟩
    · cases hid
    · cases hid
  | env _ hs ih => exact ih.next (fun _ _ hid => hid) hs.raised hs.issued
  | @call past T i op next r s' h hi hr ih =>
    obtain ⟨rfl, hnone⟩ | ⟨snapshot, hnew, rfl, hid⟩ | ⟨key, id, rfl, rfl⟩ |
      ⟨key, id, c, rfl, rfl⟩ | ⟨key, rfl, rfl⟩ := hr.cases
    · exact ih.next (newId_cons hnone) rfl (List.Subset.refl _)
    · exact ih.add hnew hid
    · exact ih.raise (orderly_next h hi).1
    · exact ih.next (newId_cons rfl) rfl (List.Subset.refl _)
    · exact ih.next (newId_cons rfl) rfl (List.Subset.refl _)

theorem recorded_finished (hw : w.IsConsistent)
    (h : History Op.Serves Surroundings (start job w) es T) :
    ∀ x ∈ T.state.recorded, T.state.IsFinished x.2 := by
  induction h with
  | nil => exact hw.finished
  | env _ hs ih =>
    intro x hx
    exact hs.isFinished (ih x (hs.recorded ▸ hx))
  | @call past T i op next r s' h hi hr ih =>
    intro x hx
    have hsame (hrecorded : s'.recorded = T.state.recorded) : s'.IsFinished x.2 :=
      hr.isFinished (ih x (hrecorded ▸ hx))
    obtain ⟨rfl, -⟩ | ⟨_, _, rfl, -⟩ | ⟨_, _, -, rfl⟩ | ⟨key, id, c, rfl, rfl⟩ | ⟨_, -, rfl⟩ :=
      hr.cases
    · exact hsame rfl
    · exact hsame rfl
    · exact hsame rfl
    · rcases List.mem_cons.mp hx with rfl | hx
      · obtain ⟨-, d, hd, hid⟩ := orderly_next h hi
        obtain ⟨e, he, hcall⟩ := List.mem_filterMap.mp hd
        have hserved := h.served he (Happening.callOf_eq_some.mp hcall)
        refine hr.isFinished (h.stays (K := fun w => w.IsFinished id)
          (fun e he hfinished => ?_) e he (hserved.finished_of_shown hid))
        cases hcall : e.call with
        | none => exact (h.changed he hcall).isFinished hfinished
        | some c => exact (h.served he hcall).isFinished hfinished
      · exact hr.isFinished (ih x hx)
    · exact hsame rfl

/-! ### Calls that come when they can -/

/-- A counter is raised before the completion is recorded, and not while the counter is negative.
A completion is recorded once, and only of a pending snapshot, or of one whose counter could not be
raised while none is pending. Nothing is pending at a reset. A look that fails or shows an earlier
item, an update that fails, and an answer that is lost leave nothing to clear. -/
def Op.InOrder (key : DiskKey) : (op : Op) → op.Res → World → World → Prop
  | .raise disk id, _, w, w' =>
    disk = key → w'.versions key = w.versions key ∨
      0 ≤ w.pendingCount key ∧ id ∉ w.recordedOf key
  | .record disk id _, ok, w, w' =>
    disk = key → w'.versions key = w.versions key ∨
      id ∉ w.recordedOf key ∧ (id ∈ w.raisedOf key ∨ w.pendingSnapshots key = []) ∧
        (ok = true ∨ w'.HasNothingToClear key)
  | .lookAfter disk, answer, w, _ =>
    disk = key → shownNonePending answer = true ∨ w.HasNothingToClear key
  | .reset disk, _, w, w' =>
    disk = key → (w'.versions key = w.versions key ∨ w.pendingSnapshots key = []) ∧
      w'.HasNothingToClear key
  | _, _, _, _ => True

/-- Whatever is done to the item of the disk is done when it can. -/
def InOrder (key : DiskKey) (e : Occurrence ι) : Prop :=
  ∀ c ∈ e.call, c.2.1.InOrder key c.2.2 e.before e.after

theorem World.versions_updateItem_ne (w : World) (key : DiskKey) (f : Disk → Disk) :
    (w.updateItem key f).versions key ≠ w.versions key := by
  simp [World.updateItem]

/-- Some update of the disk has still to be finished, or there is nothing to clear. -/
def Settles (key : DiskKey) (es : List (Occurrence ι)) (w : World) : Prop :=
  (∃ i, openDisk (calls i es) = some key) ∨ w.HasNothingToClear key

/-- A call of a program that is not updating the disk leaves the others to it. -/
theorem Settles.cons {past : List (Occurrence ι)} {i : ι} (h : Settles key past w)
    (hsame : SameBooks key w w') (hi : openDisk (calls i past) ≠ some key) (c : Call) :
    Settles key (⟨some (i, c), w, w'⟩ :: past) w' := by
  refine h.imp (fun hopen => ?_) fun hclear => hclear.congr hsame
  obtain ⟨j, hj⟩ := hopen
  have hij : i ≠ j := by
    rintro rfl
    exact hi hj
  exact ⟨j, by rwa [calls_cons_of_ne hij]⟩

theorem Settles.opened {past : List (Occurrence ι)} {i : ι} {c : Call}
    (hc : c.1.leavesOpen c.2 = some key) : Settles key (⟨some (i, c), w, w'⟩ :: past) w' :=
  Or.inl ⟨i, by rwa [calls_cons_self]⟩

/-- What is kept of the books of a disk by each call that comes when it can. -/
theorem counts_call {past : List (Occurrence ι)} {i : ι} {op : Op}
    {r : op.Res} (hcounts : w.Counts key) (hsettles : Settles key past w)
    (hids : (w.raisedOf key).Nodup) (hop : Orderly (calls i past) op) (hr : op.Serves w r w')
    (horder : op.InOrder key r w w') :
    w'.Counts key ∧ Settles key (⟨some (i, ⟨op, r⟩), w, w'⟩ :: past) w' := by
  have hkept (hsame : SameBooks key w w') (hi : openDisk (calls i past) ≠ some key) :
      w'.Counts key ∧ Settles key (⟨some (i, ⟨op, r⟩), w, w'⟩ :: past) w' :=
    ⟨hcounts.congr hsame, hsettles.cons hsame hi _⟩
  have hclosed (hi : openDisk (calls i past) = none) : openDisk (calls i past) ≠ some key := by
    simp [hi]
  cases op with
  | raise disk id =>
    have hi := hclosed hop.2
    obtain rfl | ⟨-, rfl⟩ := hr
    · by_cases hdisk : disk = key
      · subst hdisk
        obtain hsame | ⟨hpos, hid⟩ := horder rfl
        · exact absurd hsame (w.versions_updateItem_ne _ _)
        · refine ⟨hcounts.raise hpos hid, Or.inr (Or.inl ?_)⟩
          rw [World.pendingCount_raise]
          omega
      · exact hkept (.raise hdisk) hi
    · exact hkept (.refl _ _) hi
  | record disk id c =>
    have hi := hclosed hop.1
    obtain rfl | ⟨-, rfl⟩ := hr
    · by_cases hdisk : disk = key
      · subst hdisk
        obtain hsame | ⟨hid, hpending, hanswer⟩ := horder rfl
        · exact absurd hsame (w.versions_updateItem_ne disk (Disk.record · c))
        · refine ⟨hcounts.record hids hid hpending, ?_⟩
          rcases hanswer with rfl | hclear
          · exact .opened rfl
          · exact Or.inr hclear
      · exact hkept (.record hdisk) hi
    · exact hkept (.refl _ _) hi
  | lookAfter disk =>
    obtain ⟨rfl, -⟩ := hr
    by_cases hdisk : disk = key
    · subst hdisk
      refine ⟨hcounts, ?_⟩
      rcases horder rfl with hshown | hclear
      · exact .opened (if_pos hshown)
      · exact Or.inr hclear
    · exact hkept (.refl _ _) fun hi => hdisk (Option.some.inj (hop.symm.trans hi))
  | reset disk =>
    obtain rfl | ⟨-, rfl⟩ := hr
    · by_cases hdisk : disk = key
      · subst hdisk
        obtain ⟨hsame | hnone, hclear⟩ := horder rfl
        · exact absurd hsame (w.versions_updateItem_ne _ _)
        · exact ⟨hcounts.reset hnone, Or.inr hclear⟩
      · exact hkept (.reset hdisk) fun hi => hdisk (Option.some.inj (hop.symm.trans hi))
    · by_cases hdisk : disk = key
      · subst hdisk
        exact ⟨hcounts, Or.inr (horder rfl).2⟩
      · exact hkept (.refl _ _) fun hi => hdisk (Option.some.inj (hop.symm.trans hi))
  | createSnapshot =>
    obtain ⟨snapshot, -, -, -, rfl, -⟩ | ⟨-, rfl⟩ := hr
    · exact hkept (.addSnapshot _ _ _) (hclosed hop)
    · exact hkept (.refl _ _) (hclosed hop)
  | describePending | getDisk | describeCompleted | waitCompleted =>
    obtain ⟨rfl, -⟩ := hr
    exact hkept (.refl _ _) (hclosed hop)
  | _ =>
    obtain rfl := hr
    exact hkept (.refl _ _) (hclosed hop)

theorem nodup_raisedOf {es : List (Occurrence ι)} (h : IdsDistinct es w) :
    (w.raisedOf key).Nodup := h.nodup.sublist (List.filter_sublist.map _)

theorem counts_run (hw : w.IsConsistent)
    (h : History Op.Serves Surroundings (start job w) es T) (horder : ∀ e ∈ es, InOrder key e) :
    T.state.Counts key ∧ Settles key es T.state := by
  induction h with
  | nil => exact ⟨(hw.matching key).counts, Or.inr (hw.matching key).hasNothingToClear⟩
  | env _ hs ih =>
    obtain ⟨-, hpast⟩ := List.forall_mem_cons.mp horder
    obtain ⟨hcounts, hsettles⟩ := ih hpast
    have hsame := hs.sameBooks key
    exact ⟨hcounts.congr hsame, hsettles.imp_right fun hclear => hclear.congr hsame⟩
  | call h hi hr ih =>
    obtain ⟨hlast, hpast⟩ := List.forall_mem_cons.mp horder
    obtain ⟨hcounts, hsettles⟩ := ih hpast
    exact counts_call hcounts hsettles (nodup_raisedOf (idsDistinct_run hw h)) (orderly_next h hi)
      hr (hlast _ rfl)

instance (key : DiskKey) : (op : Op) → (r : op.Res) → (w w' : World) →
    Decidable (op.InOrder key r w w')
  | .raise disk id, _, w, w' => inferInstanceAs (Decidable (disk = key →
      w'.versions key = w.versions key ∨ 0 ≤ w.pendingCount key ∧ id ∉ w.recordedOf key))
  | .record disk id _, (ok : Bool), w, w' => inferInstanceAs (Decidable (disk = key →
      w'.versions key = w.versions key ∨
        id ∉ w.recordedOf key ∧ (id ∈ w.raisedOf key ∨ w.pendingSnapshots key = []) ∧
          (ok = true ∨ w'.HasNothingToClear key)))
  | .lookAfter disk, answer, w, _ => inferInstanceAs (Decidable (disk = key →
      shownNonePending answer = true ∨ w.HasNothingToClear key))
  | .reset disk, _, w, w' => inferInstanceAs (Decidable (disk = key →
      (w'.versions key = w.versions key ∨ w.pendingSnapshots key = []) ∧
        w'.HasNothingToClear key))
  | .wallClock, _, _, _ | .describePending _, _, _, _ | .createSnapshot _ _ _, _, _, _
  | .getDisk _, _, _, _ | .describeCompleted, _, _, _ | .waitCompleted _, _, _, _
  | .describeSnapshot _, _, _, _ | .readPod, _, _, _ | .volumeTags _, _, _, _
  | .captureContents _, _, _, _ | .deleteVolume _, _, _, _ | .markNotInUse _, _, _, _ =>
    inferInstanceAs (Decidable True)

instance (key : DiskKey) (e : Occurrence ι) : Decidable (InOrder key e) :=
  inferInstanceAs (Decidable (∀ c ∈ e.call, c.2.1.InOrder key c.2.2 e.before e.after))

/-- The snapshots that a listing selects. -/
def World.list (w : World) (selects : Snapshot → Bool) : List Snapshot :=
  w.issued.filterMap fun id => (w.snapshot id).filter fun s => s.id == id && selects s

theorem World.lists_list (w : World) (selects : Snapshot → Bool) :
    w.Lists selects (some (w.list selects)) ∧ ∀ s ∈ w.list selects, s.id ∈ w.issued := by
  have hmem {s : Snapshot} (hs : s ∈ w.list selects) :
      s.id ∈ w.issued ∧ w.snapshot s.id = some s ∧ selects s := by
    obtain ⟨id, hid, hs⟩ := List.mem_filterMap.mp hs
    obtain ⟨hfound, hselected⟩ := Option.filter_eq_some_iff.mp hs
    simp only [Bool.and_eq_true, beq_iff_eq] at hselected
    obtain ⟨rfl, hselected⟩ := hselected
    exact ⟨hid, hfound, hselected⟩
  refine ⟨fun shown hshown s hs => ?_, fun s hs => (hmem hs).1⟩
  cases hshown
  exact (hmem hs).2

/-- The id of the next snapshot. -/
def World.nextId (w : World) : String := if "snap-1" ∈ w.issued then "snap-2" else "snap-1"

/-- Answers without faults, up to two snapshots. -/
def serve : (op : Op) → World → op.Res × World
  | .wallClock, w => ((0 : ℤ), w)
  | .describePending volumeId, w =>
    (some (w.list fun s => s.volumeId == volumeId && s.state == .pending), w)
  | .createSnapshot volumeId _ tags, w =>
    if w.nextId ∈ w.issued then (none, w)
    else (some w.nextId, w.addSnapshot ⟨w.nextId, volumeId, .pending, 0, none, tags⟩)
  | .raise key id, w => (true, w.raise key id)
  | .record key id c, w => (true, w.record key id c)
  | .lookAfter key, w => (some (w.disk key), w)
  | .reset key, w => (true, w.reset key)
  | .getDisk key, w => (some (w.disk key), w)
  | .describeCompleted, w => (some (w.list fun s => s.state == .completed), w)
  | .waitCompleted _, w => (false, w)
  | .describeSnapshot id, w => (some (w.snapshot id).toList, w)
  | .readPod, w => (none, w)
  | .volumeTags _, w => (none, w)
  | .captureContents _, w => (none, w)
  | .deleteVolume _, w => (true, w)
  | .markNotInUse _, w => (true, w)

theorem serves_serve (op : Op) (w : World) : op.Serves w (serve op w).1 (serve op w).2 := by
  have hshows (key : DiskKey) : w.Shows key (some (w.disk key)) := by
    rintro item ⟨⟩ d hd
    exact List.mem_of_mem_head? hd
  cases op with
  | describePending volumeId => exact ⟨rfl, (w.lists_list _).1⟩
  | createSnapshot volumeId description tags =>
    dsimp only [serve]
    split
    · exact Or.inr ⟨rfl, rfl⟩
    · exact Or.inl ⟨_, ‹_›, rfl, rfl, rfl, fun id hid => (Option.some.inj hid).symm⟩
  | raise | record | reset => exact Or.inl rfl
  | lookAfter key | getDisk key => exact ⟨rfl, hshows key⟩
  | describeCompleted =>
    refine ⟨rfl, (w.lists_list _).1, fun shown hshown => ?_⟩
    cases hshown
    exact (w.lists_list _).2
  | waitCompleted => exact ⟨rfl, fun h => by cases h⟩
  | _ => exact rfl

/-- All snapshots become complete. -/
def World.complete (w : World) : World :=
  { w with snapshot := fun id => (w.snapshot id).map fun s => { s with state := .completed } }

theorem surroundings_complete (w : World) : Surroundings w w.complete where
  pendingCount := rfl
  snapshotCount := rfl
  isBackingUp := rfl
  raised := rfl
  recorded := rfl
  issued := List.Subset.refl _
  isRunning := by
    intro id _ hrunning
    cases hid : w.snapshot id <;> simp [World.isRunning, World.complete, hid] at hrunning

def thesis : DiskKey := ("ada", "thesis")

/-- A disk without snapshots. -/
def newDisk : World where
  versions key := if key = thesis then [{}] else []
  snapshot _ := none
  issued := []
  raised := []
  recorded := []

theorem isConsistent_newDisk : newDisk.IsConsistent where
  issued := by simp [newDisk]
  nodup := List.nodup_nil
  finished := by simp [newDisk]
  matching := by
    intro key
    have hdisk : newDisk.disk key = some {} ∨ newDisk.disk key = none := by
      by_cases hkey : key = thesis <;> simp [World.disk, newDisk, hkey]
    have hvalues : newDisk.pendingCount key = 0 ∧ newDisk.snapshotCount key = 0 ∧
        newDisk.isBackingUp key = false := by
      rcases hdisk with hdisk | hdisk <;>
        simp [World.pendingCount, World.snapshotCount, World.isBackingUp, hdisk]
    obtain ⟨hpending, hcount, hflag⟩ := hvalues
    exact ⟨hpending, hcount, List.nodup_nil, by simp [hpending, hflag]⟩

/-- Two volumes of the disk are backed up, with a synchronization after each. -/
def twoBackups : Fin 4 → Job
  | 0 => .create "vol-1" "ada" "shutdown" (some "thesis") none none
  | 1 => .sync
  | 2 => .create "vol-2" "ada" "shutdown" (some "thesis") none none
  | 3 => .sync

/-- The first backup becomes complete and is recorded. -/
def firstBackup : List (Turn (Fin 4) World) :=
  List.replicate 4 (.call 0) ++ [.env World.complete] ++ List.replicate 6 (.call 1)

/-- The second backup still runs when the synchronization comes upon the first one again. -/
def bothBackups : List (Turn (Fin 4) World) :=
  firstBackup ++ List.replicate 4 (.call 2) ++ List.replicate 6 (.call 3)

def played (schedule : List (Turn (Fin 4) World)) :
    List (Occurrence (Fin 4)) × System (Fin 4) Op Op.Res Unit World :=
  play serve (start twoBackups newDisk) schedule

theorem history_played {schedule : List (Turn (Fin 4) World)}
    (hschedule : ∀ change, .env change ∈ schedule → change = World.complete) :
    History Op.Serves Surroundings (start twoBackups newDisk) (played schedule).1
      (played schedule).2 := by
  refine .of_play serves_serve _ _ fun change hchange w => ?_
  rw [hschedule change hchange]
  exact surroundings_complete w

end CiInfra.GpuDev.SnapshotBookkeeping

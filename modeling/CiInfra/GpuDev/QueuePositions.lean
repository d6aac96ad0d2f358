import CiInfra.Lib.Ranks
import Mathlib.Data.List.Dedup
import Mathlib.Data.Rat.Defs
import Mathlib.Algebra.Order.Floor.Defs
import Mathlib.Data.Rat.Floor

/-!
# Positions in the queue

Three functions tell a queued reservation its position: one for single reservations, one for the
groups of several nodes, and the sweep over the queue. Each of them counts what it reads in its own
way. When do they agree with the place of the reservation, or of its group, among those of its GPU
type?
-/

namespace CiInfra.GpuDev.QueuePositions

inductive QueueStatus
  | queued
  | pending
  deriving DecidableEq

/-- A reservation that waits. `multinode` is the `master_reservation_id` of a group. -/
structure Reservation where
  reservationId : String
  gpuType : String
  gpuCount : ℕ
  totalGpuCount : ℕ
  createdAt : ℚ
  multinode : Option String
  status : QueueStatus
  deriving DecidableEq

/-- The queries on the indices of the table. -/
inductive Query
  /-- `StatusGpuTypeIndex`. -/
  | byType (status : QueueStatus) (gpuType : String)
  /-- `StatusIndex`. -/
  | byStatus (status : QueueStatus)

def Query.selects : Query → Reservation → Bool
  | byType status gpuType, r => r.status = status && r.gpuType = gpuType
  | byStatus status, r => r.status = status

/-- The waiting reservations, with what the first page of each query has of them, and which of them
a sweep can start. -/
structure Queue where
  rows : List Reservation
  nodup_ids : (rows.map Reservation.reservationId).Nodup
  nodup_times : (rows.map Reservation.createdAt).Nodup
  firstPage : Query → List Reservation
  firstPage_subperm : ∀ query, (firstPage query).Subperm (rows.filter query.selects)
  currentTime : ℤ
  canStart : Reservation → Bool

variable (q : Queue)

/-! ### The three positions -/

/-- What `calculate_queue_position_and_wait_time` reads: the first pages. -/
def readForType (gpuType : String) : List Reservation :=
  q.firstPage (.byType .queued gpuType) ++ q.firstPage (.byType .pending gpuType)

/-- The position by `calculate_queue_position_and_wait_time`. -/
def calculateQueuePosition (reservationId gpuType : String) : ℕ :=
  match (Ranks.sortBy Reservation.createdAt (readForType q gpuType)).findIdx? fun r =>
    r.reservationId = reservationId with
  | some i => i + 1
  | none => 1

/-- The queued reservations of a type, from a scan of all pages. -/
def queuedOfType (gpuType : String) : List Reservation :=
  q.rows.filter fun r => r.status = .queued && r.gpuType = gpuType

/-- An item of `all_ahead`. -/
structure Ahead where
  gpus : ℕ
  createdAt : ℚ
  deriving DecidableEq

/-- A group is entered with what its first member says. -/
def addGroup (groups : List (String × Ahead)) (r : Reservation) : List (String × Ahead) :=
  match r.multinode with
  | some groupId =>
    if groupId ∈ groups.map Prod.fst then groups
    else groups ++ [(groupId, ⟨r.totalGpuCount, r.createdAt⟩)]
  | none => groups

/-- `multinode_groups`. -/
def multinodeGroups (reservations : List Reservation) : List (String × Ahead) :=
  reservations.foldl addGroup []

/-- `all_ahead`: the other groups, and the single reservations. -/
def allAhead (masterReservationId gpuType : String) : List Ahead :=
  let queued := queuedOfType q gpuType
  let groups := (multinodeGroups queued).filter fun group => group.1 ≠ masterReservationId
  let singles := queued.filter fun r => r.multinode.isNone
  Ranks.sortBy Ahead.createdAt
    (groups.map Prod.snd ++ singles.map fun r => ⟨r.gpuCount, r.createdAt⟩)

/-- The position and the GPUs ahead, by `calculate_multinode_queue_position_and_wait_time`. -/
def calculateMultinodeQueuePosition (masterReservationId gpuType : String) : ℕ × ℕ :=
  (allAhead q masterReservationId gpuType).foldl (fun (position, gpus) item =>
    (position + 1, gpus + item.gpus)) (1, 0)

/-- The reservations that the sweep leaves to the messages are at most so many seconds old. -/
def recentSeconds : ℤ := 30

/-- What `process_scheduled_queue_management` goes through: the first page, without what is
recent. -/
def readForSweep : List Reservation :=
  (q.firstPage (.byStatus .queued)).filter fun r => recentSeconds < q.currentTime - ⌊r.createdAt⌋

/-- The position that `process_scheduled_queue_management` writes, if it writes one. -/
def sweepPosition (r : Reservation) : Option ℕ :=
  if q.canStart r then none
  else
    ((Ranks.sortBy Reservation.createdAt (readForSweep q)).findIdx? fun x =>
      x.reservationId = r.reservationId).map fun i => i + 1

/-! ### The place in the queue -/

inductive EntryKey
  | single (reservationId : String)
  | group (masterReservationId : String)
  deriving DecidableEq

/-- An entry of the queue of a type: a single reservation, or a group. -/
structure Entry where
  gpuType : String
  key : EntryKey
  deriving DecidableEq

/-- The entry that a reservation is, or belongs to. -/
def Reservation.entry (r : Reservation) : Entry :=
  ⟨r.gpuType, r.multinode.elim (.single r.reservationId) .group⟩

/-- The time at which an entry was created: that of its earliest member. -/
def entryTime (r : Reservation) : ℚ :=
  ((queuedOfType q r.gpuType).filter fun x => x.entry = r.entry).foldr
    (fun x t => min x.createdAt t) r.createdAt

/-- The entries of a type with a member that was created before a time. -/
def entriesBefore (gpuType : String) (time : ℚ) : List Entry :=
  (((queuedOfType q gpuType).filter fun x => x.createdAt < time).map Reservation.entry).dedup

/-- The entries of its type that were created before the entry of a reservation. -/
def earlierEntries (r : Reservation) : List Entry :=
  entriesBefore q r.gpuType (entryTime q r)

def properPosition (r : Reservation) : ℕ :=
  1 + (earlierEntries q r).length

/-- Every position that is computed for the reservation is the proper one. -/
structure HasOnePosition (r : Reservation) : Prop where
  single : calculateQueuePosition q r.reservationId r.gpuType = properPosition q r
  group : ∀ master, r.multinode = some master →
    (calculateMultinodeQueuePosition q master r.gpuType).1 = properPosition q r
  sweep : ∀ position, sweepPosition q r = some position → position = properPosition q r

/-- Of the reservations that are read, those before a reservation. -/
def readBefore (r : Reservation) (read : List Reservation) : List Reservation :=
  read.filter fun x => x.createdAt < r.createdAt

/-- As many earlier entries are missing from what is read before the reservation as reservations are
there in surplus: those of another type, those that are pending, and all but one of a group. -/
def IsCounted (r : Reservation) (read : List Reservation) : Prop :=
  (Ranks.missed Reservation.entry (earlierEntries q r) (readBefore r read)).length =
    (Ranks.surplus Reservation.entry (earlierEntries q r) (readBefore r read)).length

/-- The counts of what is read are right; what is not read has no earlier entries; and no queued
entry of its type is later than a group. -/
structure IsCountedRight (r : Reservation) : Prop where
  read : r ∈ readForType q r.gpuType → IsCounted q r (readForType q r.gpuType)
  unread : r ∉ readForType q r.gpuType → earlierEntries q r = []
  group : ∀ master, r.multinode = some master → ∀ x ∈ queuedOfType q r.gpuType,
    x.entry ≠ r.entry → x.entry ∈ earlierEntries q r
  sweep : q.canStart r = false → r ∈ readForSweep q → IsCounted q r (readForSweep q)

variable {q} {r x : Reservation} {read : List Reservation} {gpuType master : String}

theorem eq_of_reservationId (hr : r ∈ q.rows) (hx : x ∈ q.rows)
    (h : x.reservationId = r.reservationId) : x = r :=
  List.inj_on_of_nodup_map q.nodup_ids hx hr h

theorem mem_rows_of_firstPage {query : Query} (h : x ∈ q.firstPage query) :
    x ∈ q.rows ∧ query.selects x = true :=
  List.mem_filter.mp ((q.firstPage_subperm query).subset h)

theorem nodup_times_firstPage (query : Query) :
    ((q.firstPage query).map Reservation.createdAt).Nodup := by
  obtain ⟨l, hperm, hsub⟩ := q.firstPage_subperm query
  have hnodup := q.nodup_times.sublist ((hsub.trans List.filter_sublist).map _)
  exact (hperm.map _).nodup_iff.mp hnodup

theorem readForType_subset : ∀ y ∈ readForType q gpuType, y ∈ q.rows := by
  intro y hy
  rcases List.mem_append.mp hy with hy | hy
  · exact (mem_rows_of_firstPage hy).1
  · exact (mem_rows_of_firstPage hy).1

theorem nodup_times_readForType (gpuType : String) :
    ((readForType q gpuType).map Reservation.createdAt).Nodup := by
  rw [readForType, List.map_append, List.nodup_append]
  refine ⟨nodup_times_firstPage _, nodup_times_firstPage _, ?_⟩
  -- No reservation is both queued and pending.
  rintro t ht t' ht' rfl
  obtain ⟨y, hy, rfl⟩ := List.mem_map.mp ht
  obtain ⟨z, hz, hzy⟩ := List.mem_map.mp ht'
  obtain ⟨hyrows, hyqueued⟩ := mem_rows_of_firstPage hy
  obtain ⟨hzrows, hzpending⟩ := mem_rows_of_firstPage hz
  obtain rfl := List.inj_on_of_nodup_map q.nodup_times hzrows hyrows hzy
  simp only [Query.selects, Bool.and_eq_true, decide_eq_true_eq] at hyqueued hzpending
  rw [hyqueued.1] at hzpending
  cases hzpending.1

theorem readForSweep_subset : ∀ y ∈ readForSweep q, y ∈ q.rows := fun _ hy =>
  (mem_rows_of_firstPage (List.mem_filter.mp hy).1).1

theorem nodup_times_readForSweep : ((readForSweep q).map Reservation.createdAt).Nodup :=
  (nodup_times_firstPage _).sublist (List.filter_sublist.map _)

/-- The index of a reservation among what is read is the number of those before it. -/
theorem findIdx?_read (hr : r ∈ q.rows) (hread : ∀ y ∈ read, y ∈ q.rows)
    (htimes : (read.map Reservation.createdAt).Nodup) :
    ((Ranks.sortBy Reservation.createdAt read).findIdx? fun x =>
        x.reservationId = r.reservationId) =
      if r ∈ read then some (readBefore r read).length else none := by
  have hid : ∀ y ∈ read, decide (y.reservationId = r.reservationId) = true ↔ y = r := by
    intro y hy
    rw [decide_eq_true_eq]
    exact ⟨eq_of_reservationId hr (hread y hy), fun h => h ▸ rfl⟩
  split_ifs with hmem
  · exact Ranks.findIdx?_sortBy htimes hmem hid
  · refine Ranks.findIdx?_sortBy_eq_none fun y hy => Bool.eq_false_iff.mpr fun h => hmem ?_
    rwa [← (hid y hy).mp h]

theorem nodup_earlierEntries (q : Queue) (r : Reservation) : (earlierEntries q r).Nodup :=
  List.nodup_dedup _

theorem isCounted_iff (r : Reservation) (read : List Reservation) :
    IsCounted q r read ↔ (readBefore r read).length = (earlierEntries q r).length :=
  (Ranks.length_eq_iff (nodup_earlierEntries q r) _).symm

theorem calculateQueuePosition_iff (hr : r ∈ q.rows) :
    calculateQueuePosition q r.reservationId r.gpuType = properPosition q r ↔
      (r ∈ readForType q r.gpuType → IsCounted q r (readForType q r.gpuType)) ∧
        (r ∉ readForType q r.gpuType → earlierEntries q r = []) := by
  rw [calculateQueuePosition, findIdx?_read hr readForType_subset (nodup_times_readForType _),
    properPosition]
  split_ifs with hmem
  · simp only [hmem, isCounted_iff, forall_const, not_true_eq_false, false_imp_iff, and_true]
    omega
  · simp only [hmem, false_imp_iff, true_and, not_false_eq_true, forall_const,
      ← List.length_eq_zero_iff]
    omega

theorem sweepPosition_iff (hr : r ∈ q.rows) :
    (∀ position, sweepPosition q r = some position → position = properPosition q r) ↔
      (q.canStart r = false → r ∈ readForSweep q → IsCounted q r (readForSweep q)) := by
  rw [sweepPosition, findIdx?_read hr readForSweep_subset nodup_times_readForSweep]
  cases q.canStart r with
  | true => simp
  | false =>
    by_cases hmem : r ∈ readForSweep q
    · simp only [hmem, isCounted_iff, properPosition]
      simp
      omega
    · simp [hmem]

/-! ### Groups -/

theorem keys_addGroup {groups : List (String × Ahead)} (h : (groups.map Prod.fst).Nodup)
    (r : Reservation) :
    ((addGroup groups r).map Prod.fst).Nodup ∧
      ∀ m, m ∈ (addGroup groups r).map Prod.fst ↔
        m ∈ groups.map Prod.fst ∨ r.multinode = some m := by
  unfold addGroup
  cases r.multinode with
  | none => exact ⟨h, fun m => by simp⟩
  | some groupId =>
    by_cases hmem : groupId ∈ groups.map Prod.fst
    · simp only [if_pos hmem]
      refine ⟨h, fun m => ⟨Or.inl, ?_⟩⟩
      rintro (hm | hm)
      · exact hm
      · rwa [← Option.some.inj hm]
    · simp only [if_neg hmem, List.map_append, List.map_singleton]
      refine ⟨List.nodup_append.mpr ⟨h, List.nodup_singleton _, ?_⟩, fun m => ?_⟩
      · rintro a ha b hb rfl
        exact hmem (List.mem_singleton.mp hb ▸ ha)
      · rw [List.mem_append, List.mem_singleton, Option.some.injEq, eq_comm (a := m)]

/-- The groups are entered once each. -/
theorem keys_foldl_addGroup (reservations : List Reservation) (groups : List (String × Ahead))
    (h : (groups.map Prod.fst).Nodup) :
    ((reservations.foldl addGroup groups).map Prod.fst).Nodup ∧
      ∀ m, m ∈ (reservations.foldl addGroup groups).map Prod.fst ↔
        m ∈ groups.map Prod.fst ∨ ∃ x ∈ reservations, x.multinode = some m := by
  induction reservations generalizing groups with
  | nil => exact ⟨h, fun m => by simp⟩
  | cons r reservations ih =>
    obtain ⟨hnodup, hmem⟩ := keys_addGroup h r
    obtain ⟨hnodup', hmem'⟩ := ih _ hnodup
    refine ⟨hnodup', fun m => (hmem' m).trans ?_⟩
    rw [hmem m, or_assoc]
    simp only [List.mem_cons, exists_eq_or_imp]

/-- There is one group for each `master_reservation_id`. -/
theorem keys_multinodeGroups (reservations : List Reservation) :
    ((multinodeGroups reservations).map Prod.fst).Nodup ∧
      ∀ m, m ∈ (multinodeGroups reservations).map Prod.fst ↔
        ∃ x ∈ reservations, x.multinode = some m := by
  obtain ⟨hnodup, hmem⟩ := keys_foldl_addGroup reservations [] List.nodup_nil
  exact ⟨hnodup, fun m => (hmem m).trans (or_iff_right List.not_mem_nil)⟩

theorem entry_of_some {m : String} (h : x.multinode = some m) :
    x.entry = ⟨x.gpuType, .group m⟩ := by
  rw [Reservation.entry, h, Option.elim_some]

theorem entry_of_none (h : x.multinode = none) :
    x.entry = ⟨x.gpuType, .single x.reservationId⟩ := by
  rw [Reservation.entry, h, Option.elim_none]

/-- The other entries of a type. -/
def otherEntries (q : Queue) (r : Reservation) : List Entry :=
  (((queuedOfType q r.gpuType).map Reservation.entry).dedup).filter fun e => e ≠ r.entry

theorem mem_queuedOfType : x ∈ queuedOfType q gpuType ↔
    x ∈ q.rows ∧ x.status = .queued ∧ x.gpuType = gpuType := by
  simp only [queuedOfType, List.mem_filter, Bool.and_eq_true, decide_eq_true_eq]

theorem mem_otherEntries {e : Entry} : e ∈ otherEntries q r ↔
    (∃ x ∈ queuedOfType q r.gpuType, x.entry = e) ∧ e ≠ r.entry := by
  simp only [otherEntries, List.mem_dedup, List.mem_map, List.mem_filter, decide_eq_true_eq]

/-- The entries that are in `all_ahead`. -/
def aheadEntries (q : Queue) (master gpuType : String) : List Entry :=
  (((multinodeGroups (queuedOfType q gpuType)).map Prod.fst).filter fun m => m ≠ master).map
      (fun m => ⟨gpuType, .group m⟩) ++
    (((queuedOfType q gpuType).filter fun r => r.multinode.isNone).map
      Reservation.reservationId).map fun id => ⟨gpuType, .single id⟩

theorem length_aheadEntries (q : Queue) (master gpuType : String) :
    (aheadEntries q master gpuType).length = (allAhead q master gpuType).length := by
  simp only [aheadEntries, allAhead, List.length_append, List.length_map,
    (Ranks.sortBy_perm _ _).length_eq, List.filter_map]
  rfl

theorem nodup_aheadEntries (q : Queue) (master gpuType : String) :
    (aheadEntries q master gpuType).Nodup := by
  have hgroups := (keys_multinodeGroups (queuedOfType q gpuType)).1
  have hids : (((queuedOfType q gpuType).filter fun r => r.multinode.isNone).map
      Reservation.reservationId).Nodup :=
    q.nodup_ids.sublist ((List.filter_sublist.trans List.filter_sublist).map _)
  rw [aheadEntries, List.nodup_append]
  refine ⟨(hgroups.filter _).map fun m m' h => ?_, hids.map fun i i' h => ?_, ?_⟩
  · injection h with _ h
    injection h
  · injection h with _ h
    injection h
  · rintro e he e' he' rfl
    obtain ⟨m, -, rfl⟩ := List.mem_map.mp he
    obtain ⟨i, -, h⟩ := List.mem_map.mp he'
    cases h

theorem mem_aheadEntries (hmaster : r.multinode = some master) (e : Entry) :
    e ∈ aheadEntries q master r.gpuType ↔ e ∈ otherEntries q r := by
  have hgroups := (keys_multinodeGroups (queuedOfType q r.gpuType)).2
  rw [mem_otherEntries, entry_of_some hmaster]
  simp only [aheadEntries, List.mem_append, List.mem_map (f := fun m => (_ : Entry)),
    List.mem_filter, decide_eq_true_eq]
  constructor
  · rintro (⟨m, ⟨hm, hne⟩, rfl⟩ | ⟨i, hi, rfl⟩)
    · obtain ⟨x, hx, hxm⟩ := (hgroups m).mp hm
      refine ⟨⟨x, hx, ?_⟩, fun h => hne ?_⟩
      · rw [entry_of_some hxm, (mem_queuedOfType.mp hx).2.2]
      · injection h with _ h
        injection h
    · obtain ⟨x, hx, rfl⟩ := List.mem_map.mp hi
      obtain ⟨hx, hnone⟩ := List.mem_filter.mp hx
      refine ⟨⟨x, hx, ?_⟩, fun h => ?_⟩
      · rw [entry_of_none (Option.isNone_iff_eq_none.mp hnone), (mem_queuedOfType.mp hx).2.2]
      · injection h with _ h
        cases h
  · rintro ⟨⟨x, hx, rfl⟩, hne⟩
    have htype := (mem_queuedOfType.mp hx).2.2
    cases hxm : x.multinode with
    | some m =>
      rw [entry_of_some hxm, htype] at hne ⊢
      exact Or.inl ⟨m, ⟨(hgroups m).mpr ⟨x, hx, hxm⟩, fun h => hne (by rw [h])⟩, rfl⟩
    | none =>
      rw [entry_of_none hxm, htype]
      exact Or.inr ⟨x.reservationId, List.mem_map_of_mem
        (List.mem_filter.mpr ⟨hx, by rw [hxm]; rfl⟩), rfl⟩

/-- The items of `all_ahead` are the other entries, each of them once. -/
theorem length_allAhead (hmaster : r.multinode = some master) :
    (allAhead q master r.gpuType).length = (otherEntries q r).length := by
  rw [← length_aheadEntries]
  exact ((List.perm_ext_iff_of_nodup (nodup_aheadEntries q master r.gpuType)
    ((List.nodup_dedup _).filter _)).mpr (mem_aheadEntries hmaster)).length_eq

theorem foldr_min_le {members : List Reservation} (hx : x ∈ members) (t : ℚ) :
    members.foldr (fun y t => min y.createdAt t) t ≤ x.createdAt := by
  induction members with
  | nil => cases hx
  | cons y members ih =>
    rw [List.foldr_cons]
    rcases List.mem_cons.mp hx with rfl | hx
    · exact min_le_left _ _
    · exact (min_le_right _ _).trans (ih hx)

theorem entryTime_le (hx : x ∈ queuedOfType q r.gpuType) (hentry : x.entry = r.entry) :
    entryTime q r ≤ x.createdAt :=
  foldr_min_le (List.mem_filter.mpr ⟨hx, decide_eq_true hentry⟩) _

theorem mem_earlierEntries {e : Entry} : e ∈ earlierEntries q r ↔
    ∃ x ∈ queuedOfType q r.gpuType, x.createdAt < entryTime q r ∧ x.entry = e := by
  simp only [earlierEntries, entriesBefore, List.mem_dedup, List.mem_map, List.mem_filter,
    decide_eq_true_eq, and_assoc]

/-- An earlier entry is another one. -/
theorem earlierEntries_subset (q : Queue) (r : Reservation) :
    earlierEntries q r ⊆ otherEntries q r := by
  intro e he
  obtain ⟨x, hx, hlt, rfl⟩ := mem_earlierEntries.mp he
  exact mem_otherEntries.mpr ⟨⟨x, hx, rfl⟩, fun hentry =>
    absurd hlt (not_lt.mpr (entryTime_le hx hentry))⟩

theorem fst_foldl_ahead (items : List Ahead) (position gpus : ℕ) :
    (items.foldl (fun (position, gpus) item => (position + 1, gpus + item.gpus))
      (position, gpus)).1 = position + items.length := by
  induction items generalizing position gpus with
  | nil => rfl
  | cons item items ih =>
    rw [List.foldl_cons, ih, List.length_cons]
    omega

theorem calculateMultinodeQueuePosition_iff (hmaster : r.multinode = some master) :
    (calculateMultinodeQueuePosition q master r.gpuType).1 = properPosition q r ↔
      ∀ x ∈ queuedOfType q r.gpuType, x.entry ≠ r.entry → x.entry ∈ earlierEntries q r := by
  have hsubperm := List.subperm_of_subset (nodup_earlierEntries q r) (earlierEntries_subset q r)
  rw [calculateMultinodeQueuePosition, fst_foldl_ahead, length_allAhead hmaster, properPosition,
    Nat.add_left_cancel_iff]
  constructor
  · intro hlength x hx hne
    have hperm := hsubperm.perm_of_length_le hlength.le
    exact hperm.mem_iff.mpr (mem_otherEntries.mpr ⟨⟨x, hx, rfl⟩, hne⟩)
  · intro h
    refine le_antisymm (List.Subperm.length_le ?_) hsubperm.length_le
    refine List.subperm_of_subset ((List.nodup_dedup _).filter _) fun e he => ?_
    obtain ⟨⟨x, hx, rfl⟩, hne⟩ := mem_otherEntries.mp he
    exact h x hx hne

/-- A group of two, and a single reservation behind it. -/
def groupOfTwo : List Reservation :=
  [⟨"0a", "h100", 8, 16, 0, some "0a", .queued⟩, ⟨"1b", "h100", 8, 16, 1, some "0a", .queued⟩,
    ⟨"2c", "h100", 1, 1, 2, none, .queued⟩]

def groupQueue : Queue where
  rows := groupOfTwo
  nodup_ids := by decide
  nodup_times := by decide +kernel
  firstPage query := groupOfTwo.filter query.selects
  firstPage_subperm _ := List.Subperm.refl _
  currentTime := 100
  canStart _ := false

end CiInfra.GpuDev.QueuePositions

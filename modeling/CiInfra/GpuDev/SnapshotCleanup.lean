import CiInfra.Lib.Fallible
import CiInfra.Lib.Grouping
import CiInfra.Lib.StableSort
import Mathlib.Algebra.GroupWithZero.Nat
import Mathlib.Data.Int.Order.Basic
import Mathlib.Data.List.Dedup

/-!
# The scheduled cleanup of snapshots

The volume of a disk is deleted once its shutdown snapshot is complete, so the latest snapshot of a
disk is its data. The cleanup keeps the three latest snapshots of a user, whatever disks they are
of, and deletes at most ten of the others in one run. Users with many snapshots come first.
-/

namespace CiInfra.GpuDev.SnapshotCleanup

open Interaction Program Fallible

inductive SnapshotState
  | pending
  | completed
  | error
  deriving DecidableEq

/-- An EBS snapshot with the tags that are read. -/
structure Snapshot where
  id : String
  /-- The tag `gpu-dev-user`. -/
  user : Option String
  /-- The tag `disk_name`. -/
  diskName : Option String
  /-- The tag `delete-date`. -/
  deleteDate : Option String
  startTime : ℤ
  state : SnapshotState
  deriving DecidableEq

/-- The snapshots of the account. Their ids are different. -/
structure Account where
  snapshots : List Snapshot
  nodup : (snapshots.map Snapshot.id).Nodup

namespace Account

/-- The snapshot exists. -/
def Has (s : Account) (id : String) : Prop := ∃ snap ∈ s.snapshots, snap.id = id

/-- The account without one snapshot. -/
def erase (s : Account) (id : String) : Account where
  snapshots := s.snapshots.filter fun snap => snap.id ≠ id
  nodup := s.nodup.sublist (List.filter_sublist.map _)

theorem not_has_erase (s : Account) (id : String) : ¬ (s.erase id).Has id := by
  rintro ⟨snap, hsnap, rfl⟩
  simp [erase] at hsnap

/-- A snapshot is found by its id. -/
theorem eq_of_id_eq {s : Account} {a b : Snapshot} (ha : a ∈ s.snapshots) (hb : b ∈ s.snapshots)
    (h : a.id = b.id) : a = b := List.inj_on_of_nodup_map s.nodup ha hb h

end Account

/-! ### The calls -/

/-- The snapshots that `describe_snapshots` is asked for. -/
inductive Filter
  /-- `tag-key` is `gpu-dev-user`. -/
  | tagged
  /-- `tag:gpu-dev-user` is the user, `status` is `completed`. -/
  | completedOf (user : String)

def Filter.selects : Filter → Snapshot → Bool
  | tagged, snap => snap.user.isSome
  | completedOf user, snap => snap.user == some user && snap.state == .completed

inductive Op
  | describeSnapshots (filter : Filter)
  | deleteSnapshot (id : String)
  | now

/-- The answers; `none` and `false` stand for an exception. -/
def Op.Res : Op → Type
  | describeSnapshots _ => Option (List Snapshot)
  | deleteSnapshot _ => Bool
  | now => ℤ

/-- A listing shows the selected snapshots in some order. A deletion that raises may still have
been carried out. -/
def Serves : (op : Op) → Account → op.Res → Account → Prop
  | .describeSnapshots filter, s, answer, s' =>
    s' = s ∧ ∀ shown, answer = some shown → shown.Perm (s.snapshots.filter filter.selects)
  | .deleteSnapshot id, s, deleted, s' => s' = s.erase id ∨ deleted = false ∧ s' = s
  | .now, s, _, s' => s' = s

abbrev Lambda := Fallible Op Op.Res Unit

def describeSnapshots (filter : Filter) : Lambda (List Snapshot) :=
  request (.describeSnapshots filter) fun
    | some shown => .ok shown
    | none => .error ()

def deleteSnapshot (id : String) : Lambda Unit :=
  request (.deleteSnapshot id) fun
    | true => .ok ()
    | false => .error ()

def now : Lambda ℤ := request .now .ok

/-! ### The cleanup -/

/-- `keep_count`. -/
def keepCount : ℕ := 3

/-- `max_age_days`, in seconds. -/
def maxAge : ℤ := 7 * 24 * 60 * 60

/-- `max_deletions_per_run`. -/
def maxDeletionsPerRun : ℕ := 10

/-- `max_users_per_run`. -/
def maxUsersPerRun : ℕ := 20

/-- Sort by creation time, newest first. -/
def newestFirst (snapshots : List Snapshot) : List Snapshot :=
  snapshots.mergeSort fun a b => b.startTime ≤ a.startTime

/-- The loop over the sorted snapshots, from the `i`-th on. -/
def deleteOld (cutoff : ℤ) : ℕ → ℕ → List Snapshot → Lambda ℕ
  | _, deleted, [] => return deleted
  | i, deleted, snap :: rest =>
    if maxDeletionsPerRun ≤ deleted then
      return deleted
    else if i < keepCount then
      deleteOld cutoff (i + 1) deleted rest
    else if snap.startTime < cutoff || keepCount ≤ i then do
      let deleted ← orElseGive (do deleteSnapshot snap.id; return deleted + 1) deleted
      deleteOld cutoff (i + 1) deleted rest
    else
      deleteOld cutoff (i + 1) deleted rest

def cleanupOldSnapshots (user : String) : Lambda ℕ :=
  orElseGive (do
    let snapshots ← describeSnapshots (.completedOf user)
    if snapshots.length ≤ keepCount then
      return 0
    else do
      let time ← now
      deleteOld (time - maxAge) 0 0 (newestFirst snapshots)) 0

/-- The snapshots by user. -/
def usersSnapshots (snapshots : List Snapshot) : List (String × List Snapshot) :=
  Grouping.groupBy (fun snap => snap.user.getD "")
    (snapshots.filter fun snap => snap.user.getD "" ≠ "")

/-- The users with a snapshot, those with the most snapshots first. -/
def sortedUsers (snapshots : List Snapshot) : List String :=
  ((usersSnapshots snapshots).mergeSort fun u v => v.2.length ≤ u.2.length).map Prod.fst

def cleanupAllUserSnapshots : Lambda ℕ :=
  orElseGive (do
    let snapshots ← describeSnapshots .tagged
    let deleted ← collect cleanupOldSnapshots ((sortedUsers snapshots).take maxUsersPerRun)
    return deleted.sum) 0

theorem nodup_sortedUsers (snapshots : List Snapshot) : (sortedUsers snapshots).Nodup :=
  ((List.mergeSort_perm _ _).map Prod.fst).nodup_iff.mpr (Grouping.groupBy_spec _ _).1

/-! ### What a run deletes -/

/-- The completed snapshots of a user. -/
def Account.completedOf (s : Account) (user : String) : List Snapshot :=
  s.snapshots.filter (Filter.completedOf user).selects

/-- The snapshot has three others of its user that are at least as new, all of them completed. -/
def IsOld (s : Account) (user id : String) : Prop :=
  ∃ snap ∈ s.completedOf user, snap.id = id ∧
    keepCount ≤
      ((s.completedOf user).filter fun t => t ≠ snap && snap.startTime ≤ t.startTime).length

/-- The account is the earlier one without some of these snapshots. -/
def IsWithout (gone : String → Prop) (before after : Account) : Prop :=
  ∃ keep : Snapshot → Bool, (∀ snap, ¬ gone snap.id → keep snap = true) ∧
    after.snapshots = before.snapshots.filter keep

theorem IsWithout.refl (gone : String → Prop) (s : Account) : IsWithout gone s s :=
  ⟨fun _ => true, fun _ _ => rfl, by simp⟩

theorem IsWithout.erase {gone : String → Prop} {s s' : Account} (h : IsWithout gone s s')
    {id : String} (hid : gone id) : IsWithout gone s (s'.erase id) := by
  obtain ⟨keep, hkeep, hs'⟩ := h
  refine ⟨fun snap => keep snap && snap.id ≠ id, fun snap hsnap => ?_, ?_⟩
  · have hne : snap.id ≠ id := fun heq => hsnap (heq ▸ hid)
    simp [hkeep snap hsnap, hne]
  · simp [Account.erase, hs', List.filter_filter, Bool.and_comm]

theorem IsWithout.mono {gone gone' : String → Prop} {s s' : Account} (h : IsWithout gone s s')
    (hgone : ∀ id, gone id → gone' id) : IsWithout gone' s s' := by
  obtain ⟨keep, hkeep, hs'⟩ := h
  exact ⟨keep, fun snap hsnap => hkeep snap fun hid => hsnap (hgone _ hid), hs'⟩

theorem IsWithout.trans {gone : String → Prop} {s₁ s₂ s₃ : Account} (h₁ : IsWithout gone s₁ s₂)
    (h₂ : IsWithout gone s₂ s₃) : IsWithout gone s₁ s₃ := by
  obtain ⟨keep₁, hkeep₁, hs₂⟩ := h₁
  obtain ⟨keep₂, hkeep₂, hs₃⟩ := h₂
  exact ⟨fun snap => keep₂ snap && keep₁ snap,
    fun snap hsnap => by simp [hkeep₁ snap hsnap, hkeep₂ snap hsnap],
    by rw [hs₃, hs₂, List.filter_filter]⟩

/-- A selection that contains none of these snapshots is unchanged. -/
theorem IsWithout.filter_eq {gone : String → Prop} {s s' : Account} (h : IsWithout gone s s')
    {p : Snapshot → Bool} (hp : ∀ snap ∈ s.snapshots, p snap → ¬ gone snap.id) :
    s'.snapshots.filter p = s.snapshots.filter p := by
  obtain ⟨keep, hkeep, hs'⟩ := h
  rw [hs', List.filter_filter]
  refine List.filter_congr fun snap hsnap => ?_
  cases hpsnap : p snap with
  | false => rfl
  | true => simp [hkeep snap (hp snap hsnap hpsnap)]

theorem IsWithout.has {gone : String → Prop} {s s' : Account} (h : IsWithout gone s s')
    {id : String} (hs : s.Has id) (hid : ¬ gone id) : s'.Has id := by
  obtain ⟨snap, hsnap, rfl⟩ := hs
  obtain ⟨keep, hkeep, hs'⟩ := h
  exact ⟨snap, by simp [hs', hsnap, hkeep snap hid], rfl⟩

/-- What the operation may delete. -/
def Op.Spares (kept : String → Prop) : Op → Prop
  | deleteSnapshot id => ¬ kept id
  | _ => True

/-- The loop deletes only snapshots behind the first three. -/
theorem issues_deleteOld (gone : String → Prop) (cutoff : ℤ) (i deleted : ℕ)
    (snapshots : List Snapshot) (h : ∀ snap ∈ snapshots.drop (keepCount - i), gone snap.id) :
    (deleteOld cutoff i deleted snapshots).Issues (Op.Spares fun id => ¬ gone id) := by
  induction snapshots generalizing i deleted with
  | nil => trivial
  | cons snap rest ih =>
    unfold deleteOld
    split
    · trivial
    · by_cases hi : i < keepCount
      · have hdrop : (snap :: rest).drop (keepCount - i) = rest.drop (keepCount - (i + 1)) := by
          rw [show keepCount - i = keepCount - (i + 1) + 1 by omega, List.drop_succ_cons]
        rw [if_pos hi]
        exact ih _ _ (hdrop ▸ h)
      · have hall : ∀ t ∈ snap :: rest, gone t.id := by
          rwa [show keepCount - i = 0 by omega, List.drop_zero] at h
        obtain ⟨hhead, hrest⟩ := List.forall_mem_cons.mp hall
        have hloop := fun d => ih (i + 1) d fun t ht => hrest t (List.mem_of_mem_drop ht)
        rw [if_neg hi]
        split
        · refine Issues.bind (Issues.orElseGive (Issues.bind (issues_request ?_) fun _ => ?_) _)
            hloop
          · exact not_not.mpr hhead
          · trivial
        · exact hloop _

theorem newer_trans (a b c : Snapshot) (hab : decide (b.startTime ≤ a.startTime) = true)
    (hbc : decide (c.startTime ≤ b.startTime) = true) :
    decide (c.startTime ≤ a.startTime) = true := by
  rw [decide_eq_true_eq] at hab hbc ⊢
  exact hbc.trans hab

theorem newer_total (a b : Snapshot) :
    (decide (b.startTime ≤ a.startTime) || decide (a.startTime ≤ b.startTime)) = true := by
  rw [Bool.or_eq_true, decide_eq_true_eq, decide_eq_true_eq]
  exact le_total _ _

theorem Account.nodup_completedOf (s : Account) (user : String) : (s.completedOf user).Nodup :=
  s.nodup.of_map.filter _

/-- In any order of the listing, a snapshot behind the first three is old. -/
theorem isOld_of_mem_drop {s : Account} {user : String} {shown : List Snapshot}
    (hshown : shown.Perm (s.completedOf user)) {snap : Snapshot}
    (hsnap : snap ∈ (newestFirst shown).drop keepCount) : IsOld s user snap.id := by
  have hmem : snap ∈ shown := (List.mergeSort_perm _ _).mem_iff.mp (List.mem_of_mem_drop hsnap)
  refine ⟨snap, hshown.mem_iff.mp hmem, rfl, ?_⟩
  calc keepCount ≤ (shown.filter fun t => t ≠ snap && snap.startTime ≤ t.startTime).length :=
        StableSort.le_length_filter_of_mem_drop newer_trans newer_total
          (hshown.nodup_iff.mpr (s.nodup_completedOf user)) hsnap
    _ = _ := (hshown.filter _).length_eq

/-- In some order of the listing, an old snapshot is behind the first three. -/
theorem IsOld.exists_mem_drop {s : Account} {user id : String} (h : IsOld s user id) :
    ∃ shown : List Snapshot, shown.Perm (s.completedOf user) ∧
      ∃ snap ∈ (newestFirst shown).drop keepCount, snap.id = id := by
  obtain ⟨snap, hsnap, rfl, hcount⟩ := h
  have hperm : ((s.completedOf user).erase snap ++ [snap]).Perm (s.completedOf user) :=
    (List.perm_append_singleton _ _).trans (List.perm_cons_erase hsnap).symm
  refine ⟨_, hperm, snap, ?_, rfl⟩
  have hnodup := s.nodup_completedOf user
  refine StableSort.mem_drop_of_last newer_trans newer_total (hperm.nodup_iff.mpr hnodup) ?_
  rwa [hnodup.erase_eq_filter, List.filter_filter, ← List.filter_congr fun t _ => ?_]
  simp [bne, beq_eq_decide, Bool.and_comm]

theorem exec_describeSnapshots {filter : Filter} {s s' : Account} {shown : List Snapshot}
    {t : List (Served Op Op.Res Account)}
    (h : Exec Serves (describeSnapshots filter).run s t (.ok shown) s') :
    s' = s ∧ shown.Perm (s.snapshots.filter filter.selects) := by
  obtain ⟨answer, -, ⟨hs', hperm⟩, hanswer⟩ := exec_request h
  refine ⟨hs', ?_⟩
  cases answer with
  | none => cases hanswer
  | some _ =>
    cases hanswer
    exact hperm _ rfl

/-- A cleanup for one user deletes only old snapshots of the user. -/
theorem isWithout_cleanupOldSnapshots {user : String} {s s' : Account}
    {t : List (Served Op Op.Res Account)} {r : Except Unit ℕ}
    (h : Exec Serves (cleanupOldSnapshots user).run s t r s') : IsWithout (IsOld s user) s s' := by
  obtain ⟨_, h⟩ := exec_orElseGive h
  rcases exec_bind h with ⟨_, -, hraised⟩ | ⟨shown, s₁, _, _, -, hshown, hrest⟩
  · obtain ⟨_, -, ⟨rfl, -⟩, -⟩ := exec_request hraised
    exact .refl _ _
  · obtain ⟨rfl, hlisted⟩ := exec_describeSnapshots hshown
    split at hrest
    · obtain ⟨-, -, rfl⟩ := exec_done_iff.mp hrest
      exact .refl _ _
    · rcases exec_bind hrest with ⟨_, -, hraised⟩ | ⟨time, s₂, _, _, -, htime, hloop⟩
      · obtain ⟨_, -, rfl, -⟩ := exec_request hraised
        exact .refl _ _
      · obtain ⟨_, -, rfl, -⟩ := exec_request htime
        have hissues := issues_deleteOld (IsOld s₂ user) (time - maxAge) 0 0
          (newestFirst shown) fun snap hsnap => isOld_of_mem_drop hlisted hsnap
        refine hloop.keeps (K := IsWithout (IsOld s₂ user) s₂)
          (fun op a answer b hop hserve ha => ?_)
          hissues (.refl _ _)
        cases op with
        | describeSnapshots => exact hserve.1 ▸ ha
        | deleteSnapshot id =>
          rcases hserve with rfl | ⟨-, rfl⟩
          · exact ha.erase (not_not.mp hop)
          · exact ha
        | now => exact hserve ▸ ha

/-- How many snapshots of any state a user has. -/
def Account.count (s : Account) (user : String) : ℕ :=
  (s.snapshots.filter fun snap => snap.user == some user).length

/-- The users of the account. -/
def Account.users (s : Account) : List String :=
  (s.snapshots.filterMap Snapshot.user).dedup.filter (· ≠ "")

/-- A run can come to the user: less than twenty users have more snapshots. -/
def IsAmongFirst (s : Account) (user : String) : Prop :=
  user ∈ s.users ∧ (s.users.filter fun v => s.count user < s.count v).length < maxUsersPerRun

/-- A run can delete the snapshot. -/
def AtRisk (s : Account) (id : String) : Prop := ∃ user, IsAmongFirst s user ∧ IsOld s user id

/-- A tagged snapshot that is grouped under its user. -/
theorem tag_eq_iff {snap : Snapshot} {user : String} (huser : user ≠ "") :
    snap.user.getD "" = user ↔ snap.user = some user := by
  cases snap.user with
  | none => simp [huser.symm]
  | some v => simp

section Listed

variable {s : Account} {all : List Snapshot}

/-- Each user is grouped with the snapshots of the user. -/
theorem mem_usersSnapshots (hall : all.Perm (s.snapshots.filter Filter.tagged.selects))
    {g : String × List Snapshot} (hg : g ∈ usersSnapshots all) :
    g.1 ∈ s.users ∧ g.2.length = s.count g.1 := by
  obtain ⟨huser, hown⟩ := Grouping.mem_groupBy.mp hg
  obtain ⟨snap, hsnap, htag⟩ := List.mem_map.mp huser
  obtain ⟨hsnap, hne⟩ := List.mem_filter.mp hsnap
  have hne : g.1 ≠ "" := by simpa [htag] using hne
  have hmem := (List.mem_filter.mp (hall.mem_iff.mp hsnap)).1
  constructor
  · have huser := List.mem_filterMap.mpr ⟨snap, hmem, (tag_eq_iff hne).mp htag⟩
    exact List.mem_filter.mpr ⟨List.mem_dedup.mpr huser, by simpa using hne⟩
  · rw [hown, List.filter_filter, (hall.filter _).length_eq, List.filter_filter, Account.count]
    congr 1
    refine List.filter_congr fun t _ => ?_
    by_cases ht : t.user = some g.1
    · simp [Filter.selects, ht, hne]
    · simp [ht, tag_eq_iff hne]

/-- The users that are grouped are the users of the account. -/
theorem usersSnapshots_perm (hall : all.Perm (s.snapshots.filter Filter.tagged.selects)) :
    ((usersSnapshots all).map Prod.fst).Perm s.users := by
  refine (List.perm_ext_iff_of_nodup (Grouping.groupBy_spec _ _).1
    ((List.nodup_dedup _).filter _)).mpr fun user => ⟨fun huser => ?_, fun huser => ?_⟩
  · obtain ⟨g, hg, rfl⟩ := List.mem_map.mp huser
    exact (mem_usersSnapshots hall hg).1
  · obtain ⟨huser, hne⟩ := List.mem_filter.mp huser
    have hne : user ≠ "" := by simpa using hne
    obtain ⟨snap, hsnap, htag⟩ := List.mem_filterMap.mp (List.mem_dedup.mp huser)
    have hmem : snap ∈ all := hall.mem_iff.mpr (by simp [hsnap, Filter.selects, htag])
    refine List.mem_map.mpr ⟨(user, _), Grouping.mem_groupBy.mpr ⟨?_, rfl⟩, rfl⟩
    exact List.mem_map.mpr ⟨snap, by simp [hmem, htag, hne], by simp [htag]⟩

/-- As many users have more snapshots as groups are longer. -/
theorem length_filter_users (hall : all.Perm (s.snapshots.filter Filter.tagged.selects)) (n : ℕ) :
    (s.users.filter fun v => n < s.count v).length =
      ((usersSnapshots all).filter fun g => n < g.2.length).length := by
  rw [← ((usersSnapshots_perm hall).filter _).length_eq, List.filter_map, List.length_map]
  congr 1
  refine List.filter_congr fun g hg => ?_
  simp [(mem_usersSnapshots hall hg).2]

theorem longer_trans (a b c : String × List Snapshot)
    (hab : decide (b.2.length ≤ a.2.length) = true)
    (hbc : decide (c.2.length ≤ b.2.length) = true) :
    decide (c.2.length ≤ a.2.length) = true := by
  rw [decide_eq_true_eq] at hab hbc ⊢
  exact hbc.trans hab

theorem longer_total (a b : String × List Snapshot) :
    (decide (b.2.length ≤ a.2.length) || decide (a.2.length ≤ b.2.length)) = true := by
  rw [Bool.or_eq_true, decide_eq_true_eq, decide_eq_true_eq]
  exact le_total _ _

/-- In any order of the listing, less than twenty users have more snapshots than one of the first
twenty. -/
theorem isAmongFirst_of_mem_take (hall : all.Perm (s.snapshots.filter Filter.tagged.selects))
    {user : String} (huser : user ∈ (sortedUsers all).take maxUsersPerRun) :
    IsAmongFirst s user := by
  rw [sortedUsers, ← List.map_take] at huser
  obtain ⟨g, hg, rfl⟩ := List.mem_map.mp huser
  have hmem := (List.mergeSort_perm _ _).mem_iff.mp (List.mem_of_mem_take hg)
  obtain ⟨huser, hcount⟩ := mem_usersSnapshots hall hmem
  refine ⟨huser, ?_⟩
  rw [length_filter_users hall, ← hcount]
  simpa only [← decide_not, not_le] using
    StableSort.length_filter_lt_of_mem_take longer_trans longer_total hg

end Listed

/-- In some order of the listing, a user is among the first twenty if less than twenty users have
more snapshots. -/
theorem IsAmongFirst.exists_mem_take {s : Account} {user : String} (h : IsAmongFirst s user) :
    ∃ all : List Snapshot, all.Perm (s.snapshots.filter Filter.tagged.selects) ∧
      user ∈ (sortedUsers all).take maxUsersPerRun := by
  obtain ⟨huser, hcount⟩ := h
  obtain ⟨huser, hne⟩ := List.mem_filter.mp huser
  have hne : user ≠ "" := by simpa using hne
  obtain ⟨snap, hsnap, htag⟩ := List.mem_filterMap.mp (List.mem_dedup.mp huser)
  have hmem : snap ∈ s.snapshots.filter Filter.tagged.selects := by
    simp [hsnap, Filter.selects, htag]
  have hall := (List.perm_cons_erase hmem).symm
  refine ⟨_, hall, ?_⟩
  obtain ⟨own, rest, hgroups⟩ :=
    Grouping.groupBy_cons (fun snap : Snapshot => snap.user.getD "") snap
    (((s.snapshots.filter Filter.tagged.selects).erase snap).filter fun snap =>
      snap.user.getD "" ≠ "")
  have hfirst : usersSnapshots (snap :: (s.snapshots.filter Filter.tagged.selects).erase snap) =
      (user, own) :: rest := by
    simp only [htag, Option.getD_some] at hgroups
    rw [← hgroups, usersSnapshots, List.filter_cons_of_pos (by simpa [htag] using hne)]
  have hown : own.length = s.count user :=
    (mem_usersSnapshots hall (hfirst ▸ List.mem_cons_self (a := (user, own)))).2
  rw [length_filter_users hall, hfirst, List.filter_cons_of_neg (by simp [hown])] at hcount
  rw [sortedUsers, hfirst, ← List.map_take]
  exact List.mem_map.mpr ⟨(user, own), StableSort.mem_take_of_first longer_trans longer_total
    (by simpa only [← decide_not, not_le, hown] using hcount), rfl⟩

/-- Deleting old snapshots of one user leaves the snapshots of another one. -/
theorem IsWithout.completedOf_eq {s s' : Account} {user other : String}
    (h : IsWithout (IsOld s user) s s') (hne : other ≠ user) :
    s'.completedOf other = s.completedOf other := by
  refine h.filter_eq fun snap hsnap hselected => ?_
  rintro ⟨old, hold, hid, -⟩
  obtain ⟨holdMem, holdOf⟩ := List.mem_filter.mp hold
  rw [Account.eq_of_id_eq holdMem hsnap hid] at holdOf
  simp only [Filter.selects, Bool.and_eq_true, beq_iff_eq] at holdOf hselected
  exact hne (Option.some.inj (hselected.1.symm.trans holdOf.1))

/-- The loop over different users deletes only what was old before it. -/
theorem isWithout_collect {gone : String → Prop} {base : Account} {users : List String}
    (hnodup : users.Nodup) (hgone : ∀ user ∈ users, ∀ id, IsOld base user id → gone id)
    {s s' : Account} (hs : IsWithout gone base s)
    (hsame : ∀ user ∈ users, s.completedOf user = base.completedOf user)
    {t : List (Served Op Op.Res Account)} {r : Except Unit (List ℕ)}
    (h : Exec Serves (collect cleanupOldSnapshots users).run s t r s') :
    IsWithout gone base s' := by
  induction users generalizing s t r with
  | nil =>
    obtain ⟨-, -, rfl⟩ := exec_done_iff.mp h
    exact hs
  | cons user users ih =>
    obtain ⟨huser, hnodup⟩ := List.nodup_cons.mp hnodup
    obtain ⟨hgoneUser, hgone⟩ := List.forall_mem_cons.mp hgone
    obtain ⟨hsameUser, hsame⟩ := List.forall_mem_cons.mp hsame
    have hstep : ∀ {s₁ t₁ r₁}, Exec Serves (cleanupOldSnapshots user).run s t₁ r₁ s₁ →
        IsWithout gone base s₁ ∧ ∀ v ∈ users, s₁.completedOf v = base.completedOf v := by
      intro s₁ _ _ h₁
      have hwithout := isWithout_cleanupOldSnapshots h₁
      refine ⟨hs.trans (hwithout.mono fun id hid => hgoneUser id ?_), fun v hv => ?_⟩
      · rwa [IsOld, ← hsameUser]
      · have hne : v ≠ user := by
          rintro rfl
          exact huser hv
        rw [hwithout.completedOf_eq hne, hsame v hv]
    rcases exec_bind h with ⟨_, -, hraised⟩ | ⟨_, s₁, _, _, -, hfirst, hrest⟩
    · exact (hstep hraised).1
    · obtain ⟨hwithout, hsame⟩ := hstep hfirst
      rcases exec_bind hrest with ⟨_, -, hraised⟩ | ⟨_, _, _, _, -, hloop, hdone⟩
      · exact ih hnodup hgone hwithout hsame hraised
      · obtain ⟨-, -, rfl⟩ := exec_done_iff.mp hdone
        exact ih hnodup hgone hwithout hsame hloop

/-- A run deletes only snapshots at risk. -/
theorem isWithout_cleanupAllUserSnapshots {s s' : Account} {t : List (Served Op Op.Res Account)}
    {r : Except Unit ℕ} (h : Exec Serves cleanupAllUserSnapshots.run s t r s') :
    IsWithout (AtRisk s) s s' := by
  obtain ⟨_, h⟩ := exec_orElseGive h
  rcases exec_bind h with ⟨_, -, hraised⟩ | ⟨all, s₁, _, _, -, hall, hrest⟩
  · obtain ⟨_, -, ⟨rfl, -⟩, -⟩ := exec_request hraised
    exact .refl _ _
  · obtain ⟨rfl, hlisted⟩ := exec_describeSnapshots hall
    have hloop : ∀ {s' t r}, Exec Serves (collect cleanupOldSnapshots
        ((sortedUsers all).take maxUsersPerRun)).run s₁ t r s' → IsWithout (AtRisk s₁) s₁ s' :=
      isWithout_collect ((nodup_sortedUsers all).sublist (List.take_sublist _ _))
        (fun user huser id hold => ⟨user, isAmongFirst_of_mem_take hlisted huser, hold⟩)
        (.refl _ _) fun _ _ => rfl
    rcases exec_bind hrest with ⟨_, -, hraised⟩ | ⟨_, _, _, _, -, hcollect, hdone⟩
    · exact hloop hraised
    · obtain ⟨-, -, rfl⟩ := exec_done_iff.mp hdone
      exact hloop hcollect

/-! ### A run that deletes what is at risk -/

/-- Any program has a run in which no call does anything. -/
theorem exists_exec_idle {α : Type} (p : Program Op Op.Res α) (s : Account) :
    ∃ t a, Exec Serves p s t a s := by
  induction p with
  | done a => exact ⟨[], a, .done _ _⟩
  | call op next ih =>
    have hidle : ∃ answer, Serves op s answer s := by
      cases op with
      | describeSnapshots => exact ⟨none, rfl, nofun⟩
      | deleteSnapshot => exact ⟨false, Or.inr ⟨rfl, rfl⟩⟩
      | now => exact ⟨(0 : ℤ), rfl⟩
    obtain ⟨answer, hserves⟩ := hidle
    obtain ⟨t, a, h⟩ := ih answer
    exact ⟨_, a, .call hserves h⟩

theorem exec_attempt {id : String} {s s' : Account} {ok : Bool}
    (h : Serves (.deleteSnapshot id) s ok s') (deleted : ℕ) :
    ∃ t, Exec Serves (orElseGive (do deleteSnapshot id; return deleted + 1 : Lambda ℕ) deleted).run
      s t (.ok (if ok then deleted + 1 else deleted)) s' := by
  cases ok with
  | true => exact ⟨_, .call h (.done _ _)⟩
  | false => exact ⟨_, .call h (.done _ _)⟩

/-- The loop can delete a snapshot behind the first three and no other one. -/
theorem exists_exec_deleteOld {s : Account} {snap : Snapshot} {snapshots : List Snapshot}
    (cutoff : ℤ) (i : ℕ) (h : snap ∈ snapshots.drop (keepCount - i)) :
    ∃ t r, Exec Serves (deleteOld cutoff i 0 snapshots).run s t r (s.erase snap.id) := by
  induction snapshots generalizing i with
  | nil => simp at h
  | cons first rest ih =>
    unfold deleteOld
    rw [if_neg (by decide)]
    by_cases hi : i < keepCount
    · rw [show keepCount - i = keepCount - (i + 1) + 1 by omega, List.drop_succ_cons] at h
      rw [if_pos hi]
      exact ih _ h
    · rw [show keepCount - i = 0 by omega, List.drop_zero] at h
      rw [if_neg hi, if_pos (by simp [Nat.le_of_not_lt hi])]
      by_cases hfirst : first = snap
      · subst hfirst
        obtain ⟨_, hdelete⟩ :=
          exec_attempt (Or.inl rfl : Serves (.deleteSnapshot first.id) s true _) 0
        obtain ⟨_, r, hrest⟩ := exists_exec_idle (deleteOld cutoff (i + 1) 1 rest).run
          (s.erase first.id)
        exact ⟨_, r, exec_bind_ok hdelete hrest⟩
      · have hmem : snap ∈ rest.drop (keepCount - (i + 1)) := by
          rw [show keepCount - (i + 1) = 0 by omega, List.drop_zero]
          simpa [Ne.symm hfirst] using h
        obtain ⟨_, r, hrest⟩ := ih (i + 1) hmem
        obtain ⟨_, hrefuse⟩ :=
          exec_attempt (Or.inr ⟨rfl, rfl⟩ : Serves (.deleteSnapshot first.id) s false s) 0
        exact ⟨_, r, exec_bind_ok hrefuse hrest⟩

/-- A cleanup for a user can delete an old snapshot of the user and no other one. -/
theorem IsOld.exists_exec {s : Account} {user id : String} (h : IsOld s user id) :
    ∃ t n, Exec Serves (cleanupOldSnapshots user).run s t (.ok n) (s.erase id) := by
  obtain ⟨shown, hshown, snap, hsnap, rfl⟩ := h.exists_mem_drop
  have hserves : Serves (.describeSnapshots (.completedOf user)) s (some shown) s :=
    ⟨rfl, by rintro _ ⟨⟩; exact hshown⟩
  have hdescribe : Exec Serves (describeSnapshots (.completedOf user)).run s _ (.ok shown) s :=
    .call hserves (.done _ _)
  have hlength : ¬ shown.length ≤ keepCount := by
    have := List.length_pos_of_mem hsnap
    rw [List.length_drop, newestFirst, List.length_mergeSort] at this
    omega
  have hserves : Serves .now s (0 : ℤ) s := rfl
  have hnow : Exec Serves now.run s _ (.ok 0) s := .call hserves (.done _ _)
  obtain ⟨_, r, hloop⟩ := exists_exec_deleteOld (s := s) (0 - maxAge) 0 hsnap
  have hbody : Exec Serves (do
      let snapshots ← describeSnapshots (.completedOf user)
      if snapshots.length ≤ keepCount then return 0
      else do
        let time ← now
        deleteOld (time - maxAge) 0 0 (newestFirst snapshots) : Lambda ℕ).run
      s _ r (s.erase snap.id) :=
    exec_bind_ok hdescribe (by rw [if_neg hlength]; exact exec_bind_ok hnow hloop)
  obtain ⟨n, hcleanup⟩ := exec_orElseGive_ok hbody 0
  exact ⟨_, n, hcleanup⟩

theorem exists_exec_cleanup_idle (user : String) (s : Account) :
    ∃ t n, Exec Serves (cleanupOldSnapshots user).run s t (.ok n) s :=
  ⟨_, _, .call (⟨rfl, nofun⟩ : Serves (.describeSnapshots (.completedOf user)) s none s)
    (.done _ _)⟩

theorem exists_exec_collect_idle (users : List String) (s : Account) :
    ∃ t n, Exec Serves (collect cleanupOldSnapshots users).run s t (.ok n) s := by
  induction users with
  | nil => exact ⟨_, _, .done _ _⟩
  | cons user users ih =>
    obtain ⟨_, n, hidle⟩ := exists_exec_cleanup_idle user s
    obtain ⟨_, ns, hrest⟩ := ih
    exact ⟨_, _, exec_bind_ok hidle (exec_bind_ok hrest (.done _ _))⟩

/-- The loop over the users can delete what a cleanup for one of them can. -/
theorem exists_exec_collect {users : List String} {user id : String} {s : Account}
    (huser : user ∈ users) (h : IsOld s user id) :
    ∃ t n, Exec Serves (collect cleanupOldSnapshots users).run s t (.ok n) (s.erase id) := by
  induction users with
  | nil => cases huser
  | cons first users ih =>
    by_cases hfirst : first = user
    · subst hfirst
      obtain ⟨_, n, hcleanup⟩ := h.exists_exec
      obtain ⟨_, ns, hrest⟩ := exists_exec_collect_idle users (s.erase id)
      exact ⟨_, _, exec_bind_ok hcleanup (exec_bind_ok hrest (.done _ _))⟩
    · obtain ⟨_, n, hidle⟩ := exists_exec_cleanup_idle first s
      obtain ⟨_, ns, hrest⟩ := ih ((List.mem_cons.mp huser).resolve_left (Ne.symm hfirst))
      exact ⟨_, _, exec_bind_ok hidle (exec_bind_ok hrest (.done _ _))⟩

/-- A run can delete a snapshot at risk and no other one. -/
theorem AtRisk.exists_exec {s : Account} {id : String} (h : AtRisk s id) :
    ∃ t r, Exec Serves cleanupAllUserSnapshots.run s t r (s.erase id) := by
  obtain ⟨user, hfirst, hold⟩ := h
  obtain ⟨all, hall, huser⟩ := hfirst.exists_mem_take
  have hserves : Serves (.describeSnapshots .tagged) s (some all) s :=
    ⟨rfl, by rintro _ ⟨⟩; exact hall⟩
  have hdescribe : Exec Serves (describeSnapshots .tagged).run s _ (.ok all) s :=
    .call hserves (.done _ _)
  obtain ⟨_, ns, hloop⟩ := exists_exec_collect huser hold
  have hbody : Exec Serves (do
      let snapshots ← describeSnapshots .tagged
      let deleted ← collect cleanupOldSnapshots ((sortedUsers snapshots).take maxUsersPerRun)
      return deleted.sum : Lambda ℕ).run s _ (.ok ns.sum) (s.erase id) :=
    exec_bind_ok hdescribe (exec_bind_ok hloop (.done _ _))
  obtain ⟨n, hrun⟩ := exec_orElseGive_ok hbody 0
  exact ⟨_, _, hrun⟩

/-! ### What is the only copy of a disk -/

/-- An item of the disks table. -/
structure Disk where
  user : String
  name : String
  isDeleted : Bool
  cloneSourceSnapshot : Option String
  deriving DecidableEq

/-- The snapshot is one that the disk is restored from: a completed snapshot of the disk without a
tag `delete-date`. -/
def Snapshot.isOwnOf (snap : Snapshot) (disk : Disk) : Bool :=
  snap.user == some disk.user && snap.diskName == some disk.name && snap.state == .completed &&
    snap.deleteDate.isNone

/-- The snapshot is the latest one of a disk that has not been deleted. -/
def IsLatest (disks : List Disk) (s : Account) (id : String) : Prop :=
  ∃ disk ∈ disks, disk.isDeleted = false ∧ ∃ snap ∈ s.snapshots, snap.id = id ∧
    snap.isOwnOf disk ∧ ∀ t ∈ s.snapshots, t.isOwnOf disk → t.startTime ≤ snap.startTime

/-- The snapshot is the source of a clone that has no own snapshot yet. -/
def IsCloneSource (disks : List Disk) (s : Account) (id : String) : Prop :=
  s.Has id ∧ ∃ disk ∈ disks, disk.cloneSourceSnapshot = some id ∧
    ∀ t ∈ s.snapshots, ¬ t.isOwnOf disk

/-- The snapshot is the only copy of a disk. -/
def IsOnlyCopy (disks : List Disk) (s : Account) (id : String) : Prop :=
  IsLatest disks s id ∨ IsCloneSource disks s id

theorem IsOnlyCopy.has {disks : List Disk} {s : Account} {id : String} (h : IsOnlyCopy disks s id) :
    s.Has id := by
  rcases h with ⟨_, _, _, snap, hsnap, hid, _⟩ | ⟨hhas, _⟩
  · exact ⟨snap, hsnap, hid⟩
  · exact hhas

/-- One run of the cleanup leads from one account to the other. -/
def Cleanup (s s' : Account) : Prop := ∃ t r, Exec Serves cleanupAllUserSnapshots.run s t r s'

/-- Any number of runs of the cleanup lead from one account to the other. -/
def Cleanups : Account → Account → Prop := Relation.ReflTransGen Cleanup

/-- Whatever runs of the cleanup there are, every snapshot that is the only copy of a disk still
exists exactly if none of them is at risk before any of the runs. -/
theorem onlyCopies_kept_iff (disks : List Disk) (s : Account) :
    (∀ s', Cleanups s s' → ∀ id, IsOnlyCopy disks s id → s'.Has id) ↔
      ∀ s', Cleanups s s' → ∀ id, IsOnlyCopy disks s id → ¬ AtRisk s' id := by
  constructor
  · intro hkept s' hs' id hid hrisk
    obtain ⟨t, r, hrun⟩ := hrisk.exists_exec
    exact s'.not_has_erase id (hkept _ (hs'.tail ⟨t, r, hrun⟩) id hid)
  · intro hrisk s' hs' id hid
    induction hs' with
    | refl => exact hid.has
    | tail hbefore hrun ih =>
      obtain ⟨t, r, hrun⟩ := hrun
      exact (isWithout_cleanupAllUserSnapshots hrun).has ih (hrisk _ hbefore id hid)

/-- A user with an old disk and three newer snapshots of another disk. -/
def oldDisk : List Disk := [⟨"ada", "thesis", false, none⟩, ⟨"ada", "scratch", false, none⟩]

def oldDiskAccount : Account where
  snapshots :=
    [⟨"snap-1", some "ada", some "thesis", none, 0, .completed⟩,
      ⟨"snap-2", some "ada", some "scratch", none, 10, .completed⟩,
      ⟨"snap-3", some "ada", some "scratch", none, 20, .completed⟩,
      ⟨"snap-4", some "ada", some "scratch", none, 30, .completed⟩]
  nodup := by decide

/-- The only snapshot of the old disk does not survive a run. -/
theorem not_onlyCopies_kept :
    ¬ ∀ s', Cleanups oldDiskAccount s' → ∀ id, IsOnlyCopy oldDisk oldDiskAccount id →
      s'.Has id := by
  intro hkept
  have hrisk : AtRisk oldDiskAccount "snap-1" :=
    ⟨"ada", by unfold IsAmongFirst; decide, _, List.mem_cons_self, rfl, by decide⟩
  have honly : IsOnlyCopy oldDisk oldDiskAccount "snap-1" :=
    Or.inl ⟨_, List.mem_cons_self, rfl, _, List.mem_cons_self, rfl, by decide, by decide⟩
  obtain ⟨t, r, hrun⟩ := hrisk.exists_exec
  exact Account.not_has_erase _ _ (hkept _ (.tail .refl ⟨t, r, hrun⟩) _ honly)

end CiInfra.GpuDev.SnapshotCleanup

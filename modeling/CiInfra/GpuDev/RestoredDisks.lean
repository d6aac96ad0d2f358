import CiInfra.GpuDev.DiskRestores

/-!
# What a disk is restored from

A disk is to be restored from its own latest snapshot, or from the one that it is a clone of. This
file compares the slow path with that, and shows that a disk with a name of its own is restored as
it is to be.
-/

namespace CiInfra.GpuDev.DiskRestores

open SnapshotBookkeeping (firstMax truthy)

/-! ### What belongs to a disk -/

/-- The disk that a name stands for. -/
def diskOf (diskName : Option String) : String := (truthy diskName).getD "default"

/-- The snapshot is one of the disk. Those of the default disk may be untagged. -/
def Belongs (user disk : String) (s : Snapshot) : Prop :=
  s.tag "gpu-dev-user" = some user ∧
    (s.tag "disk_name" = some disk ∨ disk = "default" ∧ s.tag "disk_name" = none)

/-- The snapshot is a completed one of the disk, and not to be deleted. -/
structure IsActive (a : Account) (user disk : String) (s : Snapshot) : Prop where
  mem : s ∈ a.snapshots
  belongs : Belongs user disk s
  completed : s.state = .completed
  kept : s.isKept

/-- No active snapshot of the disk is later. -/
def IsLatest (a : Account) (user disk : String) (s : Snapshot) : Prop :=
  IsActive a user disk s ∧ ∀ t, IsActive a user disk t → t.startTime ≤ s.startTime

/-- The disk has a clone source, which is this snapshot. -/
def IsCloneSource (a : Account) (user disk : String) (s : Snapshot) : Prop :=
  s ∈ a.snapshots ∧ truthy (a.cloneSource (user, disk)) = some s.id

/-- The disk has no active snapshot. -/
def HasNone (a : Account) (user disk : String) : Prop := ∀ s, ¬ IsActive a user disk s

/-- A snapshot of the disk is pending, or the one that it is a clone of. -/
def IsPending (a : Account) (user disk : String) : Prop :=
  (∃ s ∈ a.snapshots, Belongs user disk s ∧ s.state = .pending) ∨
    HasNone a user disk ∧ ∃ s, IsCloneSource a user disk s ∧ s.state = .pending

/-- What the disk is to be restored from, if anything. -/
inductive RestoresFrom (a : Account) (user disk : String) : Option Snapshot → Prop
  | own {s : Snapshot} : IsLatest a user disk s → RestoresFrom a user disk (some s)
  | clone {s : Snapshot} : HasNone a user disk → IsCloneSource a user disk s →
      s.state = .completed → RestoresFrom a user disk (some s)
  | nothing : HasNone a user disk → truthy (a.cloneSource (user, disk)) = none →
      RestoresFrom a user disk none

/-- A call of the function, and the node on which the pod runs. -/
structure Call where
  user : String
  availabilityZone : String
  diskName : Option String
  skipSnapshotRestore : Bool
  now : ℤ
  node : String

namespace Call

variable (c : Call) (a : Account)

/-- The disk that the call is about. -/
def disk : String := diskOf c.diskName

def outcome : Outcome :=
  createDiskFromSnapshotOrEmpty a c.user c.availabilityZone c.diskName c.skipSnapshotRestore c.now

/-- The disk is refused, since it is in use. -/
def isRefused : Bool := isStillInUse a c.user c.diskName

def raisesPending : Prop := ∃ message, (c.outcome a).result = .error (.snapshotPending message)

/-- The call gives a volume. -/
def Gives (v : NewVolume) (isNewDisk : Bool) : Prop := (c.outcome a).result = .ok (v, isNewDisk)

/-- The disk is restored from its own latest snapshot, on the slow path and on the fast one. -/
structure RestoresDisk (caches : Caches) : Prop where
  nothing_created : c.raisesPending a → (c.outcome a).created = []
  pending : c.skipSnapshotRestore = false → c.isRefused a = false →
    (c.raisesPending a ↔ IsPending a c.user c.disk)
  restored : c.skipSnapshotRestore = false → ∀ v isNewDisk, c.Gives a v isNewDisk →
    (c.outcome a).created = [v] ∧ RestoresFrom a c.user c.disk v.source ∧
      (v.source = none → isNewDisk = true)
  gives : c.skipSnapshotRestore = false → c.isRefused a = false → ¬ IsPending a c.user c.disk →
    (∃ source, RestoresFrom a c.user c.disk source) → ∃ v isNewDisk, c.Gives a v isNewDisk
  home : c.skipSnapshotRestore = true → ∀ v isNewDisk, c.Gives a v isNewDisk →
    ¬ IsPending a c.user c.disk ∧ ∃ source, RestoresFrom a c.user c.disk source ∧
      startHome caches c.node c.user c.skipSnapshotRestore (volumeFiles a v.source) =
        volumeFiles a source

end Call

/-! ### The first of the greatest -/

theorem foldl_max_spec {α : Type} {key : α → ℤ} (l : List α) (a : α) :
    l.foldl (fun best b => if key best < key b then b else best) a ∈ a :: l ∧
      ∀ b ∈ a :: l,
        key b ≤ key (l.foldl (fun best b => if key best < key b then b else best) a) := by
  induction l generalizing a with
  | nil => simp
  | cons b l ih =>
    rw [List.foldl_cons]
    split
    case isTrue hlt =>
      obtain ⟨hmem, hle⟩ := ih b
      refine ⟨List.mem_cons_of_mem a hmem, ?_⟩
      intro d hd
      rcases List.mem_cons.mp hd with rfl | hd
      · exact hlt.le.trans (hle b List.mem_cons_self)
      · exact hle d hd
    case isFalse hlt =>
      obtain ⟨hmem, hle⟩ := ih a
      refine ⟨?_, ?_⟩
      · rcases List.mem_cons.mp hmem with heq | hmem
        · rw [heq]
          exact List.mem_cons_self
        · exact List.mem_cons_of_mem a (List.mem_cons_of_mem b hmem)
      · intro d hd
        rcases List.mem_cons.mp hd with rfl | hd
        · exact hle d List.mem_cons_self
        · rcases List.mem_cons.mp hd with rfl | hd
          · exact (not_lt.mp hlt).trans (hle a List.mem_cons_self)
          · exact hle d (List.mem_cons_of_mem a hd)

section FirstMax

variable {α : Type} {key : α → ℤ} {l : List α} {s : α}

theorem firstMax_eq_none_iff : firstMax key l = none ↔ l = [] := by
  cases l <;> simp [firstMax]

theorem mem_of_firstMax (h : firstMax key l = some s) : s ∈ l := by
  cases l with
  | nil => cases h
  | cons b l => exact Option.some.inj h ▸ (foldl_max_spec l b).1

theorem le_of_firstMax (h : firstMax key l = some s) : ∀ t ∈ l, key t ≤ key s := by
  cases l with
  | nil => cases h
  | cons b l => exact Option.some.inj h ▸ (foldl_max_spec l b).2

end FirstMax

/-! ### The slow path -/

section Slow

variable {c : Call} {a : Account} {caches : Caches}

theorem restoresDisk_of_refused (h : c.isRefused a = true) : c.RestoresDisk a caches := by
  have houtcome : c.outcome a = fail (.error ("Disk '" ++ c.diskName.getD "" ++
      "' is still in use after waiting 120s")) := if_pos h
  have hgives : ∀ v isNewDisk, ¬ c.Gives a v isNewDisk := fun v isNewDisk hv => by
    rw [Call.Gives, houtcome] at hv
    cases hv
  refine ⟨?_, ?_, fun _ v isNewDisk hv => absurd hv (hgives v isNewDisk), ?_,
    fun _ v isNewDisk hv => absurd hv (hgives v isNewDisk)⟩
  · rw [houtcome]
    exact fun _ => rfl
  · rw [h]
    exact fun _ hfree => Bool.noConfusion hfree
  · rw [h]
    exact fun _ hfree => Bool.noConfusion hfree

theorem restoresDisk_iff_of_pending (hskip : c.skipSnapshotRestore = false)
    (hfree : c.isRefused a = false) {message : String}
    (h : c.outcome a = fail (.snapshotPending message)) :
    c.RestoresDisk a caches ↔ IsPending a c.user c.disk := by
  have hraises : c.raisesPending a := ⟨message, by rw [h]; rfl⟩
  have hgives : ∀ v isNewDisk, ¬ c.Gives a v isNewDisk := fun v isNewDisk hv => by
    rw [Call.Gives, h] at hv
    cases hv
  constructor
  · intro hrestores
    exact (hrestores.pending hskip hfree).mp hraises
  · intro hpending
    refine ⟨?_, fun _ _ => iff_of_true hraises hpending,
      fun _ v isNewDisk hv => absurd hv (hgives v isNewDisk),
      fun _ _ hnot => absurd hpending hnot,
      fun _ v isNewDisk hv => absurd hv (hgives v isNewDisk)⟩
    rw [h]
    exact fun _ => rfl

theorem restoresDisk_iff_of_error (hskip : c.skipSnapshotRestore = false)
    (hfree : c.isRefused a = false) {message : String} (h : c.outcome a = fail (.error message)) :
    c.RestoresDisk a caches ↔
      ¬ IsPending a c.user c.disk ∧ ∀ source, ¬ RestoresFrom a c.user c.disk source := by
  have hraises : ¬ c.raisesPending a := by
    rintro ⟨m, hm⟩
    rw [h] at hm
    cases hm
  have hgives : ∀ v isNewDisk, ¬ c.Gives a v isNewDisk := fun v isNewDisk hv => by
    rw [Call.Gives, h] at hv
    cases hv
  constructor
  · intro hrestores
    have hpending : ¬ IsPending a c.user c.disk := fun hpending =>
      hraises ((hrestores.pending hskip hfree).mpr hpending)
    refine ⟨hpending, fun source hsource => ?_⟩
    obtain ⟨v, isNewDisk, hv⟩ := hrestores.gives hskip hfree hpending ⟨source, hsource⟩
    exact hgives v isNewDisk hv
  · rintro ⟨hpending, hsource⟩
    exact ⟨fun hr => absurd hr hraises, fun _ _ => iff_of_false hraises hpending,
      fun _ v isNewDisk hv => absurd hv (hgives v isNewDisk),
      fun _ _ _ ⟨source, hs⟩ => absurd hs (hsource source),
      fun _ v isNewDisk hv => absurd hv (hgives v isNewDisk)⟩

theorem restoresDisk_iff_of_create (hskip : c.skipSnapshotRestore = false)
    (hfree : c.isRefused a = false) {v : NewVolume} {isNewDisk : Bool}
    (h : c.outcome a = create v isNewDisk) (hnew : v.source = none → isNewDisk = true) :
    c.RestoresDisk a caches ↔
      ¬ IsPending a c.user c.disk ∧ RestoresFrom a c.user c.disk v.source := by
  have hraises : ¬ c.raisesPending a := by
    rintro ⟨m, hm⟩
    rw [h] at hm
    cases hm
  have hgives : c.Gives a v isNewDisk := by
    rw [Call.Gives, h]
    rfl
  constructor
  · intro hrestores
    refine ⟨fun hpending => hraises ((hrestores.pending hskip hfree).mpr hpending), ?_⟩
    exact (hrestores.restored hskip v isNewDisk hgives).2.1
  · rintro ⟨hpending, hsource⟩
    refine ⟨fun hr => absurd hr hraises, fun _ _ => iff_of_false hraises hpending, ?_,
      fun _ _ _ _ => ⟨v, isNewDisk, hgives⟩, ?_⟩
    · intro _ v' isNewDisk' hv'
      obtain ⟨rfl, rfl⟩ := Prod.mk.inj (Except.ok.inj (hgives.symm.trans hv'))
      exact ⟨by rw [h]; rfl, hsource, hnew⟩
    · intro hfast
      rw [hskip] at hfast
      cases hfast

/-- The look at the clone source ends as it is to end for the disk. -/
def IsRightEnd (a : Account) (user disk : String) : Except Failure (Option Snapshot) → Prop
  | .ok source => ¬ IsPending a user disk ∧ RestoresFrom a user disk source
  | .error (.snapshotPending _) => IsPending a user disk
  | .error (.error _) => ¬ IsPending a user disk ∧ ∀ source, ¬ RestoresFrom a user disk source

/-- What the slow path does, compared with what it is to do. -/
theorem restoresDisk_slow_iff (hskip : c.skipSnapshotRestore = false)
    (hfree : c.isRefused a = false) : c.RestoresDisk a caches ↔
      (pendingSnapshots a c.user c.diskName ≠ [] → IsPending a c.user c.disk) ∧
        (pendingSnapshots a c.user c.diskName = [] →
          match firstMax Snapshot.startTime (activeSnapshots a c.user c.diskName) with
          | some s => ¬ IsPending a c.user c.disk ∧ RestoresFrom a c.user c.disk (some s)
          | none => IsRightEnd a c.user c.disk (cloneSnapshot a c.user c.diskName)) := by
  have houtcome : c.outcome a = createDiskFromSnapshotOrEmpty a c.user c.availabilityZone c.diskName
      c.skipSnapshotRestore c.now := rfl
  have hunused : ¬ isStillInUse a c.user c.diskName = true := Bool.eq_false_iff.mp hfree
  unfold createDiskFromSnapshotOrEmpty at houtcome
  rw [if_neg hunused, if_neg (Bool.eq_false_iff.mp hskip)] at houtcome
  rcases hpending : firstMax Snapshot.startTime (pendingSnapshots a c.user c.diskName) with _ | s
  · have hnil := firstMax_eq_none_iff.mp hpending
    simp only [hpending] at houtcome
    simp only [hnil, ne_eq, not_true_eq_false, false_implies, true_and, true_implies]
    rcases hlatest : firstMax Snapshot.startTime (activeSnapshots a c.user c.diskName) with _ | s
    · simp only [hlatest] at houtcome
      rcases hclone : cloneSnapshot a c.user c.diskName with e | source
      · simp only [hclone] at houtcome
        cases e with
        | snapshotPending message => exact restoresDisk_iff_of_pending hskip hfree houtcome
        | error message => exact restoresDisk_iff_of_error hskip hfree houtcome
      · simp only [hclone] at houtcome
        cases source with
        | none => exact restoresDisk_iff_of_create hskip hfree houtcome fun _ => rfl
        | some s =>
          exact restoresDisk_iff_of_create hskip hfree houtcome fun h =>
            absurd h (Option.some_ne_none s)
    · simp only [hlatest] at houtcome
      exact restoresDisk_iff_of_create hskip hfree houtcome fun h =>
        absurd h (Option.some_ne_none s)
  · have hne : pendingSnapshots a c.user c.diskName ≠ [] :=
      List.ne_nil_of_mem (mem_of_firstMax hpending)
    simp only [hpending] at houtcome
    rw [restoresDisk_iff_of_pending hskip hfree houtcome]
    simp [hne]

end Slow

/-! ### The snapshots that are listed -/

section Listed

variable {a : Account} {user disk : String} {diskName : Option String} {s t : Snapshot}

theorem mem_pendingSnapshots : s ∈ pendingSnapshots a user diskName ↔
    s ∈ a.snapshots ∧ s.tag "gpu-dev-user" = some user ∧ s.state = .pending ∧
      ∀ disk, truthy diskName = some disk → s.tag "disk_name" = some disk := by
  simp [pendingSnapshots, isListed, List.mem_filter, Option.all_eq_true, and_assoc]

theorem mem_activeSnapshots : s ∈ activeSnapshots a user diskName ↔
    s ∈ a.snapshots ∧ s.tag "gpu-dev-user" = some user ∧ s.state = .completed ∧ s.isKept = true ∧
      ∀ disk, truthy diskName = some disk → s.tag "disk_name" = some disk := by
  simp only [activeSnapshots, isListed, List.mem_filter, Option.all_eq_true, Bool.and_eq_true,
    beq_iff_eq]
  tauto

theorem isActive_of_mem (h : s ∈ activeSnapshots a user diskName) (hb : Belongs user disk s) :
    IsActive a user disk s := by
  obtain ⟨hmem, -, hstate, hkept, -⟩ := mem_activeSnapshots.mp h
  exact ⟨hmem, hb, hstate, hkept⟩

theorem IsActive.mem_activeSnapshots (h : IsActive a user disk s)
    (htag : ∀ disk, truthy diskName = some disk → s.tag "disk_name" = some disk) :
    s ∈ activeSnapshots a user diskName :=
  DiskRestores.mem_activeSnapshots.mpr ⟨h.mem, h.belongs.1, h.completed, h.kept, htag⟩

/-- Without a name all snapshots of the user are listed. -/
theorem mem_pendingSnapshots_none : s ∈ pendingSnapshots a user none ↔
    s ∈ a.snapshots ∧ s.tag "gpu-dev-user" = some user ∧ s.state = .pending := by
  rw [mem_pendingSnapshots]
  simp [SnapshotBookkeeping.truthy]

theorem IsActive.mem_activeSnapshots_none (h : IsActive a user disk s) :
    s ∈ activeSnapshots a user none :=
  h.mem_activeSnapshots fun disk hdisk => absurd hdisk (Option.not_mem_none disk)

/-- A disk with an active snapshot has a latest one. -/
theorem exists_isLatest (h : IsActive a user disk s) : ∃ t, IsLatest a user disk t := by
  classical
  let active := a.snapshots.filter fun t => decide (IsActive a user disk t)
  have hactive : ∀ t, t ∈ active ↔ IsActive a user disk t := fun t => by
    simp only [active, List.mem_filter, decide_eq_true_eq, and_iff_right_iff_imp]
    exact IsActive.mem
  rcases hmax : firstMax Snapshot.startTime active with _ | t
  · rw [firstMax_eq_none_iff.mp hmax] at hactive
    exact absurd ((hactive s).mpr h) List.not_mem_nil
  · exact ⟨t, (hactive t).mp (mem_of_firstMax hmax), fun u hu =>
      le_of_firstMax hmax u ((hactive u).mpr hu)⟩

theorem IsCloneSource.unique (hs : IsCloneSource a user disk s) (ht : IsCloneSource a user disk t) :
    s = t :=
  List.inj_on_of_nodup_map a.ids hs.1 ht.1 (Option.some.inj (hs.2.symm.trans ht.2))

/-- How the look at the clone source of a named disk ends. -/
theorem cloneSnapshot_cases (a : Account) (user : String) (hname : truthy diskName = some disk) :
    truthy (a.cloneSource (user, disk)) = none ∧ cloneSnapshot a user diskName = .ok none ∨
      (∃ s, IsCloneSource a user disk s ∧
        (s.state = .pending ∧
            (∃ m, cloneSnapshot a user diskName = .error (.snapshotPending m)) ∨
          s.state = .completed ∧ cloneSnapshot a user diskName = .ok (some s) ∨
          s.state ≠ .pending ∧ s.state ≠ .completed ∧
            ∃ m, cloneSnapshot a user diskName = .error (.error m))) ∨
      truthy (a.cloneSource (user, disk)) ≠ none ∧ (∀ s, ¬ IsCloneSource a user disk s) ∧
        ∃ m, cloneSnapshot a user diskName = .error (.error m) := by
  unfold cloneSnapshot
  rw [hname, Option.bind_some]
  rcases hsource : truthy (a.cloneSource (user, disk)) with _ | source
  · exact Or.inl ⟨rfl, rfl⟩
  · right
    rcases hfound : a.snapshots.filter (·.id = source) with _ | ⟨s, rest⟩
    · right
      refine ⟨nofun, ?_, _, by simp only [describeSnapshot, hfound]; rfl⟩
      rintro s ⟨hmem, hid⟩
      have hs : s ∈ a.snapshots.filter (·.id = source) := by
        simpa [hmem] using (Option.some.inj (hid.symm.trans hsource))
      rw [hfound] at hs
      exact List.not_mem_nil hs
    · left
      have hs : s ∈ a.snapshots ∧ s.id = source := by
        have hmem : s ∈ a.snapshots.filter (·.id = source) := hfound ▸ List.mem_cons_self
        simpa using hmem
      refine ⟨s, ⟨hs.1, by rw [hsource, hs.2]⟩, ?_⟩
      have hdescribe : describeSnapshot a source = .ok (s :: rest) := by
        simp only [describeSnapshot, hfound]
      simp only [hdescribe, bind, Except.bind]
      rcases hstate : s.state
      · exact Or.inl ⟨rfl, _, rfl⟩
      · exact Or.inr (Or.inl ⟨rfl, rfl⟩)
      all_goals exact Or.inr (Or.inr ⟨nofun, nofun, _, rfl⟩)

/-- No snapshot of the disk itself is pending. -/
def NonePending (a : Account) (user disk : String) : Prop :=
  ∀ s ∈ a.snapshots, Belongs user disk s → s.state ≠ .pending

/-- A disk without active snapshots is restored as it is to be, once the clone source is looked
at. -/
theorem isRightEnd_of_hasNone (hname : truthy diskName = some disk) (hnone : HasNone a user disk)
    (hpending : NonePending a user disk) :
    IsRightEnd a user disk (cloneSnapshot a user diskName) := by
  have hpending_iff : IsPending a user disk ↔
      ∃ s, IsCloneSource a user disk s ∧ s.state = .pending := by
    constructor
    · rintro (⟨s, hs, hb, hstate⟩ | ⟨-, h⟩)
      · exact absurd hstate (hpending s hs hb)
      · exact h
    · exact fun h => Or.inr ⟨hnone, h⟩
  rcases cloneSnapshot_cases a user hname with
    ⟨hsource, hend⟩ | ⟨s, hs, ⟨hstate, m, hend⟩ | ⟨hstate, hend⟩ | ⟨hp, hc, m, hend⟩⟩ |
      ⟨hsource, hmissing, m, hend⟩
  · rw [hend]
    refine ⟨?_, .nothing hnone hsource⟩
    rw [hpending_iff]
    rintro ⟨s, hs, -⟩
    rw [hs.2] at hsource
    cases hsource
  · rw [hend]
    exact hpending_iff.mpr ⟨s, hs, hstate⟩
  · rw [hend]
    refine ⟨?_, .clone hnone hs hstate⟩
    rw [hpending_iff]
    rintro ⟨t, ht, htstate⟩
    rw [ht.unique hs, hstate] at htstate
    cases htstate
  · rw [hend]
    refine ⟨?_, ?_⟩
    · rw [hpending_iff]
      rintro ⟨t, ht, htstate⟩
      exact hp (hs.unique ht ▸ htstate)
    · rintro source (hlatest | ⟨-, ht, htstate⟩ | ⟨-, hsource⟩)
      · exact hnone _ hlatest.1
      · exact hc (hs.unique ht ▸ htstate)
      · rw [hs.2] at hsource
        cases hsource
  · rw [hend]
    refine ⟨?_, ?_⟩
    · rw [hpending_iff]
      rintro ⟨t, ht, -⟩
      exact hmissing t ht
    · rintro source (hlatest | ⟨-, ht, -⟩ | ⟨-, hnothing⟩)
      · exact hnone _ hlatest.1
      · exact hmissing _ ht
      · exact hsource hnothing

theorem not_isPending (hactive : IsActive a user disk s) (hpending : NonePending a user disk) :
    ¬ IsPending a user disk := by
  rintro (⟨t, ht, hb, hstate⟩ | ⟨hnone, -⟩)
  · exact hpending t ht hb hstate
  · exact hnone s hactive

theorem restoresFrom_iff (hactive : IsActive a user disk s) {source : Option Snapshot} :
    RestoresFrom a user disk source ↔ ∃ t, source = some t ∧ IsLatest a user disk t := by
  constructor
  · rintro (hlatest | ⟨hnone, -⟩ | ⟨hnone, -⟩)
    · exact ⟨_, rfl, hlatest⟩
    · exact absurd hactive (hnone s)
    · exact absurd hactive (hnone s)
  · rintro ⟨t, rfl, hlatest⟩
    exact .own hlatest

/-- A disk with active snapshots is not restored as it is to be from a clone source, unless that is
the latest of them. -/
theorem isRightEnd_iff (hactive : IsActive a user disk s) (hpending : NonePending a user disk)
    {result : Except Failure (Option Snapshot)} :
    IsRightEnd a user disk result ↔ ∃ t, result = .ok (some t) ∧ IsLatest a user disk t := by
  have hnot := not_isPending hactive hpending
  rcases result with (m | m) | source
  · simp [IsRightEnd, hnot]
  · obtain ⟨t, ht⟩ := exists_isLatest hactive
    simp only [IsRightEnd, reduceCtorEq, false_and, exists_false, iff_false, not_and, not_forall,
      not_not]
    exact fun _ => ⟨some t, .own ht⟩
  · simp only [IsRightEnd, hnot, not_false_eq_true, true_and, restoresFrom_iff hactive,
      Except.ok.injEq]

end Listed

/-! ### Named disks -/

section Named

variable {c : Call} {a : Account} {caches : Caches} {disk : String}

/-- The slow path for a name whose snapshots are all listed. -/
theorem restoresDisk_of_listed (hskip : c.skipSnapshotRestore = false)
    (hfree : c.isRefused a = false) (hname : truthy c.diskName = some disk)
    (hlisted : ∀ s, Belongs c.user disk s → s.tag "disk_name" = some disk) :
    c.RestoresDisk a caches := by
  have hdisk : c.disk = disk := by simp [Call.disk, diskOf, hname]
  have htag : ∀ s, Belongs c.user disk s →
      ∀ d, truthy c.diskName = some d → s.tag "disk_name" = some d := by
    intro s hb d hd
    rw [hname] at hd
    exact Option.some.inj hd ▸ hlisted s hb
  rw [restoresDisk_slow_iff hskip hfree, hdisk]
  constructor
  · intro hne
    obtain ⟨s, hs⟩ := List.exists_mem_of_ne_nil _ hne
    obtain ⟨hmem, huser, hstate, hs⟩ := mem_pendingSnapshots.mp hs
    exact Or.inl ⟨s, hmem, ⟨huser, Or.inl (hs disk hname)⟩, hstate⟩
  · intro hnil
    have hpending : NonePending a c.user disk := by
      intro s hs hb hstate
      have hmem : s ∈ pendingSnapshots a c.user c.diskName :=
        mem_pendingSnapshots.mpr ⟨hs, hb.1, hstate, htag s hb⟩
      rw [hnil] at hmem
      exact List.not_mem_nil hmem
    rcases hlatest : firstMax Snapshot.startTime (activeSnapshots a c.user c.diskName) with _ | s
    · have hempty := firstMax_eq_none_iff.mp hlatest
      refine isRightEnd_of_hasNone hname (fun s hs => ?_) hpending
      have hmem := hs.mem_activeSnapshots (htag s hs.belongs)
      rw [hempty] at hmem
      exact List.not_mem_nil hmem
    · have hs := mem_of_firstMax hlatest
      obtain ⟨-, huser, -, -, hdisk⟩ := mem_activeSnapshots.mp hs
      have hactive : IsActive a c.user disk s :=
        isActive_of_mem hs ⟨huser, Or.inl (hdisk disk hname)⟩
      refine ⟨not_isPending hactive hpending, .own ⟨hactive, fun t ht => ?_⟩⟩
      exact le_of_firstMax hlatest t (ht.mem_activeSnapshots (htag t ht.belongs))

end Named

end CiInfra.GpuDev.DiskRestores

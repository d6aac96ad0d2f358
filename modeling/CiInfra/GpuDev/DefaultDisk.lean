import CiInfra.GpuDev.RestoredDisks

/-!
# The default disk and the cache

The default disk is restored as it is to be only if the snapshots that are looked at in place of its
own make no difference, and any disk is on the fast path only if the node happens to have cached the
files that the slow path would restore.
-/

namespace CiInfra.GpuDev.DiskRestores

open SnapshotBookkeeping (firstMax truthy)

/-! ### The default disk -/

section Default

variable {c : Call} {a : Account} {caches : Caches} {user : String} {diskName : Option String}
  {s : Snapshot}

/-- The untagged snapshots of a user make no difference to a call that names the default disk: a
pending one is not the only reason to wait, and a completed one is not later than those that are
tagged, or than the clone source, if there are none of these. -/
structure UntaggedAgree (a : Account) (user : String) : Prop where
  pending : (∃ s ∈ pendingSnapshots a user none, s.tag "disk_name" = none) →
    pendingSnapshots a user (some "default") ≠ [] ∨
      activeSnapshots a user (some "default") = [] ∧
        ∃ s, IsCloneSource a user "default" s ∧ s.state = .pending
  latest : NonePending a user "default" →
    ∀ s ∈ activeSnapshots a user none, s.tag "disk_name" = none →
      (∃ t ∈ activeSnapshots a user (some "default"), s.startTime ≤ t.startTime) ∨
        activeSnapshots a user (some "default") = [] ∧
          ∃ t ∈ activeSnapshots a user none, t.tag "disk_name" = none ∧
            IsCloneSource a user "default" t ∧ s.startTime ≤ t.startTime

/-- The snapshots of the other disks of a user, and the clone source, make no difference to a call
without a name: nothing is pending but what is waited for rightly, and the first of the latest
active snapshots is one of the default disk, or the clone source of a default disk without any. -/
structure OthersAgree (a : Account) (user : String) : Prop where
  pending : pendingSnapshots a user none ≠ [] → IsPending a user "default"
  latest : pendingSnapshots a user none = [] →
    match firstMax Snapshot.startTime (activeSnapshots a user none) with
    | some s => Belongs user "default" s ∨
        HasNone a user "default" ∧ IsCloneSource a user "default" s
    | none => truthy (a.cloneSource (user, "default")) = none

theorem isListed_congr {d d' : Option String} (h : truthy d = truthy d') :
    isListed user d = isListed user d' := by
  funext state s
  rw [isListed, isListed, h]

theorem pendingSnapshots_congr {d d' : Option String} (h : truthy d = truthy d') :
    pendingSnapshots a user d = pendingSnapshots a user d' := by
  rw [pendingSnapshots, pendingSnapshots, isListed_congr h]

theorem activeSnapshots_congr {d d' : Option String} (h : truthy d = truthy d') :
    activeSnapshots a user d = activeSnapshots a user d' := by
  rw [activeSnapshots, activeSnapshots, isListed_congr h]

/-- A snapshot of the default disk is listed under the name or without a tag. -/
theorem mem_tagged_or (hs : IsActive a user "default" s) :
    s ∈ activeSnapshots a user (some "default") ∨
      s ∈ activeSnapshots a user none ∧ s.tag "disk_name" = none := by
  rcases hs.belongs.2 with htag | ⟨-, htag⟩
  · exact Or.inl (hs.mem_activeSnapshots fun d hd => htag.trans hd)
  · exact Or.inr ⟨hs.mem_activeSnapshots_none, htag⟩

theorem isActive_of_mem_tagged (hs : s ∈ activeSnapshots a user (some "default")) :
    IsActive a user "default" s := by
  obtain ⟨-, huser, -, -, htag⟩ := mem_activeSnapshots.mp hs
  exact isActive_of_mem hs ⟨huser, Or.inl (htag "default" rfl)⟩

theorem isActive_of_mem_untagged (hs : s ∈ activeSnapshots a user none)
    (htag : s.tag "disk_name" = none) : IsActive a user "default" s := by
  obtain ⟨-, huser, -⟩ := mem_activeSnapshots.mp hs
  exact isActive_of_mem hs ⟨huser, Or.inr ⟨rfl, htag⟩⟩

/-- Where the look at the clone source finds a snapshot, or waits for one. -/
theorem isCloneSource_of_ok (hname : truthy diskName = some "default")
    (h : cloneSnapshot a user diskName = .ok (some s)) : IsCloneSource a user "default" s := by
  rcases cloneSnapshot_cases a user hname with
    ⟨-, hend⟩ | ⟨t, ht, ⟨-, m, hend⟩ | ⟨-, hend⟩ | ⟨-, -, m, hend⟩⟩ | ⟨-, -, m, hend⟩
  · rw [hend] at h
    cases h
  · rw [hend] at h
    cases h
  · rw [hend] at h
    exact Option.some.inj (Except.ok.inj h) ▸ ht
  · rw [hend] at h
    cases h
  · rw [hend] at h
    cases h

theorem exists_isCloneSource_of_pending (hname : truthy diskName = some "default") {m : String}
    (h : cloneSnapshot a user diskName = .error (.snapshotPending m)) :
    ∃ s, IsCloneSource a user "default" s ∧ s.state = .pending := by
  rcases cloneSnapshot_cases a user hname with
    ⟨-, hend⟩ | ⟨t, ht, ⟨hstate, m, hend⟩ | ⟨-, hend⟩ | ⟨-, -, m, hend⟩⟩ | ⟨-, -, m, hend⟩
  · rw [hend] at h
    cases h
  · exact ⟨t, ht, hstate⟩
  · rw [hend] at h
    cases h
  · rw [hend] at h
    cases h
  · rw [hend] at h
    cases h

/-- How the look ends for a clone source that is complete, or pending. -/
theorem cloneSnapshot_of_isCloneSource (hname : truthy diskName = some "default")
    (hs : IsCloneSource a user "default" s) :
    (s.state = .completed → cloneSnapshot a user diskName = .ok (some s)) ∧
      (s.state = .pending → ∃ m, cloneSnapshot a user diskName = .error (.snapshotPending m)) := by
  rcases cloneSnapshot_cases a user hname with
    ⟨hsource, -⟩ | ⟨t, ht, h⟩ | ⟨-, hmissing, -⟩
  · rw [hs.2] at hsource
    cases hsource
  · obtain rfl := ht.unique hs
    rcases h with ⟨hstate, hend⟩ | ⟨hstate, hend⟩ | ⟨hp, hc, -⟩
    · rw [hstate]
      exact ⟨nofun, fun _ => hend⟩
    · rw [hstate]
      exact ⟨fun _ => hend, nofun⟩
    · exact ⟨fun h => absurd h hc, fun h => absurd h hp⟩
  · exact absurd hs (hmissing s)

theorem UntaggedAgree.of_restoresDisk (hskip : c.skipSnapshotRestore = false)
    (hfree : c.isRefused a = false) (hname : truthy c.diskName = some "default")
    (h : c.RestoresDisk a caches) : UntaggedAgree a c.user := by
  have hdisk : c.disk = "default" := by simp [Call.disk, diskOf, hname]
  have hdefault : truthy c.diskName = truthy (some "default") := hname
  rw [restoresDisk_slow_iff hskip hfree, hdisk, pendingSnapshots_congr hdefault,
    activeSnapshots_congr hdefault] at h
  obtain ⟨-, h⟩ := h
  refine ⟨?_, ?_⟩
  · rintro ⟨u, hu, hutag⟩
    obtain ⟨hmem, huser, hstate, -⟩ := mem_pendingSnapshots.mp hu
    have hpending : IsPending a c.user "default" :=
      Or.inl ⟨u, hmem, ⟨huser, Or.inr ⟨rfl, hutag⟩⟩, hstate⟩
    by_cases hnil : pendingSnapshots a c.user (some "default") = []
    · right
      have h := h hnil
      split at h
      case h_1 => exact absurd hpending h.1
      case h_2 hlatest =>
        refine ⟨firstMax_eq_none_iff.mp hlatest, ?_⟩
        rcases hend : cloneSnapshot a c.user c.diskName with (m | m) | source
        · exact exists_isCloneSource_of_pending hname hend
        · rw [hend] at h
          exact absurd hpending h.1
        · rw [hend] at h
          exact absurd hpending h.1
    · exact Or.inl hnil
  · intro hnone u hu hutag
    have hactive := isActive_of_mem_untagged hu hutag
    have hnil : pendingSnapshots a c.user (some "default") = [] := by
      refine List.eq_nil_iff_forall_not_mem.mpr fun s hs => ?_
      obtain ⟨hmem, huser, hstate, htag⟩ := mem_pendingSnapshots.mp hs
      exact hnone s hmem ⟨huser, Or.inl (htag "default" rfl)⟩ hstate
    have h := h hnil
    split at h
    case h_1 s hlatest =>
      obtain ⟨t, ht, hlate⟩ := (restoresFrom_iff hactive).mp h.2
      obtain rfl := Option.some.inj ht
      exact Or.inl ⟨s, mem_of_firstMax hlatest, hlate.2 u hactive⟩
    case h_2 hlatest =>
      have hempty := firstMax_eq_none_iff.mp hlatest
      obtain ⟨t, hend, hlate⟩ := (isRightEnd_iff hactive hnone).mp h
      have hmem := mem_tagged_or hlate.1
      rw [hempty] at hmem
      obtain ⟨ht, httag⟩ := hmem.resolve_left List.not_mem_nil
      exact Or.inr ⟨hempty, t, ht, httag, isCloneSource_of_ok hname hend, hlate.2 u hactive⟩

theorem UntaggedAgree.restoresDisk (hskip : c.skipSnapshotRestore = false)
    (hfree : c.isRefused a = false) (hname : truthy c.diskName = some "default")
    (h : UntaggedAgree a c.user) : c.RestoresDisk a caches := by
  have hdisk : c.disk = "default" := by simp [Call.disk, diskOf, hname]
  have hdefault : truthy c.diskName = truthy (some "default") := hname
  rw [restoresDisk_slow_iff hskip hfree, hdisk, pendingSnapshots_congr hdefault,
    activeSnapshots_congr hdefault]
  constructor
  · intro hne
    obtain ⟨s, hs⟩ := List.exists_mem_of_ne_nil _ hne
    obtain ⟨hmem, huser, hstate, htag⟩ := mem_pendingSnapshots.mp hs
    exact Or.inl ⟨s, hmem, ⟨huser, Or.inl (htag "default" rfl)⟩, hstate⟩
  · intro hnil
    by_cases hnone : NonePending a c.user "default"
    · split
      case h_1 s hlatest =>
        have hs := mem_of_firstMax hlatest
        have hactive := isActive_of_mem_tagged hs
        refine ⟨not_isPending hactive hnone, .own ⟨hactive, fun t ht => ?_⟩⟩
        rcases mem_tagged_or ht with ht | ⟨ht, httag⟩
        · exact le_of_firstMax hlatest t ht
        · rcases h.latest hnone t ht httag with ⟨t', ht', hle⟩ | ⟨hempty, -⟩
          · exact hle.trans (le_of_firstMax hlatest t' ht')
          · rw [hempty] at hs
            exact absurd hs List.not_mem_nil
      case h_2 hlatest =>
        have hempty := firstMax_eq_none_iff.mp hlatest
        by_cases hall : HasNone a c.user "default"
        · exact isRightEnd_of_hasNone hname hall hnone
        · obtain ⟨u, hactive⟩ := not_forall_not.mp hall
          -- Every active snapshot is untagged, so that the clone source is not earlier.
          have hlate : ∀ t, IsActive a c.user "default" t →
              ∃ s ∈ activeSnapshots a c.user none, s.tag "disk_name" = none ∧
                IsCloneSource a c.user "default" s ∧ t.startTime ≤ s.startTime := by
            intro t ht
            have hmem := mem_tagged_or ht
            rw [hempty] at hmem
            obtain ⟨hmem, htag⟩ := hmem.resolve_left List.not_mem_nil
            rcases h.latest hnone t hmem htag with ⟨t', ht', -⟩ | ⟨-, h⟩
            · rw [hempty] at ht'
              exact absurd ht' List.not_mem_nil
            · exact h
          obtain ⟨s, hs, htag, hclone, -⟩ := hlate u hactive
          have hlatest : IsLatest a c.user "default" s := by
            refine ⟨isActive_of_mem_untagged hs htag, fun t ht => ?_⟩
            obtain ⟨s', -, -, hclone', hle⟩ := hlate t ht
            exact hclone.unique hclone' ▸ hle
          have hend := (cloneSnapshot_of_isCloneSource hname hclone).1 hlatest.1.completed
          exact (isRightEnd_iff hactive hnone).mpr ⟨s, hend, hlatest⟩
    · have hpending : ∃ u ∈ a.snapshots, Belongs c.user "default" u ∧ u.state = .pending := by
        simpa [NonePending] using hnone
      obtain ⟨u, hu, hb, hstate⟩ := hpending
      have huntagged : u.tag "disk_name" = none := by
        rcases hb.2 with htag | ⟨-, htag⟩
        · have hmem : u ∈ pendingSnapshots a c.user (some "default") :=
            mem_pendingSnapshots.mpr ⟨hu, hb.1, hstate, fun d hd => htag.trans hd⟩
          rw [hnil] at hmem
          exact absurd hmem List.not_mem_nil
        · exact htag
      have hu' : u ∈ pendingSnapshots a c.user none :=
        mem_pendingSnapshots_none.mpr ⟨hu, hb.1, hstate⟩
      rcases h.pending ⟨u, hu', huntagged⟩ with hne | ⟨hempty, s, hclone, hs⟩
      · exact absurd hnil hne
      · rw [firstMax_eq_none_iff.mpr hempty]
        obtain ⟨m, hend⟩ := (cloneSnapshot_of_isCloneSource hname hclone).2 hs
        rw [hend]
        exact Or.inl ⟨u, hu, hb, hstate⟩

theorem restoresDisk_unnamed_iff (hskip : c.skipSnapshotRestore = false)
    (hfree : c.isRefused a = false) (hname : truthy c.diskName = none) :
    c.RestoresDisk a caches ↔ OthersAgree a c.user := by
  have hdisk : c.disk = "default" := by simp [Call.disk, diskOf, hname]
  have hunnamed : truthy c.diskName = truthy none := hname
  have hclone : cloneSnapshot a c.user c.diskName = .ok none := by
    simp only [cloneSnapshot, hname, Option.bind_none]
  have hlisted : ∀ s, IsActive a c.user "default" s → s ∈ activeSnapshots a c.user none :=
    fun s hs => hs.mem_activeSnapshots_none
  have hnone : pendingSnapshots a c.user none = [] → NonePending a c.user "default" := by
    intro hnil s hs hb hstate
    have hmem : s ∈ pendingSnapshots a c.user none :=
      mem_pendingSnapshots_none.mpr ⟨hs, hb.1, hstate⟩
    rw [hnil] at hmem
    exact List.not_mem_nil hmem
  rw [restoresDisk_slow_iff hskip hfree, hdisk, pendingSnapshots_congr hunnamed,
    activeSnapshots_congr hunnamed, hclone]
  constructor
  · rintro ⟨hpending, h⟩
    refine ⟨hpending, fun hnil => ?_⟩
    have h := h hnil
    rcases hlatest : firstMax Snapshot.startTime (activeSnapshots a c.user none) with _ | s
    · rw [hlatest] at h
      rcases h.2 with _ | _ | ⟨-, hsource⟩
      exact hsource
    · rw [hlatest] at h
      rcases h.2 with hlate | ⟨hall, hsource, -⟩
      · exact Or.inl hlate.1.belongs
      · exact Or.inr ⟨hall, hsource⟩
  · intro h
    refine ⟨h.pending, fun hnil => ?_⟩
    have hpending := hnone hnil
    have h := h.latest hnil
    rcases hlatest : firstMax Snapshot.startTime (activeSnapshots a c.user none) with _ | s
    · rw [hlatest] at h
      have hall : HasNone a c.user "default" := by
        intro s hs
        have hmem := hlisted s hs
        rw [firstMax_eq_none_iff.mp hlatest] at hmem
        exact List.not_mem_nil hmem
      refine ⟨?_, .nothing hall h⟩
      rintro (⟨s, hs, hb, hstate⟩ | ⟨-, s, hs, -⟩)
      · exact hpending s hs hb hstate
      · rw [hs.2] at h
        cases h
    · rw [hlatest] at h
      have hs := mem_of_firstMax hlatest
      rcases h with hb | ⟨hall, hsource⟩
      · have hactive := isActive_of_mem hs hb
        exact ⟨not_isPending hactive hpending, .own ⟨hactive, fun t ht =>
          le_of_firstMax hlatest t (hlisted t ht)⟩⟩
      · have hcompleted : s.state = .completed := (mem_activeSnapshots.mp hs).2.2.1
        refine ⟨?_, .clone hall hsource hcompleted⟩
        rintro (⟨t, ht, hb, hstate⟩ | ⟨-, t, ht, hstate⟩)
        · exact hpending t ht hb hstate
        · rw [ht.unique hsource, hcompleted] at hstate
          cases hstate

end Default

/-! ### The fast path -/

section Fast

variable {c : Call} {a : Account} {caches : Caches}

/-- The files that the node has cached for the user, under a name that other users and all disks of
the user share. -/
def Call.cached (c : Call) (caches : Caches) : Files :=
  caches c.node (nvmeCacheUserDir (if c.user = "" then "dev" else c.user))

theorem rsync_empty (src : Files) : rsync src ∅ = src := by
  simp [rsync]

/-- On a hit, the home directory on an empty volume is what is cached. -/
theorem startHome_hit : startHome caches c.node c.user true ∅ = c.cached caches := by
  unfold startHome
  change (if (true && decide (c.cached caches ≠ ∅)) = true then rsync (c.cached caches) ∅ else ∅) =
    c.cached caches
  by_cases hempty : c.cached caches = ∅
  · simp [hempty]
  · simp [hempty, rsync_empty]

theorem restoresDisk_fast_iff (hskip : c.skipSnapshotRestore = true)
    (hfree : c.isRefused a = false) : c.RestoresDisk a caches ↔
      ¬ IsPending a c.user c.disk ∧ ∃ source, RestoresFrom a c.user c.disk source ∧
        c.cached caches = volumeFiles a source := by
  have houtcome : c.outcome a =
      create ⟨c.availabilityZone, none, cacheTags c.user c.diskName⟩ true := by
    have hunused : ¬ isStillInUse a c.user c.diskName = true := Bool.eq_false_iff.mp hfree
    exact (if_neg hunused).trans (if_pos hskip)
  have hraises : ¬ c.raisesPending a := by
    rintro ⟨m, hm⟩
    rw [houtcome] at hm
    cases hm
  have hgives : c.Gives a ⟨c.availabilityZone, none, cacheTags c.user c.diskName⟩ true := by
    rw [Call.Gives, houtcome]
    rfl
  have hhome : ∀ v isNewDisk, c.Gives a v isNewDisk →
      startHome caches c.node c.user c.skipSnapshotRestore (volumeFiles a v.source) =
        c.cached caches := by
    intro v isNewDisk hv
    obtain ⟨rfl, -⟩ := Prod.mk.inj (Except.ok.inj (hgives.symm.trans hv))
    rw [hskip]
    exact startHome_hit
  have hslow : ¬ c.skipSnapshotRestore = false := by
    rw [hskip]
    exact Bool.noConfusion
  constructor
  · intro h
    obtain ⟨hpending, source, hsource, heq⟩ := h.home hskip _ _ hgives
    exact ⟨hpending, source, hsource, (hhome _ _ hgives).symm.trans heq⟩
  · rintro ⟨hpending, source, hsource, heq⟩
    exact ⟨fun hr => absurd hr hraises, fun hs => absurd hs hslow, fun hs => absurd hs hslow,
      fun hs => absurd hs hslow,
      fun _ v isNewDisk hv => ⟨hpending, source, hsource, (hhome v isNewDisk hv).trans heq⟩⟩

end Fast

/-! ### When a disk is restored -/

/-- What a call needs to restore its disk: nothing if the disk is refused or has a name of its own.
On the fast path, the node has cached the files that the slow path would restore. -/
def Call.Fits (c : Call) (a : Account) (caches : Caches) : Prop :=
  c.isRefused a = true ∨
    if c.skipSnapshotRestore then
      ¬ IsPending a c.user c.disk ∧ ∃ source, RestoresFrom a c.user c.disk source ∧
        c.cached caches = volumeFiles a source
    else
      match truthy c.diskName with
      | some disk => disk = "default" → UntaggedAgree a c.user
      | none => OthersAgree a c.user

/-- A call restores its disk exactly if it fits. -/
theorem restoresDisk_iff (c : Call) (a : Account) (caches : Caches) :
    c.RestoresDisk a caches ↔ c.Fits a caches := by
  unfold Call.Fits
  cases hfree : c.isRefused a with
  | true => exact iff_of_true (restoresDisk_of_refused hfree) (Or.inl rfl)
  | false =>
    simp only [Bool.false_eq_true, false_or]
    cases hskip : c.skipSnapshotRestore with
    | true => exact restoresDisk_fast_iff hskip hfree
    | false =>
      simp only [Bool.false_eq_true, if_false]
      rcases hname : truthy c.diskName with _ | disk
      · exact restoresDisk_unnamed_iff hskip hfree hname
      · by_cases hdefault : disk = "default"
        · subst hdefault
          simp only [true_implies]
          exact ⟨.of_restoresDisk hskip hfree hname, fun h => h.restoresDisk hskip hfree hname⟩
        · refine iff_of_true (restoresDisk_of_listed hskip hfree hname fun s hb => ?_)
            fun h => absurd h hdefault
          exact hb.2.resolve_right fun h => hdefault h.1

/-- One cache is not right for two disks, be they of one user or of two whose directories have the
same name. -/
theorem not_restoresDisk_of_shared {c c' : Call} {a : Account} {caches : Caches}
    (hskip : c.skipSnapshotRestore = true) (hskip' : c'.skipSnapshotRestore = true)
    (hfree : c.isRefused a = false) (hfree' : c'.isRefused a = false)
    (hcached : c.cached caches = c'.cached caches)
    (hfiles : ∀ source source', RestoresFrom a c.user c.disk source →
      RestoresFrom a c'.user c'.disk source' → volumeFiles a source ≠ volumeFiles a source') :
    ¬ (c.RestoresDisk a caches ∧ c'.RestoresDisk a caches) := by
  rintro ⟨h, h'⟩
  obtain ⟨-, source, hsource, heq⟩ := (restoresDisk_fast_iff hskip hfree).mp h
  obtain ⟨-, source', hsource', heq'⟩ := (restoresDisk_fast_iff hskip' hfree').mp h'
  exact hfiles source source' hsource hsource' (heq.symm.trans (hcached.trans heq'))

/-- A user has a snapshot of a disk named data, and none of the default disk. -/
def dataOnly : Account where
  volumes _ := []
  snapshots := [{
    id := "snap-data"
    state := .completed
    startTime := 0
    tags := [("gpu-dev-user", "user@example.com"), ("disk_name", "data")] }]
  ids := by decide
  files _ := ∅
  cloneSource _ := none

/-- A call without a name. -/
def unnamedCall : Call where
  user := "user@example.com"
  availabilityZone := "us-east-2a"
  diskName := none
  skipSnapshotRestore := false
  now := 0
  node := "node"

theorem not_restoresDisk : ¬ ∀ (c : Call) (a : Account) (caches : Caches),
    c.RestoresDisk a caches := by
  intro hall
  have hgives : ∃ v s, unnamedCall.Gives dataOnly v false ∧ v.source = some s ∧
      s.tag "disk_name" = some "data" := ⟨_, _, rfl, rfl, by decide +kernel⟩
  obtain ⟨v, s, hv, hs, htag⟩ := hgives
  obtain ⟨-, hsource, -⟩ := (hall unnamedCall dataOnly fun _ _ => ∅).restored rfl v false hv
  rw [hs] at hsource
  rcases hsource with hlatest | ⟨-, hclone, -⟩
  · rcases hlatest.1.belongs.2 with h | ⟨-, h⟩
    · exact absurd (htag.symm.trans h) (by decide)
    · exact absurd (htag.symm.trans h) nofun
  · exact absurd hclone.2 nofun

end CiInfra.GpuDev.DiskRestores

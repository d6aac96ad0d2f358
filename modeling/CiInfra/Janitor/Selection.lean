import CiInfra.Janitor.ImageCache

/-!
# Which images are selected

The largest images go first, so that no other choice of images takes fewer of them to the target.
-/

namespace ImageCache

/-- The images that may be removed, in the order in which they are listed. -/
def unpinned (images : List ImageInfo) : List ImageInfo := images.filter fun img => !img.pinned

theorem removable_perm (images : List ImageInfo) : (removable images).Perm (unpinned images) :=
  List.perm_insertionSort _ _

theorem removable_sorted (images : List ImageInfo) :
    (removable images).Pairwise fun img img' => img'.size ≤ img.size := by
  have total : Std.Total fun img img' : ImageInfo => img'.size ≤ img.size :=
    ⟨fun img img' => Nat.le_total img'.size img.size⟩
  have trans : IsTrans ImageInfo fun img img' => img'.size ≤ img.size :=
    ⟨fun _ _ _ h h' => h'.trans h⟩
  exact List.pairwise_insertionSort _ _

theorem calculateTotalCacheSize_perm {images images' : List ImageInfo} (h : images.Perm images') :
    calculateTotalCacheSize images = calculateTotalCacheSize images' :=
  (h.map ImageInfo.size).sum_eq

theorem calculateTotalCacheSize_cons (img : ImageInfo) (images : List ImageInfo) :
    calculateTotalCacheSize (img :: images) = img.size + calculateTotalCacheSize images :=
  List.sum_cons

/-- Of images that get smaller, as many others are no larger than the first. -/
theorem calculateTotalCacheSize_le_take {images others : List ImageInfo}
    (hsorted : images.Pairwise fun img img' => img'.size ≤ img.size)
    (hsub : others.Sublist images) :
    calculateTotalCacheSize others ≤ calculateTotalCacheSize (images.take others.length) := by
  induction images generalizing others with
  | nil =>
    obtain rfl := List.sublist_nil.mp hsub
    exact le_rfl
  | cons img images ih =>
    obtain ⟨hlargest, hsorted⟩ := List.pairwise_cons.mp hsorted
    cases others with
    | nil => exact Nat.zero_le _
    | cons other others =>
      have hle : other.size ≤ img.size ∧ others.Sublist images := by
        rcases List.sublist_cons_iff.mp hsub with hsub | ⟨rest, hrest, hsub⟩
        · exact ⟨hlargest other (hsub.mem List.mem_cons_self),
            (List.sublist_cons_self _ _).trans hsub⟩
        · obtain ⟨rfl, rfl⟩ := List.cons.inj hrest
          exact ⟨le_rfl, hsub⟩
      rw [List.length_cons, List.take_succ_cons, calculateTotalCacheSize_cons,
        calculateTotalCacheSize_cons]
      exact Nat.add_le_add hle.1 (ih hsorted hle.2)

/-- A selection of images is sound, and no other that reaches the target is smaller. -/
structure Selects (images : List ImageInfo) (limit target : ℤ) (selection : List ImageInfo) :
    Prop where
  among : selection.Subperm images
  unpinned : ∀ img ∈ selection, img.pinned = false
  idle : (calculateTotalCacheSize images : ℤ) ≤ limit → selection = []
  reaches : limit < calculateTotalCacheSize images →
    (calculateTotalCacheSize images : ℤ) - calculateTotalCacheSize selection ≤ target ∨
      selection.Perm (ImageCache.unpinned images)
  fewest : ∀ others : List ImageInfo, others.Subperm (ImageCache.unpinned images) →
    (calculateTotalCacheSize images : ℤ) - calculateTotalCacheSize others ≤ target →
      selection.length ≤ others.length

/-- No set of images that can be removed is smaller than the images taken, if it reaches the
target. -/
theorem length_takeToTarget_le {images others : List ImageInfo} {projected target : ℤ}
    (hothers : others.Subperm (unpinned images))
    (hdown : projected - calculateTotalCacheSize others ≤ target) :
    (takeToTarget target projected (removable images)).length ≤ others.length := by
  obtain ⟨chosen, hperm, hsub⟩ := hothers.trans (removable_perm images).symm.subperm
  have hlargest := calculateTotalCacheSize_le_take (removable_sorted images) hsub
  rw [calculateTotalCacheSize_perm hperm, hperm.length_eq] at hlargest
  have hpre : takeToTarget target projected (removable images) <+:
      (removable images).take others.length :=
    takeToTarget_isPrefix (List.take_prefix _ _) (by omega)
  exact hpre.length_le.trans (List.length_take_le _ _)

theorem selects_selectImagesToRemove (images : List ImageInfo) (limit target : ℤ) :
    Selects images limit target
      (selectImagesToRemove images (calculateTotalCacheSize images) limit target) := by
  unfold selectImagesToRemove
  split
  case isTrue hlimit =>
    exact ⟨List.nil_subperm, by simp, fun _ => rfl, fun hover => absurd hlimit (not_le.mpr hover),
      fun _ _ _ => Nat.zero_le _⟩
  case isFalse hlimit =>
    obtain ⟨rest, happend, hrest⟩ := @takeToTarget_append target (calculateTotalCacheSize images)
      (removable images)
    have hpre : takeToTarget target (calculateTotalCacheSize images) (removable images) <+:
        removable images := ⟨rest, happend.symm⟩
    refine ⟨?_, fun img himg => (mem_removable.mp (hpre.mem himg)).2,
      fun hunder => absurd hunder hlimit, fun _ => ?_, fun _ => length_takeToTarget_le⟩
    · exact (hpre.sublist.subperm.trans (removable_perm images).subperm).trans
        List.filter_sublist.subperm
    · rcases hrest with rfl | hdown
      · rw [List.append_nil] at happend
        right
        rw [← happend]
        exact removable_perm images
      · exact Or.inl hdown

end ImageCache

import Mathlib.Algebra.Order.BigOperators.Group.List
import Mathlib.Algebra.Order.Ring.Nat
import Mathlib.Data.List.Sort

/-!
# The image cache janitor

On every node the janitor checks how large the images in the cache are. Over the limit it removes
images, largest first, until the cache should be down to the target. An image that is in use is not
removed when asked to, and the janitor does not know beforehand which images are.
-/

namespace ImageCache

structure ImageInfo where
  id : String
  size : ℕ
  pinned : Bool
deriving DecidableEq

structure Config where
  limitBytes : ℕ
  targetBytes : ℕ

/-- The images on a node, and which of them running containers use. -/
structure Node where
  images : List ImageInfo
  inUse : String → Bool

structure Metrics where
  gcCycles : ℕ
  cacheSizeBytes : ℕ
  cacheImageCount : ℕ
  evictions : ℕ
  evictionErrors : ℕ
  evictedBytes : ℕ
deriving DecidableEq

def calculateTotalCacheSize (images : List ImageInfo) : ℕ := (images.map ImageInfo.size).sum

/-- The images that are not pinned, largest first. Images of one size keep their order. -/
def removable (images : List ImageInfo) : List ImageInfo :=
  (images.filter fun img => !img.pinned).insertionSort fun img img' => img'.size ≤ img.size

/-- The images to take until the projected size is down to the target. -/
def takeToTarget (targetBytes : ℤ) : ℤ → List ImageInfo → List ImageInfo
  | _, [] => []
  | projected, img :: rest =>
    if projected ≤ targetBytes then []
    else img :: takeToTarget targetBytes (projected - img.size) rest

def selectImagesToRemove (images : List ImageInfo) (totalSize limitBytes targetBytes : ℤ) :
    List ImageInfo :=
  if totalSize ≤ limitBytes then []
  else takeToTarget targetBytes totalSize (removable images)

/-- The command to remove an image, which an image in use refuses. -/
def crictlRmi (imageId : String) (node : Node) : Option Node :=
  if node.inUse imageId then none
  else some { node with images := node.images.filter fun img => img.id ≠ imageId }

/-- One eviction, successful or not. -/
def evict (state : Node × Metrics) (img : ImageInfo) : Node × Metrics :=
  match crictlRmi img.id state.1 with
  | some node =>
    (node, { state.2 with
      evictions := state.2.evictions + 1
      evictedBytes := state.2.evictedBytes + img.size })
  | none => (state.1, { state.2 with evictionErrors := state.2.evictionErrors + 1 })

/-- One cycle of the janitor. The images may fail to be listed. -/
def runGcCycle (config : Config) (listed : Bool) (node : Node) (metrics : Metrics) :
    Node × Metrics :=
  let metrics := { metrics with gcCycles := metrics.gcCycles + 1 }
  if listed then
    let totalSize := calculateTotalCacheSize node.images
    let metrics := { metrics with
      cacheSizeBytes := totalSize
      cacheImageCount := node.images.length }
    if totalSize ≤ config.limitBytes then (node, metrics)
    else
      (selectImagesToRemove node.images totalSize config.limitBytes config.targetBytes).foldl evict
        (node, metrics)
  else (node, metrics)

/-- So many cycles in a row, with no image added and none put to use or out of it. -/
def runGcCycles (config : Config) : ℕ → Node × Metrics → Node × Metrics
  | 0, state => state
  | n + 1, state => runGcCycles config n (runGcCycle config true state.1 state.2)

/-! ### What a cycle removes -/

/-- The images that can be removed among some. -/
def unusedIds (inUse : String → Bool) (images : List ImageInfo) : List String :=
  (images.filter fun img => !inUse img.id).map ImageInfo.id

def Node.without (node : Node) (ids : List String) : Node :=
  { node with images := node.images.filter fun img => img.id ∉ ids }

section Evictions

variable {node : Node} {images : List ImageInfo} {id : String}

theorem mem_unusedIds {inUse : String → Bool} :
    id ∈ unusedIds inUse images ↔ id ∈ images.map ImageInfo.id ∧ inUse id = false := by
  simp only [unusedIds, List.mem_map, List.mem_filter, Bool.not_eq_true']
  constructor
  · rintro ⟨img, ⟨himg, hunused⟩, rfl⟩
    exact ⟨⟨img, himg, rfl⟩, hunused⟩
  · rintro ⟨⟨img, himg, rfl⟩, hunused⟩
    exact ⟨img, ⟨himg, hunused⟩, rfl⟩

theorem Node.mem_without {ids : List String} {img : ImageInfo} :
    img ∈ (node.without ids).images ↔ img ∈ node.images ∧ img.id ∉ ids := by
  simp [Node.without]

@[simp] theorem Node.without_nil : node.without [] = node := by
  simp [Node.without]

theorem Node.without_cons (ids : List String) :
    node.without (id :: ids) = (node.without [id]).without ids := by
  simp only [Node.without, List.filter_filter, Node.mk.injEq, and_true]
  refine List.filter_congr fun img _ => ?_
  simp [Bool.and_comm]

@[simp] theorem calculateTotalCacheSize_append (front back : List ImageInfo) :
    calculateTotalCacheSize (front ++ back) =
      calculateTotalCacheSize front + calculateTotalCacheSize back := by
  simp [calculateTotalCacheSize]

/-- The more is removed, the less is left. -/
theorem Node.total_without_le {ids ids' : List String} (hsub : ids ⊆ ids') :
    calculateTotalCacheSize (node.without ids').images ≤
      calculateTotalCacheSize (node.without ids).images := by
  have hsublist : (node.without ids').images.Sublist (node.without ids).images := by
    refine List.monotone_filter_right _ fun img himg => ?_
    simp only [decide_eq_true_eq] at himg ⊢
    exact fun hid => himg (hsub hid)
  exact (hsublist.map ImageInfo.size).sum_le_sum fun size _ => Nat.zero_le size

theorem evict_fst (state : Node × Metrics) (img : ImageInfo) : (evict state img).1 =
    if state.1.inUse img.id then state.1 else state.1.without [img.id] := by
  unfold evict crictlRmi
  split <;> simp_all [Node.without]

/-- The evictions remove those of the images that are not in use. -/
theorem foldl_evict_fst (state : Node × Metrics) : (images.foldl evict state).1 =
    state.1.without (unusedIds state.1.inUse images) := by
  induction images generalizing state with
  | nil => simp [unusedIds]
  | cons img rest ih =>
    rw [List.foldl_cons, ih, evict_fst]
    cases huse : state.1.inUse img.id with
    | true => simp [unusedIds, huse]
    | false =>
      have hids : unusedIds state.1.inUse (img :: rest) =
          img.id :: unusedIds state.1.inUse rest := by
        simp [unusedIds, huse]
      rw [hids, if_neg Bool.false_ne_true]
      exact (Node.without_cons _).symm

end Evictions

/-! ### What a cycle selects -/

section Selection

variable {targetBytes projected : ℤ} {images front : List ImageInfo}

/-- The images taken come first, and if some are left the projected size is down to the target. -/
theorem takeToTarget_append : ∃ rest, images = takeToTarget targetBytes projected images ++ rest ∧
    (rest = [] ∨ projected -
      calculateTotalCacheSize (takeToTarget targetBytes projected images) ≤ targetBytes) := by
  induction images generalizing projected with
  | nil => exact ⟨[], rfl, .inl rfl⟩
  | cons img rest ih =>
    unfold takeToTarget
    split
    case isTrue hdown => exact ⟨img :: rest, rfl, .inr (by simpa [calculateTotalCacheSize])⟩
    case isFalse hup =>
      obtain ⟨left, happend, hleft⟩ := @ih (projected - img.size)
      refine ⟨left, by rw [List.cons_append, ← happend], hleft.imp_right fun hdown => ?_⟩
      simp only [calculateTotalCacheSize, List.map_cons, List.sum_cons] at hdown ⊢
      omega

/-- No more images are taken than it needs. -/
theorem takeToTarget_isPrefix (hfront : front <+: images)
    (hdown : projected - calculateTotalCacheSize front ≤ targetBytes) :
    takeToTarget targetBytes projected images <+: front := by
  induction images generalizing projected front with
  | nil => exact List.nil_prefix
  | cons img rest ih =>
    unfold takeToTarget
    split
    case isTrue => exact List.nil_prefix
    case isFalse hup =>
      cases front with
      | nil => exact absurd (by simpa [calculateTotalCacheSize] using hdown) hup
      | cons img' front =>
        obtain ⟨rfl, hrest⟩ := List.cons_prefix_cons.1 hfront
        refine List.cons_prefix_cons.2 ⟨rfl, ih hrest ?_⟩
        simp only [calculateTotalCacheSize, List.map_cons, List.sum_cons] at hdown ⊢
        omega

@[simp] theorem mem_removable {img : ImageInfo} :
    img ∈ removable images ↔ img ∈ images ∧ img.pinned = false := by
  simp [removable]

end Selection

/-! ### What a cycle leaves -/

/-- The cache is down to the target, or no image that could be removed is left. -/
def ReachesTarget (config : Config) (before after : Node) : Prop :=
  calculateTotalCacheSize after.images ≤ config.targetBytes ∨
    ∀ img ∈ before.images, img.pinned = false → before.inUse img.id = false → img ∉ after.images

/-- If all images before one that could be removed bring the cache down to the target, then those
of them do that are not in use. -/
def UnusedSuffice (config : Config) (node : Node) : Prop :=
  ∀ front img back, removable node.images = front ++ img :: back →
    node.inUse img.id = false → img.id ∉ front.map ImageInfo.id →
    calculateTotalCacheSize node.images ≤ config.targetBytes + calculateTotalCacheSize front →
    calculateTotalCacheSize (node.without (unusedIds node.inUse front)).images ≤
      config.targetBytes

section Cycle

variable {config : Config} {node : Node} {metrics : Metrics}

/-- The images that a cycle selects on a node over the limit. -/
def selected (config : Config) (node : Node) : List ImageInfo :=
  takeToTarget config.targetBytes (calculateTotalCacheSize node.images) (removable node.images)

theorem runGcCycle_fst (hlimit : config.limitBytes < calculateTotalCacheSize node.images) :
    (runGcCycle config true node metrics).1 =
      node.without (unusedIds node.inUse (selected config node)) := by
  have hnot : ¬ calculateTotalCacheSize node.images ≤ config.limitBytes := by omega
  have hnot' : ¬ (calculateTotalCacheSize node.images : ℤ) ≤ config.limitBytes := by omega
  simp only [runGcCycle, if_true, if_neg hnot, selectImagesToRemove, if_neg hnot']
  exact foldl_evict_fst _

/-- If an image is left that could be removed, there is a first such one, and those before it bring
the cache down to the target. -/
theorem exists_first_left {img : ImageInfo} (himg : img ∈ removable node.images)
    (hunused : node.inUse img.id = false)
    (hleft : img.id ∉ (selected config node).map ImageInfo.id) :
    ∃ front img' back, removable node.images = front ++ img' :: back ∧
      node.inUse img'.id = false ∧ img'.id ∉ front.map ImageInfo.id ∧
      unusedIds node.inUse front ⊆ unusedIds node.inUse (selected config node) ∧
      calculateTotalCacheSize node.images ≤
        config.targetBytes + calculateTotalCacheSize front := by
  obtain ⟨rest, happend, hdown⟩ : ∃ rest, removable node.images = selected config node ++ rest ∧
      (rest = [] ∨ (calculateTotalCacheSize node.images : ℤ) -
        calculateTotalCacheSize (selected config node) ≤ config.targetBytes) :=
    takeToTarget_append
  have hrest : img ∈ rest := by
    rw [happend] at himg
    exact (List.mem_append.1 himg).resolve_left fun hsel => hleft (List.mem_map_of_mem hsel)
  have hfound : ∃ img', rest.find? (fun img => !node.inUse img.id &&
      img.id ∉ (selected config node).map ImageInfo.id) = some img' := by
    rw [← Option.isSome_iff_exists, List.find?_isSome]
    exact ⟨img, hrest, by simp [hunused, hleft]⟩
  obtain ⟨img', hfind⟩ := hfound
  obtain ⟨hfree, skipped, back, rfl, hskipped⟩ := List.find?_eq_some_iff_append.1 hfind
  simp only [Bool.and_eq_true, Bool.not_eq_true', decide_eq_true_eq] at hfree
  -- an image passed over on the way is in use or has the identity of one selected
  have hpassed : ∀ id ∈ skipped.map ImageInfo.id, node.inUse id = false →
      id ∈ (selected config node).map ImageInfo.id := by
    intro id hid hunused
    obtain ⟨passed, hmem, rfl⟩ := List.mem_map.1 hid
    by_contra hnot
    have := hskipped passed hmem
    simp [hunused, hnot] at this
  refine ⟨selected config node ++ skipped, img', back, by rw [happend, List.append_assoc],
    hfree.1, ?_, ?_, ?_⟩
  · rw [List.map_append, List.mem_append]
    rintro (hsel | hskip)
    · exact hfree.2 hsel
    · exact hfree.2 (hpassed _ hskip hfree.1)
  · intro id hid
    obtain ⟨hid, hunused⟩ := mem_unusedIds.1 hid
    rw [List.map_append, List.mem_append] at hid
    exact mem_unusedIds.2
      ⟨hid.elim (fun hsel => hsel) fun hskip => hpassed id hskip hunused, hunused⟩
  · have hsel := hdown.resolve_left (by simp)
    rw [calculateTotalCacheSize_append]
    omega

/-- Over the limit, a cycle reaches the target exactly if the images not in use suffice whenever
the selection stops early. -/
theorem reachesTarget_iff (metrics : Metrics)
    (hlimit : config.limitBytes < calculateTotalCacheSize node.images) :
    ReachesTarget config node (runGcCycle config true node metrics).1 ↔
      UnusedSuffice config node := by
  rw [runGcCycle_fst hlimit]
  constructor
  · intro hreaches front img back hsplit hunused hfirst hdown
    have hpre : selected config node <+: front := by
      refine takeToTarget_isPrefix ⟨img :: back, hsplit.symm⟩ ?_
      omega
    have hids : unusedIds node.inUse (selected config node) ⊆ unusedIds node.inUse front := by
      intro id hid
      obtain ⟨hsel, hunused⟩ := mem_unusedIds.1 hid
      exact mem_unusedIds.2 ⟨List.map_subset ImageInfo.id hpre.subset hsel, hunused⟩
    refine (Node.total_without_le hids).trans ?_
    refine hreaches.resolve_right fun hgone => ?_
    have himg : img ∈ removable node.images := by simp [hsplit]
    obtain ⟨himages, hpinned⟩ := mem_removable.1 himg
    refine hgone img himages hpinned hunused (Node.mem_without.2 ⟨himages, fun hid => hfirst ?_⟩)
    exact (mem_unusedIds.1 (hids hid)).1
  · intro hsuffice
    by_cases hgone : ∀ img ∈ node.images, img.pinned = false → node.inUse img.id = false →
        img ∉ (node.without (unusedIds node.inUse (selected config node))).images
    · exact .inr hgone
    · simp only [not_forall, not_not, exists_prop] at hgone
      obtain ⟨img, himages, hpinned, hunused, hkept⟩ := hgone
      have hleft : img.id ∉ (selected config node).map ImageInfo.id := fun hid =>
        (Node.mem_without.1 hkept).2 (mem_unusedIds.2 ⟨hid, hunused⟩)
      obtain ⟨front, img', back, hsplit, hunused', hfirst, hids, hdown⟩ :=
        exists_first_left (mem_removable.2 ⟨himages, hpinned⟩) hunused hleft
      exact .inl ((Node.total_without_le hids).trans
        (hsuffice front img' back hsplit hunused' hfirst hdown))

/-- Sizes here are in GiB. -/
def gibConfig : Config where
  limitBytes := 500
  targetBytes := 400

/-- A large image and a smaller one, of which the first is in use or the second. -/
def twoImages (used : String) : Node where
  images := [⟨"large", 450, false⟩, ⟨"small", 100, false⟩]
  inUse id := id = used

theorem unusedSuffice_smallInUse : UnusedSuffice gibConfig (twoImages "small") :=
  (reachesTarget_iff ⟨0, 0, 0, 0, 0, 0⟩ (by decide)).1 (by unfold ReachesTarget; decide)

/-- The large image is selected and not removed, and the small one is never asked for. -/
theorem not_reachesTarget_largeInUse :
    gibConfig.targetBytes ≤ gibConfig.limitBytes ∧
      gibConfig.limitBytes < calculateTotalCacheSize (twoImages "large").images ∧
      ¬ ReachesTarget gibConfig (twoImages "large")
        (runGcCycle gibConfig true (twoImages "large") ⟨0, 0, 0, 0, 0, 0⟩).1 := by
  unfold ReachesTarget
  decide

theorem runGcCycle_fst_of_le (hlimit : calculateTotalCacheSize node.images ≤ config.limitBytes) :
    (runGcCycle config true node metrics).1 = node := by
  simp [runGcCycle, hlimit]

end Cycle

/-! ### Runs -/

/-- What a cycle sets out with: its metrics, and the images that it is to remove. -/
def startGcCycle (config : Config) (listed : Bool) (node : Node) (metrics : Metrics) :
    Metrics × List ImageInfo :=
  let metrics := { metrics with gcCycles := metrics.gcCycles + 1 }
  if listed then
    let totalSize := calculateTotalCacheSize node.images
    ({ metrics with cacheSizeBytes := totalSize, cacheImageCount := node.images.length },
      selectImagesToRemove node.images totalSize config.limitBytes config.targetBytes)
  else (metrics, [])

theorem runGcCycle_eq (config : Config) (listed : Bool) (node : Node) (metrics : Metrics) :
    runGcCycle config listed node metrics =
      (startGcCycle config listed node metrics).2.foldl evict
        (node, (startGcCycle config listed node metrics).1) := by
  cases listed with
  | false => rfl
  | true =>
    simp only [runGcCycle, startGcCycle, if_true]
    split_ifs with hlimit
    · have hnone : (calculateTotalCacheSize node.images : ℤ) ≤ config.limitBytes := by omega
      rw [selectImagesToRemove, if_pos hnone, List.foldl_nil]
    · rfl

/-- A node with its janitor, what is left to remove of a cycle, and all images that were pulled. -/
structure World where
  node : Node
  metrics : Metrics
  toRemove : List ImageInfo
  pulled : List ImageInfo

inductive Event
  /-- A cycle starts when the last one is over. -/
  | startCycle (listed : Bool)
  /-- The cycle goes on with its next image. -/
  | removeImage
  /-- The command to remove it fails, although it is not in use. -/
  | failImage
  /-- The cycle is given up. -/
  | giveUp
  /-- An image is pulled if it is not there. -/
  | pull (img : ImageInfo)
  /-- Containers start and stop. -/
  | use (inUse : String → Bool)

def step (config : Config) (w : World) : Event → World
  | .startCycle listed =>
    if w.toRemove = [] then
      { w with
        metrics := (startGcCycle config listed w.node w.metrics).1
        toRemove := (startGcCycle config listed w.node w.metrics).2 }
    else w
  | .removeImage =>
    match w.toRemove with
    | [] => w
    | img :: rest =>
      { w with
        node := (evict (w.node, w.metrics) img).1
        metrics := (evict (w.node, w.metrics) img).2
        toRemove := rest }
  | .failImage =>
    match w.toRemove with
    | [] => w
    | _ :: rest =>
      { w with
        metrics := { w.metrics with evictionErrors := w.metrics.evictionErrors + 1 }
        toRemove := rest }
  | .giveUp => { w with toRemove := [] }
  | .pull img =>
    if img.id ∈ w.node.images.map ImageInfo.id then w
    else { w with
      node := { w.node with images := w.node.images ++ [img] }
      pulled := w.pulled ++ [img] }
  | .use inUse => { w with node := { w.node with inUse := inUse } }

/-- A new node. -/
def World.new : World := ⟨⟨[], fun _ => false⟩, ⟨0, 0, 0, 0, 0, 0⟩, [], []⟩

def worldAfter (config : Config) (run : List Event) : World := run.foldl (step config) World.new

theorem foldl_removeImage (config : Config) (w : World) :
    (List.replicate w.toRemove.length Event.removeImage).foldl (step config) w =
      { w with
        node := (w.toRemove.foldl evict (w.node, w.metrics)).1
        metrics := (w.toRemove.foldl evict (w.node, w.metrics)).2
        toRemove := [] } := by
  obtain ⟨node, metrics, toRemove, pulled⟩ := w
  induction toRemove generalizing node metrics with
  | nil => rfl
  | cons img rest ih => exact ih _ _

/-- A cycle that nothing comes between is a cycle of the janitor. -/
theorem foldl_cycle (config : Config) (listed : Bool) {w : World} (h : w.toRemove = []) :
    (List.replicate (step config w (.startCycle listed)).toRemove.length Event.removeImage).foldl
        (step config) (step config w (.startCycle listed)) =
      { w with
        node := (runGcCycle config listed w.node w.metrics).1
        metrics := (runGcCycle config listed w.node w.metrics).2
        toRemove := [] } := by
  rw [foldl_removeImage, runGcCycle_eq]
  simp only [step, h, if_true]

section Runs

variable {config : Config} {w : World} {img : ImageInfo}

/-- What is selected is there, not pinned, and selected once. -/
theorem startGcCycle_snd (config : Config) (listed : Bool) (node : Node) (metrics : Metrics) :
    (startGcCycle config listed node metrics).2.Sublist (removable node.images) := by
  unfold startGcCycle selectImagesToRemove
  cases listed with
  | false => exact List.nil_sublist _
  | true =>
    simp only [if_true]
    split
    · exact List.nil_sublist _
    · obtain ⟨rest, happend, -⟩ := @takeToTarget_append config.targetBytes
        (calculateTotalCacheSize node.images) (removable node.images)
      exact List.IsPrefix.sublist ⟨rest, happend.symm⟩

theorem perm_without {node : Node} (hids : (node.images.map ImageInfo.id).Nodup)
    (himg : img ∈ node.images) : node.images.Perm (img :: (node.without [img.id]).images) := by
  have herase : (node.without [img.id]).images = node.images.erase img := by
    rw [hids.of_map.erase_eq_filter]
    refine List.filter_congr fun img' himg' => ?_
    have hiff : img'.id = img.id ↔ img' = img :=
      ⟨fun hid => List.inj_on_of_nodup_map hids himg' himg hid, congrArg ImageInfo.id⟩
    rw [Bool.eq_iff_iff]
    simp [hiff]
  exact herase ▸ List.perm_cons_erase himg

/-- The images are pinned, or there, or were removed, and the metrics say how many and how large. -/
structure Inv (w : World) : Prop where
  ids : (w.node.images.map ImageInfo.id).Nodup
  selected : (w.toRemove.map ImageInfo.id).Nodup
  there : ∀ img ∈ w.toRemove, img ∈ w.node.images ∧ img.pinned = false
  pinned : ∀ img ∈ w.pulled, img.pinned = true → img ∈ w.node.images
  count : w.node.images.length + w.metrics.evictions = w.pulled.length
  size : calculateTotalCacheSize w.node.images + w.metrics.evictedBytes =
    calculateTotalCacheSize w.pulled

theorem Inv.startCycle (h : Inv w) (listed : Bool) :
    Inv (step config w (.startCycle listed)) := by
  have hcounts : (startGcCycle config listed w.node w.metrics).1.evictions = w.metrics.evictions ∧
      (startGcCycle config listed w.node w.metrics).1.evictedBytes = w.metrics.evictedBytes := by
    cases listed <;> exact ⟨rfl, rfl⟩
  have hsub := startGcCycle_snd config listed w.node w.metrics
  simp only [step]
  split_ifs
  · refine ⟨h.ids, ?_, fun img himg => mem_removable.1 (hsub.subset himg), h.pinned, ?_, ?_⟩
    · refine List.Nodup.sublist (hsub.map _) ?_
      have hperm := (List.perm_insertionSort (fun img img' : ImageInfo => img'.size ≤ img.size)
        (w.node.images.filter fun img => !img.pinned)).map ImageInfo.id
      exact hperm.nodup_iff.2 (h.ids.sublist (List.filter_sublist.map _))
    · exact hcounts.1 ▸ h.count
    · exact hcounts.2 ▸ h.size
  · exact h

theorem Inv.passOver (h : Inv w) {rest : List ImageInfo} (hrest : rest.Sublist w.toRemove)
    (errors : ℕ) :
    Inv { w with metrics := { w.metrics with evictionErrors := errors }, toRemove := rest } :=
  ⟨h.ids, h.selected.sublist (hrest.map _), fun img himg => h.there img (hrest.subset himg),
    h.pinned, h.count, h.size⟩

theorem Inv.removeImage (h : Inv w) : Inv (step config w .removeImage) := by
  obtain ⟨node, metrics, toRemove, pulled⟩ := w
  cases toRemove with
  | nil => exact h
  | cons img rest =>
    obtain ⟨hthere, hpinned⟩ := h.there img List.mem_cons_self
    obtain ⟨hnot, hrest⟩ := List.nodup_cons.1 h.selected
    cases huse : node.inUse img.id with
    | true =>
      have hevict : evict (node, metrics) img =
          (node, { metrics with evictionErrors := metrics.evictionErrors + 1 }) := by
        simp [evict, crictlRmi, huse]
      simp only [step, hevict]
      exact h.passOver (List.sublist_cons_self img rest) _
    | false =>
      have hevict : evict (node, metrics) img = (node.without [img.id],
          { metrics with
            evictions := metrics.evictions + 1
            evictedBytes := metrics.evictedBytes + img.size }) := by
        simp [evict, crictlRmi, huse, Node.without]
      have hperm := perm_without h.ids hthere
      have hlength := hperm.length_eq
      have hsize := (hperm.map ImageInfo.size).sum_eq
      have hcount := h.count
      have htotal := h.size
      simp only [List.length_cons] at hlength
      simp only [List.map_cons, List.sum_cons] at hsize
      simp only [calculateTotalCacheSize] at htotal
      -- another image with this identity is this image, which is neither pinned nor selected again
      have hkept : ∀ img' ∈ node.images, img'.id ≠ img.id → img' ∈ (node.without [img.id]).images :=
        fun img' himg' hne => Node.mem_without.2 ⟨himg', by simpa using hne⟩
      simp only [step, hevict]
      refine ⟨h.ids.sublist (List.filter_sublist.map _), hrest, fun img' himg' => ?_,
        fun img' himg' hpinned' => ?_, ?_, ?_⟩
      · obtain ⟨hmem, hfree⟩ := h.there img' (List.mem_cons_of_mem _ himg')
        exact ⟨hkept _ hmem fun hid => hnot (hid ▸ List.mem_map_of_mem himg'), hfree⟩
      · have hmem := h.pinned img' himg' hpinned'
        refine hkept _ hmem fun hid => ?_
        rw [List.inj_on_of_nodup_map h.ids hmem hthere hid, hpinned] at hpinned'
        cases hpinned'
      · dsimp only at hcount ⊢
        omega
      · simp only [calculateTotalCacheSize]
        omega

theorem Inv.pull (h : Inv w) (img : ImageInfo) : Inv (step config w (.pull img)) := by
  simp only [step]
  split_ifs with hthere
  · exact h
  · have hcount := h.count
    have hsize := h.size
    refine ⟨?_, h.selected, fun img' himg' => ?_, fun img' himg' hpinned => ?_, ?_, ?_⟩
    · rw [List.map_append, List.nodup_append]
      exact ⟨h.ids, List.nodup_singleton _, by
        rintro id hid _ (_ | ⟨_, ⟨⟩⟩) rfl; exact hthere hid⟩
    · exact ⟨List.mem_append_left _ (h.there img' himg').1, (h.there img' himg').2⟩
    · rcases List.mem_append.1 himg' with hold | hnew
      · exact List.mem_append_left _ (h.pinned img' hold hpinned)
      · exact List.mem_append_right _ hnew
    · simp only [List.length_append, List.length_singleton]
      omega
    · simp only [calculateTotalCacheSize_append]
      omega

theorem Inv.step (h : Inv w) (e : Event) : Inv (step config w e) := by
  cases e with
  | startCycle listed => exact h.startCycle listed
  | removeImage => exact h.removeImage
  | failImage =>
    simp only [ImageCache.step]
    split
    · exact h
    · rename_i hrest
      exact h.passOver (hrest ▸ List.sublist_cons_self _ _) _
  | giveUp => exact h.passOver (List.nil_sublist _) _
  | pull img => exact h.pull img
  | use inUse => exact ⟨h.ids, h.selected, h.there, h.pinned, h.count, h.size⟩

theorem Inv.foldl_step (h : Inv w) (run : List Event) :
    Inv (run.foldl (ImageCache.step config) w) := by
  induction run generalizing w with
  | nil => exact h
  | cons e run ih => exact ih (h.step e)

theorem Inv.new : Inv World.new where
  ids := List.nodup_nil
  selected := List.nodup_nil
  there _ h := nomatch h
  pinned _ h := nomatch h
  count := rfl
  size := rfl

/-- An image in use stays, whatever happens next. -/
theorem mem_images_step (hthere : img ∈ w.node.images) (huse : w.node.inUse img.id = true)
    (e : Event) : img ∈ (step config w e).node.images := by
  cases e with
  | startCycle listed =>
    simp only [step]
    split_ifs <;> exact hthere
  | removeImage =>
    simp only [step]
    split
    · exact hthere
    · rename_i img' rest _
      simp only [evict_fst]
      split_ifs with huse'
      · exact hthere
      · refine Node.mem_without.2 ⟨hthere, fun hid => huse' ?_⟩
        rw [← List.mem_singleton.1 hid, huse]
  | pull img' =>
    simp only [step]
    split_ifs
    · exact hthere
    · exact List.mem_append_left _ hthere
  | failImage =>
    simp only [step]
    split <;> exact hthere
  | giveUp | use => exact hthere

/-- In every run, whatever is pulled and used between two removals, a pinned image stays and one in
use is not removed, and the evictions are all that is missing of what was pulled. -/
theorem evictions_exact (config : Config) (run : List Event) :
    (∀ img ∈ (worldAfter config run).pulled, img.pinned = true →
      img ∈ (worldAfter config run).node.images) ∧
    (∀ e, ∀ img ∈ (worldAfter config run).node.images,
      (worldAfter config run).node.inUse img.id = true →
        img ∈ (step config (worldAfter config run) e).node.images) ∧
    (worldAfter config run).node.images.length + (worldAfter config run).metrics.evictions =
      (worldAfter config run).pulled.length ∧
    calculateTotalCacheSize (worldAfter config run).node.images +
        (worldAfter config run).metrics.evictedBytes =
      calculateTotalCacheSize (worldAfter config run).pulled :=
  have h := Inv.new.foldl_step run
  ⟨h.pinned, fun e _ hthere huse => mem_images_step hthere huse e, h.count, h.size⟩

end Runs
end ImageCache

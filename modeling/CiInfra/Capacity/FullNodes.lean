import CiInfra.Capacity.Combos
import Mathlib.Algebra.BigOperators.Group.Multiset.Basic
import Mathlib.Order.Bounds.Basic
import Mathlib.Tactic.Linarith
import Mathlib.Tactic.Ring

/-!
# Full nodes

A node is full when it has runners that fit and no other can be added. The report has every full
node if no more runners fit on a node than are enumerated, and it agrees with the division if that
gives no runner its place where none fits.
-/

namespace CiInfra.Capacity

open Packing

/-! ### What runners need -/

/-- What the runners of a node need. -/
def needOf (s : Multiset Runner) : Resources := (s.map perRunnerTotal).sum

/-- The runners fit on the node. -/
def FitsOn (alloc : Allocatable) (s : Multiset Runner) : Prop := (needOf s).FitsIn alloc

variable {alloc : Allocatable} {runners : List Runner} {runner : Runner} {s : Multiset Runner}

theorem needOf_cons (runner : Runner) (s : Multiset Runner) :
    needOf (runner ::ₘ s) = needOf s + perRunnerTotal runner := by
  rw [needOf, Multiset.map_cons, Multiset.sum_cons, add_comm]
  rfl

theorem comboTotal_eq_needOf (combo : List Runner) : comboTotal combo = needOf combo := by
  have hfoldl : ∀ total : Resources,
      combo.foldl (fun total runner => total + perRunnerTotal runner) total =
        total + needOf combo := by
    induction combo with
    | nil => exact fun total => (add_zero total).symm
    | cons runner combo ih =>
      intro total
      rw [List.foldl_cons, ih, ← Multiset.cons_coe, needOf_cons, add_assoc,
        add_comm (perRunnerTotal runner)]
  exact (hfoldl 0).trans (zero_add _)

/-- With positive amounts of CPU, no more runners fit than there are milliCPUs. -/
theorem card_le_of_fitsOn (hcpu : ∀ r ∈ s, 0 < (perRunnerTotal r).cpuM) (hfits : FitsOn alloc s) :
    Multiset.card s ≤ alloc.allocatableCpuM.toNat := by
  have hcard : (Multiset.card s : ℤ) ≤ (needOf s).cpuM := by
    clear hfits
    induction s using Multiset.induction with
    | empty => simp [needOf]
    | cons r s ih =>
      obtain ⟨hr, hs⟩ := Multiset.forall_mem_cons.mp hcpu
      have hle := ih hs
      rw [needOf_cons, Multiset.card_cons, Resources.cpuM_add]
      omega
  have hle := hcard.trans hfits.1
  omega

/-! ### Copies of one runner -/

theorem needOf_replicate (n : ℕ) (runner : Runner) :
    (needOf (Multiset.replicate n runner)).cpuM = n * (perRunnerTotal runner).cpuM ∧
      (needOf (Multiset.replicate n runner)).memMi = n * (perRunnerTotal runner).memMi ∧
      (needOf (Multiset.replicate n runner)).gpu = n * (perRunnerTotal runner).gpu := by
  induction n with
  | zero => simp [needOf]
  | succ n ih =>
    obtain ⟨hcpu, hmem, hgpu⟩ := ih
    rw [Multiset.replicate_succ, needOf_cons]
    simp only [Resources.cpuM_add, Resources.memMi_add, Resources.gpu_add, hcpu, hmem, hgpu]
    push_cast
    exact ⟨by ring, by ring, by ring⟩

/-! ### The enumeration -/

/-- The entries that are listed are those of the full nodes of up to so many pods. -/
theorem mem_findMaximalCombos {combo : Combo} :
    combo ∈ findMaximalCombos (findValidCombos runners alloc) alloc runners ↔
      ∃ c : List Runner, combo = comboOf alloc c ∧ Full (FitsOn alloc) runners c ∧
        (∃ i < maxCount alloc, c ∈ combinationsWithReplacement runners (i + 1)) := by
  simp only [findMaximalCombos, findValidCombos, List.mem_filter, List.mem_flatMap, List.mem_range,
    List.mem_map, decide_eq_true_eq, Bool.not_eq_true', List.any_eq_false]
  constructor
  · rintro ⟨⟨i, hi, c, ⟨hc, hfits⟩, rfl⟩, hmore⟩
    obtain ⟨hlength, hmem⟩ := of_mem_combinationsWithReplacement hc
    refine ⟨c, rfl, ⟨?_, hmem, ?_, fun r hr hfit => hmore r hr ?_⟩, i, hi, hc⟩
    · rintro h
      rw [Multiset.coe_eq_zero] at h
      subst h
      cases hlength
    · rw [FitsOn, ← comboTotal_eq_needOf]
      exact hfits
    · rw [FitsOn, needOf_cons, ← comboTotal_eq_needOf] at hfit
      exact hfit
  · rintro ⟨c, rfl, hfull, i, hi, hc⟩
    refine ⟨⟨i, hi, c, ⟨hc, ?_⟩, rfl⟩, fun r hr hfit => hfull.no_more r hr ?_⟩
    · rw [comboTotal_eq_needOf]
      exact hfull.fits
    · rw [FitsOn, needOf_cons, ← comboTotal_eq_needOf]
      exact hfit

/-- A full node of up to so many pods is listed. -/
theorem exists_mem_findMaximalCombos (hfull : Full (FitsOn alloc) runners s)
    (hcard : Multiset.card s ≤ maxCount alloc) :
    ∃ c : List Runner, (c : Multiset Runner) = s ∧
      comboOf alloc c ∈ findMaximalCombos (findValidCombos runners alloc) alloc runners := by
  obtain ⟨c, hc, hcs⟩ := exists_mem_combinationsWithReplacement hfull.mem_types
  have hpos : 0 < Multiset.card s := Multiset.card_pos.mpr hfull.ne_zero
  refine ⟨c, hcs, mem_findMaximalCombos.mpr
    ⟨c, rfl, hcs ▸ hfull, Multiset.card s - 1, by omega, ?_⟩⟩
  rwa [Nat.sub_add_cancel hpos]

/-! ### Bounds -/

/-- The minimum that is carried through a list is the least value. -/
theorem isLeast_foldl_min {β γ : Type} [LinearOrder γ] (f : β → γ) (l : List β) (m : γ) :
    IsLeast (insert m {x | ∃ b ∈ l, f b = x}) (l.foldl (fun m b => min m (f b)) m) := by
  induction l generalizing m with
  | nil => simp [IsLeast, lowerBounds]
  | cons b l ih =>
    obtain ⟨hmem, hle⟩ := ih (min m (f b))
    have hmin : l.foldl (fun m b => min m (f b)) (min m (f b)) ≤ min m (f b) :=
      hle (Set.mem_insert _ _)
    constructor
    · rcases hmem with hmem | ⟨c, hc, hmem⟩
      · rcases min_choice m (f b) with h | h
        · exact Or.inl (hmem.trans h)
        · exact Or.inr ⟨b, List.mem_cons_self, (hmem.trans h).symm⟩
      · exact Or.inr ⟨c, List.mem_cons_of_mem _ hc, hmem⟩
    · rintro x (rfl | ⟨c, hc, rfl⟩)
      · exact hmin.trans (min_le_left _ _)
      · rcases List.mem_cons.mp hc with rfl | hc
        · exact hmin.trans (min_le_right _ _)
        · exact hle (Or.inr ⟨c, hc, rfl⟩)

theorem isGreatest_foldl_max {β γ : Type} [LinearOrder γ] (f : β → γ) (l : List β) (m : γ) :
    IsGreatest (insert m {x | ∃ b ∈ l, f b = x}) (l.foldl (fun m b => max m (f b)) m) :=
  @isLeast_foldl_min β γᵒᵈ _ f l m

/-- The bounds are the least and the greatest of the amounts. -/
structure Slack.Bounds (slack : Slack) (amounts : Set (ℤ × ℤ)) : Prop where
  minCpuM : IsLeast (Prod.fst '' amounts) slack.minCpuM
  maxCpuM : IsGreatest (Prod.fst '' amounts) slack.maxCpuM
  minMemMi : IsLeast (Prod.snd '' amounts) slack.minMemMi
  maxMemMi : IsGreatest (Prod.snd '' amounts) slack.maxMemMi

theorem boundsOf_eq_none {l : List (ℤ × ℤ)} : boundsOf l = none ↔ l = [] := by
  cases l <;> simp [boundsOf]

theorem bounds_of_boundsOf {l : List (ℤ × ℤ)} {slack : Slack} (h : boundsOf l = some slack) :
    slack.Bounds {p | p ∈ l} := by
  cases l with
  | nil => cases h
  | cons p ps =>
    cases h
    have himage : ∀ f : ℤ × ℤ → ℤ,
        f '' {q | q ∈ p :: ps} = insert (f p) {x | ∃ q ∈ ps, f q = x} := by
      intro f
      ext x
      simp [eq_comm]
    exact ⟨himage Prod.fst ▸ isLeast_foldl_min Prod.fst ps p.1,
      himage Prod.fst ▸ isGreatest_foldl_max Prod.fst ps p.1,
      himage Prod.snd ▸ isLeast_foldl_min Prod.snd ps p.2,
      himage Prod.snd ▸ isGreatest_foldl_max Prod.snd ps p.2⟩

/-- Bounds of amounts that are all the same. -/
theorem boundsOf_of_forall_eq {l : List (ℤ × ℤ)} {q : ℤ × ℤ} (hne : l ≠ [])
    (h : ∀ p ∈ l, p = q) : boundsOf l = some ⟨q.1, q.1, q.2, q.2⟩ := by
  cases hbounds : boundsOf l with
  | none => exact absurd (boundsOf_eq_none.mp hbounds) hne
  | some slack =>
    obtain ⟨⟨⟨p₁, h₁, hmin⟩, -⟩, ⟨⟨p₂, h₂, hmax⟩, -⟩, ⟨⟨p₃, h₃, hmin'⟩, -⟩, ⟨⟨p₄, h₄, hmax'⟩, -⟩⟩ :=
      bounds_of_boundsOf hbounds
    rw [h p₁ h₁] at hmin
    rw [h p₂ h₂] at hmax
    rw [h p₃ h₃] at hmin'
    rw [h p₄ h₄] at hmax'
    cases slack
    simp only at hmin hmax hmin' hmax'
    rw [← hmin, ← hmax, ← hmin', ← hmax']

/-! ### One type of runner -/

/-- A runner has no place, and the division says so: of what the runner needs there is no negative
amount, and of something less than it needs. -/
def HasTooLittle (alloc : Allocatable) (need : Resources) : Prop :=
  0 ≤ alloc.allocatableCpuM ∧ (0 < need.memMi → 0 ≤ alloc.allocatableMemMi) ∧
    (0 < need.gpu → 0 ≤ alloc.allocatableGpu) ∧
    (alloc.allocatableCpuM < need.cpuM ∨ (0 < need.memMi ∧ alloc.allocatableMemMi < need.memMi) ∨
      (0 < need.gpu ∧ alloc.allocatableGpu < need.gpu))

theorem quotient_eq_zero_iff {avail need : ℤ} :
    quotient avail need = 0 ↔ 0 < need ∧ 0 ≤ avail ∧ avail < need := by
  rw [quotient]
  split
  case isTrue hneed =>
    simp only [hneed, true_and]
    constructor
    · intro h
      have hdiv := Int.mul_ediv_add_emod avail need
      rw [h, mul_zero, zero_add] at hdiv
      exact ⟨hdiv ▸ Int.emod_nonneg _ hneed.ne', hdiv ▸ Int.emod_lt_of_pos _ hneed⟩
    · rintro ⟨hle, hlt⟩
      exact Int.ediv_eq_zero_of_lt hle hlt
  case isFalse hneed => simp [hneed]

/-- The quotient is the largest number of copies, up to 999. -/
theorem le_quotient_iff {n : ℕ} {avail need : ℤ} (hn : n ≤ 999) :
    n ≤ quotient avail need ↔ (0 < need → n * need ≤ avail) := by
  rw [quotient]
  split
  case isTrue hneed =>
    rw [Int.le_ediv_iff_mul_le hneed]
    simp [hneed]
  case isFalse hneed =>
    simp only [hneed, false_imp_iff, iff_true]
    omega

theorem homogeneousPods_eq_zero_iff (hcpu : 0 < (perRunnerTotal runner).cpuM) :
    homogeneousPods alloc runner = 0 ↔ HasTooLittle alloc (perRunnerTotal runner) := by
  have hnonneg : ∀ avail need : ℤ, 0 ≤ quotient avail need ↔ (0 < need → 0 ≤ avail) := by
    intro avail need
    simpa using @le_quotient_iff 0 avail need (by decide)
  have hmin : ∀ x y z : ℤ, min (min x y) z = 0 ↔
      (0 ≤ x ∧ 0 ≤ y ∧ 0 ≤ z) ∧ (x = 0 ∨ y = 0 ∨ z = 0) := by
    intro x y z
    omega
  rw [homogeneousPods, hmin, hnonneg, hnonneg, hnonneg, quotient_eq_zero_iff, quotient_eq_zero_iff,
    quotient_eq_zero_iff, HasTooLittle]
  simp only [hcpu, true_imp_iff, true_and]
  constructor
  · rintro ⟨⟨h₁, h₂, h₃⟩, hlack⟩
    exact ⟨h₁, h₂, h₃, hlack.imp And.right (Or.imp (fun h => ⟨h.1, h.2.2⟩) fun h => ⟨h.1, h.2.2⟩)⟩
  · rintro ⟨h₁, h₂, h₃, hlack⟩
    exact ⟨⟨h₁, h₂, h₃⟩, hlack.imp (fun h => ⟨h₁, h⟩)
      (Or.imp (fun h => ⟨h.1, h₂ h.1, h.2⟩) fun h => ⟨h.1, h₃ h.1, h.2⟩)⟩

theorem fitsOn_replicate {n : ℕ} :
    FitsOn alloc (Multiset.replicate n runner) ↔
      n * (perRunnerTotal runner).cpuM ≤ alloc.allocatableCpuM ∧
        n * (perRunnerTotal runner).memMi ≤ alloc.allocatableMemMi ∧
        n * (perRunnerTotal runner).gpu ≤ alloc.allocatableGpu := by
  obtain ⟨hcpu, hmem, hgpu⟩ := needOf_replicate n runner
  rw [FitsOn, Resources.FitsIn, hcpu, hmem, hgpu]

/-- Where so many copies fit and no more, the division says so. -/
theorem homogeneousPods_eq {n : ℕ} (hn : n < 999)
    (hfits : FitsOn alloc (Multiset.replicate n runner))
    (hmore : ¬ FitsOn alloc (Multiset.replicate (n + 1) runner)) :
    homogeneousPods alloc runner = n := by
  have hsucc : ∀ {avail need : ℤ}, n * need ≤ avail → (0 < need → (n + 1 : ℕ) * need ≤ avail) →
      (n + 1 : ℕ) * need ≤ avail := by
    intro avail need hle hpos
    by_cases hneed : 0 < need
    · exact hpos hneed
    · push_cast
      linarith
  rw [fitsOn_replicate] at hfits hmore
  obtain ⟨hcpu, hmem, hgpu⟩ := hfits
  have hle : (n : ℤ) ≤ homogeneousPods alloc runner := by
    rw [homogeneousPods, le_min_iff, le_min_iff, le_quotient_iff hn.le, le_quotient_iff hn.le,
      le_quotient_iff hn.le]
    exact ⟨⟨fun _ => hcpu, fun _ => hmem⟩, fun _ => hgpu⟩
  have hlt : ¬ ((n + 1 : ℕ) : ℤ) ≤ homogeneousPods alloc runner := by
    rw [homogeneousPods, le_min_iff, le_min_iff, le_quotient_iff hn, le_quotient_iff hn,
      le_quotient_iff hn]
    rintro ⟨⟨hcpu', hmem'⟩, hgpu'⟩
    exact hmore ⟨hsucc hcpu hcpu', hsucc hmem hmem', hsucc hgpu hgpu'⟩
  omega

/-! ### The report -/

/-- What the runners of a full node leave unused. -/
def wastes (runners : List Runner) (alloc : Allocatable) : Set (ℤ × ℤ) :=
  {p | ∃ s, Full (FitsOn alloc) runners s ∧
    p = (alloc.allocatableCpuM - (needOf s).cpuM, alloc.allocatableMemMi - (needOf s).memMi)}

/-- The report lists the full nodes and nothing else, lists one if there is a place for a runner,
bounds what they leave unused, and agrees with the division for each type. -/
structure CoversFullNodes (runners : List Runner) (alloc : Allocatable) : Prop where
  sound : ∀ combo ∈ findMaximalCombos (findValidCombos runners alloc) alloc runners,
    ∃ c : List Runner, Full (FitsOn alloc) runners c ∧ combo = comboOf alloc c
  complete : ∀ s, Full (FitsOn alloc) runners s → ∃ c : List Runner, (c : Multiset Runner) = s ∧
    comboOf alloc c ∈ findMaximalCombos (findValidCombos runners alloc) alloc runners
  nonempty : (∃ r ∈ runners, (perRunnerTotal r).FitsIn alloc) →
    findMaximalCombos (findValidCombos runners alloc) alloc runners ≠ []
  slack_none : computeNodeSlack alloc runners false = none →
    ∀ s, ¬ Full (FitsOn alloc) runners s
  slack_some : ∀ slack, computeNodeSlack alloc runners false = some slack →
    slack.Bounds (wastes runners alloc)
  agrees : ∀ r ∈ runners, computeNodeSlack alloc [r] true = computeNodeSlack alloc [r] false

/-- No more runners fit on the node than are enumerated. -/
def WithinCount (runners : List Runner) (alloc : Allocatable) : Prop :=
  ∀ s : Multiset Runner, (∀ r ∈ s, r ∈ runners) → FitsOn alloc s →
    Multiset.card s ≤ maxCount alloc

/-- A runner that has no place, in whatever number, is seen to have none. -/
def SeenToHaveNoPlace (alloc : Allocatable) (runner : Runner) : Prop :=
  (∀ n : ℕ, 1 ≤ n → ¬ FitsOn alloc (Multiset.replicate n runner)) →
    HasTooLittle alloc (perRunnerTotal runner)

theorem computeNodeSlack_false (hlength : runners.length ≤ 8) :
    computeNodeSlack alloc runners false =
      boundsOf ((findMaximalCombos (findValidCombos runners alloc) alloc runners).map fun combo =>
        (combo.waste.cpuM, combo.waste.memMi)) := by
  have hnot : ¬ (false = true ∨ 8 < runners.length) := by simpa using hlength
  rw [computeNodeSlack, if_neg hnot]

/-- Full nodes of one type of runner are copies of it. -/
theorem exists_replicate_of_full (hfull : Full (FitsOn alloc) [runner] s) :
    ∃ n : ℕ, 1 ≤ n ∧ s = Multiset.replicate n runner ∧
      ¬ FitsOn alloc (Multiset.replicate (n + 1) runner) := by
  have hs : s = Multiset.replicate (Multiset.card s) runner :=
    Multiset.eq_replicate_card.mpr fun r hr => List.mem_singleton.mp (hfull.mem_types r hr)
  refine ⟨Multiset.card s, Multiset.card_pos.mpr hfull.ne_zero, hs, ?_⟩
  rw [Multiset.replicate_succ, ← hs]
  exact hfull.no_more runner List.mem_cons_self

theorem maxCount_le (alloc : Allocatable) : maxCount alloc ≤ 20 := min_le_left _ _

/-- What is left when a node is filled with copies of one runner. -/
def wasteOf (alloc : Allocatable) (runner : Runner) (n : ℤ) : ℤ × ℤ :=
  (alloc.allocatableCpuM - n * (perRunnerTotal runner).cpuM,
    alloc.allocatableMemMi - n * (perRunnerTotal runner).memMi)

theorem computeNodeSlack_true (alloc : Allocatable) (runner : Runner) :
    computeNodeSlack alloc [runner] true =
      if homogeneousPods alloc runner = 0 then none
      else boundsOf [wasteOf alloc runner (homogeneousPods alloc runner)] := by
  rw [computeNodeSlack, if_pos (Or.inl rfl)]
  by_cases hpods : homogeneousPods alloc runner = 0
  · simp [hpods, boundsOf]
  · simp [hpods, wasteOf]

/-- The full nodes of one type that are enumerated have the number of pods of the division. -/
theorem waste_of_mem_singleton {combo : Combo}
    (hcombo : combo ∈ findMaximalCombos (findValidCombos [runner] alloc) alloc [runner]) :
    1 ≤ homogeneousPods alloc runner ∧
      (combo.waste.cpuM, combo.waste.memMi) =
        wasteOf alloc runner (homogeneousPods alloc runner) := by
  obtain ⟨c, rfl, hfull, i, hi, hc⟩ := mem_findMaximalCombos.mp hcombo
  obtain ⟨n, hn, hreplicate, hmore⟩ := exists_replicate_of_full hfull
  have hlength : n = i + 1 := by
    have hcard := congrArg Multiset.card hreplicate
    rw [Multiset.coe_card, Multiset.card_replicate, (of_mem_combinationsWithReplacement hc).1]
      at hcard
    exact hcard.symm
  have hle := maxCount_le alloc
  have hpods := homogeneousPods_eq (by omega) (hreplicate ▸ hfull.fits) hmore
  obtain ⟨hcpu, hmem, -⟩ := needOf_replicate n runner
  rw [hpods]
  refine ⟨by omega, ?_⟩
  simp only [comboOf, wasteOf, comboTotal_eq_needOf, hreplicate, hcpu, hmem]

/-- The two computations agree on a type of runner of which no more fit than are enumerated, if its
having no place is seen. -/
theorem computeNodeSlack_singleton (hcpu : 0 < (perRunnerTotal runner).cpuM)
    (hcount : WithinCount [runner] alloc) :
    computeNodeSlack alloc [runner] true = computeNodeSlack alloc [runner] false ↔
      SeenToHaveNoPlace alloc runner := by
  rw [computeNodeSlack_true, computeNodeSlack_false (by simp)]
  by_cases hplace : ∃ n : ℕ, 1 ≤ n ∧ FitsOn alloc (Multiset.replicate n runner)
  · obtain ⟨n, hn, hfits⟩ := hplace
    refine iff_of_true ?_ fun hnone => absurd hfits (hnone n hn)
    obtain ⟨t, -, hfull⟩ := exists_full_of_fits hcount
      (Multiset.card_pos.mp (by rwa [Multiset.card_replicate]))
      (fun r hr => List.mem_singleton.mpr (Multiset.eq_of_mem_replicate hr)) hfits
    obtain ⟨c, -, hc⟩ := exists_mem_findMaximalCombos hfull
      (hcount t hfull.mem_types hfull.fits)
    have hpods := (waste_of_mem_singleton hc).1
    rw [if_neg (by omega)]
    refine (boundsOf_of_forall_eq (List.ne_nil_of_mem (List.mem_map_of_mem hc)) ?_).symm
    simp only [List.forall_mem_map]
    exact fun combo hcombo => (waste_of_mem_singleton hcombo).2
  · have hnone : ∀ n : ℕ, 1 ≤ n → ¬ FitsOn alloc (Multiset.replicate n runner) :=
      fun n hn hfits => hplace ⟨n, hn, hfits⟩
    have hnil : findMaximalCombos (findValidCombos [runner] alloc) alloc [runner] = [] := by
      rw [List.eq_nil_iff_forall_not_mem]
      intro combo hcombo
      obtain ⟨c, -, hfull, -⟩ := mem_findMaximalCombos.mp hcombo
      obtain ⟨n, hn, hreplicate, -⟩ := exists_replicate_of_full hfull
      exact hnone n hn (hreplicate ▸ hfull.fits)
    have hseen : SeenToHaveNoPlace alloc runner ↔ homogeneousPods alloc runner = 0 := by
      rw [SeenToHaveNoPlace, ← homogeneousPods_eq_zero_iff hcpu]
      exact ⟨fun h => h hnone, fun h _ => h⟩
    rw [hnil, hseen]
    split
    case isTrue hpods => simp [hpods, boundsOf]
    case isFalse hpods => simp [hpods, boundsOf]

/-- The report covers the full nodes just if no more runners fit on the node than are enumerated,
and the division sees which types of runners have no place. -/
theorem coversFullNodes_iff (hlength : runners.length ≤ 8)
    (hcpu : ∀ r ∈ runners, 0 < (perRunnerTotal r).cpuM) :
    CoversFullNodes runners alloc ↔
      WithinCount runners alloc ∧ ∀ r ∈ runners, SeenToHaveNoPlace alloc r := by
  have hsingle : WithinCount runners alloc → ∀ r ∈ runners, WithinCount [r] alloc :=
    fun hcount r hr s hs => hcount s fun r' hr' => List.mem_singleton.mp (hs r' hr') ▸ hr
  constructor
  · intro h
    have hcount : WithinCount runners alloc := by
      intro s hs hfits
      by_contra hmore
      have hne : s ≠ 0 := Multiset.card_pos.mp (by omega)
      obtain ⟨t, hle, hfull⟩ := exists_full_of_fits
        (fun t ht hfits => card_le_of_fitsOn (fun r hr => hcpu r (ht r hr)) hfits) hne hs hfits
      obtain ⟨c, hct, hc⟩ := h.complete t hfull
      obtain ⟨c', hcombo, -, i, hi, hc'⟩ := mem_findMaximalCombos.mp hc
      have hlength' : c.length = c'.length := congrArg Combo.count hcombo
      rw [(of_mem_combinationsWithReplacement hc').1] at hlength'
      have hcard := Multiset.card_le_card hle
      rw [← hct, Multiset.coe_card] at hcard
      omega
    exact ⟨hcount, fun r hr =>
      (computeNodeSlack_singleton (hcpu r hr) (hsingle hcount r hr)).mp (h.agrees r hr)⟩
  · rintro ⟨hcount, hseen⟩
    have hcomplete : ∀ s, Full (FitsOn alloc) runners s → ∃ c : List Runner,
        (c : Multiset Runner) = s ∧
          comboOf alloc c ∈ findMaximalCombos (findValidCombos runners alloc) alloc runners :=
      fun s hfull => exists_mem_findMaximalCombos hfull (hcount s hfull.mem_types hfull.fits)
    have hwastes : {p | p ∈ (findMaximalCombos (findValidCombos runners alloc) alloc runners).map
        fun combo => (combo.waste.cpuM, combo.waste.memMi)} = wastes runners alloc := by
      ext p
      simp only [Set.mem_ofPred_eq, List.mem_map, wastes]
      constructor
      · rintro ⟨combo, hcombo, rfl⟩
        obtain ⟨c, rfl, hfull, -⟩ := mem_findMaximalCombos.mp hcombo
        exact ⟨c, hfull, by simp [comboOf, comboTotal_eq_needOf]⟩
      · rintro ⟨s, hfull, rfl⟩
        obtain ⟨c, rfl, hc⟩ := hcomplete s hfull
        exact ⟨_, hc, by simp [comboOf, comboTotal_eq_needOf]⟩
    refine ⟨fun combo hcombo => ?_, hcomplete, ?_, ?_, ?_, fun r hr =>
      (computeNodeSlack_singleton (hcpu r hr) (hsingle hcount r hr)).mpr (hseen r hr)⟩
    · obtain ⟨c, hc, hfull, -⟩ := mem_findMaximalCombos.mp hcombo
      exact ⟨c, hfull, hc⟩
    · rintro ⟨r, hr, hfits⟩
      have hfits' : FitsOn alloc {r} := by
        rw [FitsOn, needOf, Multiset.map_singleton, Multiset.sum_singleton]
        exact hfits
      obtain ⟨t, -, hfull⟩ := exists_full_of_fits hcount (Multiset.singleton_ne_zero r)
        (fun r' hr' => Multiset.mem_singleton.mp hr' ▸ hr) hfits'
      obtain ⟨c, -, hc⟩ := hcomplete t hfull
      exact List.ne_nil_of_mem hc
    · intro hnone s hfull
      obtain ⟨c, -, hc⟩ := hcomplete s hfull
      rw [computeNodeSlack_false hlength, boundsOf_eq_none, List.map_eq_nil_iff] at hnone
      rw [hnone] at hc
      exact List.not_mem_nil hc
    · intro slack hslack
      rw [computeNodeSlack_false hlength] at hslack
      exact hwastes ▸ bounds_of_boundsOf hslack

/-! ### Two nodes -/

/-- A runner with two CPUs. -/
def smallRunner : Runner := ⟨"l-x86iavx512-2-4", "c7i.24xlarge", 2, 4096, 0⟩

/-- A runner with sixteen CPUs. -/
def largeRunner : Runner := ⟨"l-x86iavx512-16-32", "c7i.24xlarge", 16, 32768, 0⟩

/-- The node of the two runners. -/
def largeNode : Allocatable := ⟨95690, 173400, 0⟩

theorem coversFullNodes_largeRunner : CoversFullNodes [largeRunner] largeNode := by
  refine (coversFullNodes_iff (by simp) (by decide)).mpr
    ⟨fun s hs hfits => ?_, fun r hr hnone => ?_⟩
  · have hs' : s = Multiset.replicate (Multiset.card s) largeRunner :=
      Multiset.eq_replicate_card.mpr fun r hr => List.mem_singleton.mp (hs r hr)
    have hcpu : (Multiset.card s : ℤ) * 16320 ≤ 95690 := by
      rw [hs', fitsOn_replicate] at hfits
      exact hfits.1
    have hcount : maxCount largeNode = 20 := by decide
    omega
  · rw [List.mem_singleton] at hr
    subst hr
    exact absurd (fitsOn_replicate.mpr (by decide)) (hnone 1 le_rfl)

/-- The small runner fits, and the report finds no way to fill the node. -/
theorem not_coversFullNodes_smallRunner :
    computeAllocatable "c7i.24xlarge" [] = some largeNode ∧
      ¬ CoversFullNodes [smallRunner] largeNode := by
  refine ⟨by decide +kernel, fun h => h.nonempty ⟨smallRunner, by simp, by decide⟩ ?_⟩
  decide +kernel

end CiInfra.Capacity

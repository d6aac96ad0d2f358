import CiInfra.GpuDev.PoolPass
import Mathlib.Algebra.Order.Ring.Rat

/-!
# Whether the warm pool converges

A reconciled pool has as many standby pods of each type as configured, none of a type that is not
configured, and reconciling it again changes nothing. The pass takes whatever is listed for a
standby pod, and terminating pods are listed until they are gone.
-/

namespace CiInfra.GpuDev

open Interaction Fallible Program
open Kube (Dict)

/-- The labels of a standby pod of a type that is not configured. -/
def isStray (cfg : Settings) (labels : Dict) : Bool :=
  labels "app" == some "gpu-dev-warm" && !(labels "warm-state" == some "claimed") &&
    !(labels "warm-gpu-type").any fun t => (cfg.warmPoolTargets.lookup t).isSome

namespace World

/-- The standby pods of types that are not configured. -/
def strays (w : World) (cfg : Settings) : List NamedPod :=
  w.namedPods.filter fun p => isStray cfg p.2.labels

theorem warmPods_eq (w : World) (gpuType : String) :
    w.warmPods (some gpuType) none = w.namedPods.filter fun p => isOfKind gpuType p.2.labels :=
  List.filter_congr fun p _ => by simp [Pod.matchesWarm, isOfKind]

theorem filter_warmPods_strays (w : World) (cfg : Settings) :
    ((w.warmPods none none).filter fun p => isStray cfg p.2.labels) = w.strays cfg := by
  rw [warmPods, List.filter_filter]
  refine List.filter_congr fun p _ => ?_
  cases happ : p.2.labels "app" == some "gpu-dev-warm" <;> simp [isStray, Pod.matchesWarm, happ]

end World

section Runs

variable {rd : Readings} {cfg : Settings} {w w' : World}

/-! ### A run -/

theorem reaches_recycleUntargetedAll (new : String → Pod) {ps : List NamedPod}
    (hwarm : ∀ p ∈ ps, p.2.labels "app" = some "gpu-dev-warm")
    (hps : ∀ p ∈ ps, isStray cfg p.2.labels = true → w.holds (isStray cfg) p.1) :
    Reaches rd (ps.forM (recycleUntargeted cfg)) w fun t _ w' => Turns (isStray cfg) new
      ((ps.filter fun p => isStray cfg p.2.labels).map Prod.fst) [] w t w' := by
  induction ps generalizing w with
  | nil => exact achieves_pure (.refl w)
  | cons p ps ih =>
    obtain ⟨happ, hwarm⟩ := List.forall_mem_cons.mp hwarm
    obtain ⟨hp, hps⟩ := List.forall_mem_cons.mp hps
    have hcondition : (!p.2.isClaimed && !(p.2.labels "warm-gpu-type").any fun t =>
        (cfg.warmPoolTargets.lookup t).isSome) = isStray cfg p.2.labels := by
      simp [isStray, Pod.isClaimed, happ]
    refine Achieves.bind (Q := fun t _ w' => Turns (isStray cfg) new
      (([p].filter fun p => isStray cfg p.2.labels).map Prod.fst) [] w t w') ?_
      fun t₁ _ w₁ h₁ => (ih hwarm fun q hq hstray => h₁.holds (hps q hq hstray)).mono
        fun t₂ _ w₂ h₂ => ?_
    · unfold recycleUntargeted
      rw [hcondition]
      refine Achieves.whenever (fun hstray => ?_) fun hnot => ?_
      · simpa [hstray] using reaches_recycle new (hp hstray)
      · simpa [hnot] using Turns.refl w
    · have h := h₁.andThen h₂
      rwa [← List.map_append, ← List.filter_append] at h

/-- What a run has done to the pods of one type. -/
structure RelistsType (rd : Readings) (cfg : Settings) (gpuType : String) (target : ℕ)
    (created : List String) (w w' : World) : Prop where
  count : created.length =
    target - (rd.keptOf cfg target (w.warmPods (some gpuType) none)).length
  young : ∀ name ∈ created, rd.age name = 0
  alters : ∃ w₁ w₂, w₁.warmPods (some gpuType) none = w.warmPods (some gpuType) none ∧
    w₂.warmPods (some gpuType) none = w'.warmPods (some gpuType) none ∧
    Alters (isOfKind gpuType) (newWarmPod gpuType)
      ((rd.deletedOf cfg target (w.warmPods (some gpuType) none)).map Prod.fst) created w₁ w₂

/-- A pod is of one type. -/
theorem isOfKind_of_ne {gpuType other : String} (hne : gpuType ≠ other) {labels : Dict}
    (h : isOfKind gpuType labels = true) : isOfKind other labels = false := by
  simp only [isOfKind, Bool.and_eq_true, beq_iff_eq] at h
  simp [isOfKind, h.2, hne]

/-- What the passes over the configured types do. -/
theorem reaches_passes {targets : List (String × ℕ)} (hkeys : (targets.map Prod.fst).Nodup) :
    Reaches rd (targets.forM fun (gpuType, target) =>
        logged (reconcileType cfg rd.currentImage gpuType target)) w fun t _ w' =>
      ∃ created : String → List String,
        deletedIn t = targets.flatMap (fun g =>
          (rd.deletedOf cfg g.2 (w.warmPods (some g.1) none)).map Prod.fst) ∧
        createdIn t = targets.flatMap (fun g => created g.1) ∧
        (∀ g ∈ targets, RelistsType rd cfg g.1 g.2 (created g.1) w w') ∧
        ∀ f : NamedPod → Bool,
          (∀ p, f p = true → ∀ g ∈ targets, isOfKind g.1 p.2.labels = false) →
          w'.namedPods.filter f = w.namedPods.filter f := by
  induction targets generalizing w with
  | nil => exact achieves_pure ⟨fun _ => [], rfl, rfl, by simp, fun _ _ => rfl⟩
  | cons g targets ih =>
    obtain ⟨hfirst, hkeys⟩ := List.nodup_cons.mp hkeys
    have hne : ∀ g' ∈ targets, g'.1 ≠ g.1 := fun g' hg' hsame =>
      hfirst (hsame ▸ List.mem_map_of_mem hg')
    refine (reaches_reconcileType g.1 g.2).logged.bind fun t₁ _ w₁ h₁ =>
      (ih hkeys).mono fun t₂ _ w₂ h₂ => ?_
    obtain ⟨c, hcount, hyoung, hturns⟩ := h₁
    obtain ⟨created, hdeleted, hcreated, htypes, hframe⟩ := h₂
    -- the first pass leaves the other types as they are, and the later passes the first type
    have hbefore : ∀ g' ∈ targets,
        w₁.warmPods (some g'.1) none = w.warmPods (some g'.1) none := fun g' hg' => by
      rw [World.warmPods_eq, World.warmPods_eq]
      exact hturns.alters.listed fun p hp => isOfKind_of_ne (hne g' hg') hp
    have hafter : w₂.warmPods (some g.1) none = w₁.warmPods (some g.1) none := by
      rw [World.warmPods_eq, World.warmPods_eq]
      exact hframe _ fun p hp g' hg' => isOfKind_of_ne (Ne.symm (hne g' hg')) hp
    refine ⟨Function.update created g.1 c, ?_, ?_, ?_, ?_⟩
    · rw [deletedIn_append, hturns.deleted, hdeleted, List.flatMap_cons]
      congr 1
      exact List.flatMap_congr fun g' hg' => by rw [hbefore g' hg']
    · rw [createdIn_append, hturns.created, hcreated, List.flatMap_cons, Function.update_self]
      congr 1
      exact List.flatMap_congr fun g' hg' => by rw [Function.update_of_ne (hne g' hg')]
    · refine List.forall_mem_cons.mpr ⟨?_, fun g' hg' => ?_⟩
      · rw [Function.update_self]
        exact ⟨hcount, hyoung, w, w₁, rfl, hafter.symm, hturns.alters⟩
      · obtain ⟨hcount', hyoung', v₁, v₂, hv₁, hv₂, halters⟩ := htypes g' hg'
        rw [Function.update_of_ne (hne g' hg')]
        rw [hbefore g' hg'] at hcount' hv₁ halters
        exact ⟨hcount', hyoung', v₁, v₂, hv₁, hv₂, halters⟩
    · intro f hf
      rw [hframe f fun p hp g' hg' => hf p hp g' (List.mem_cons_of_mem g hg')]
      exact hturns.alters.listed fun p hp => hf p hp g List.mem_cons_self

/-- What a run of `reconcile_warm_pool` does. -/
structure Reconciles (rd : Readings) (cfg : Settings) (names : String → List String) (w : World)
    (t : List Exchange) (w' : World) : Prop where
  deleted : deletedIn t = cfg.warmPoolTargets.flatMap (fun g =>
    (rd.deletedOf cfg g.2 (w.warmPods (some g.1) none)).map Prod.fst) ++
      (w.strays cfg).map Prod.fst
  created : createdIn t = cfg.warmPoolTargets.flatMap fun g => names g.1
  types : ∀ g ∈ cfg.warmPoolTargets, RelistsType rd cfg g.1 g.2 (names g.1) w w'
  strays : ∀ p ∈ w'.strays cfg, p.2.deletionRequested = true

/-- A stray is of no configured type. -/
theorem isOfKind_of_isStray {labels : Dict} (h : isStray cfg labels = true) {g : String × ℕ}
    (hg : g ∈ cfg.warmPoolTargets) : isOfKind g.1 labels = false := by
  rw [Bool.eq_false_iff]
  intro hkind
  simp only [isOfKind, Bool.and_eq_true, beq_iff_eq] at hkind
  simp only [isStray, hkind.2, Option.any_some, Bool.and_eq_true, Bool.not_eq_true',
    Option.isSome_eq_false_iff, Option.isNone_iff_eq_none, List.lookup_eq_none_iff] at h
  simpa using h.2 g hg

/-- What is terminated is terminating. -/
theorem Alters.terminating_of_mem {m : Dict → Bool} {new : String → Pod} {d : List String}
    (h : Alters m new d [] w w') (hd : ∀ n q, w.pods.lookup n = some q → m q.labels = true → n ∈ d)
    {p : NamedPod} (hp : p ∈ w'.namedPods) (hm : m p.2.labels = true) :
    p.2.deletionRequested = true := by
  have hrest := h.rest p.1 List.not_mem_nil
  rw [World.barePod, World.mem_namedPods.mp hp, World.barePod, Option.map_some] at hrest
  obtain ⟨b, hb, hbare⟩ := Option.map_eq_some_iff.mp hrest.symm
  obtain ⟨q, hq, rfl⟩ := Option.map_eq_some_iff.mp hb
  have hlabels : p.2.labels = q.labels :=
    (congrArg Pod.labels hbare).symm.trans (Pod.labels_after d p.1 q.bare)
  have hdeleted := congrArg Pod.deletionRequested hbare
  rw [Pod.deletionRequested_after, decide_eq_true (hd p.1 q hq (hlabels ▸ hm)), Bool.true_or]
    at hdeleted
  exact hdeleted.symm

theorem reaches_reconcileWarmPool (hkeys : (cfg.warmPoolTargets.map Prod.fst).Nodup) :
    Reaches rd (reconcileWarmPool cfg) w fun t _ w' =>
      ∃ names, Reconciles rd cfg names w t w' := by
  refine Achieves.bind (Q := fun t desired w' => desired = rd.currentImage ∧ Idles w t w') ?_
    fun t₀ desired w₀ h₀ => ?_
  · refine Achieves.orElseGive (reaches_quiet rfl fun res _ hshows => ?_) ""
    exact ⟨rd.currentImage, hshows, rfl⟩
  obtain ⟨rfl, h₀⟩ := h₀
  obtain rfl : w₀ = w := h₀.same
  refine (reaches_passes hkeys).bind fun t₁ _ w₁ h₁ => Achieves.logged ?_
  obtain ⟨names, hdeleted, hcreated, htypes, hframe⟩ := h₁
  refine (reaches_listWarmPods none).bind fun t₂ pods w₂ h₂ => ?_
  obtain ⟨rfl, h₂⟩ := h₂
  obtain rfl : w₂ = w₁ := h₂.same
  have hstrays : w₂.strays cfg = w₀.strays cfg :=
    hframe _ fun p hp g hg => isOfKind_of_isStray hp hg
  refine (reaches_recycleUntargetedAll (newWarmPod "") (fun p hp => ?_) fun p hp hstray => ?_).mono
    fun t₃ _ w₃ h₃ => ?_
  · simpa [Pod.matchesWarm] using (List.mem_filter.mp hp).2
  · exact ⟨p.2, World.mem_namedPods.mp (List.mem_filter.mp hp).1, hstray⟩
  rw [World.filter_warmPods_strays, hstrays] at h₃
  refine ⟨names, ?_, ?_, fun g hg => ?_, fun p hp => ?_⟩
  · rw [deletedIn_append, deletedIn_append, deletedIn_append, h₀.deleted, hdeleted, h₂.deleted,
      h₃.deleted]
    rfl
  · rw [createdIn_append, createdIn_append, createdIn_append, h₀.created, hcreated, h₂.created,
      h₃.created, List.nil_append, List.append_nil, List.append_nil]
  · obtain ⟨hcount, hyoung, v₁, v₂, hv₁, hv₂, halters⟩ := htypes g hg
    refine ⟨hcount, hyoung, v₁, v₂, hv₁, hv₂.trans ?_, halters⟩
    rw [World.warmPods_eq, World.warmPods_eq]
    refine (h₃.alters.listed fun p hp => ?_).symm
    rw [Bool.eq_false_iff]
    intro hstray
    rw [isOfKind_of_isStray hstray hg] at hp
    cases hp
  · obtain ⟨hmem, hstray⟩ := List.mem_filter.mp hp
    refine h₃.alters.terminating_of_mem (fun n q hq hm => ?_) hmem hstray
    have hlisted : (n, q) ∈ w₂.strays cfg :=
      List.mem_filter.mpr ⟨(World.mem_namedPods (p := (n, q))).mpr hq, hm⟩
    exact hstrays ▸ List.mem_map_of_mem hlisted

/-! ### The pods of a type after a run -/

/-- The pod stands by: it is not claimed, not terminating and not finished. -/
def Pod.isStanding (p : Pod) : Bool :=
  !p.isClaimed && !p.deletionRequested && !(p.phase == "Failed" || p.phase == "Succeeded")

/-- The pods of a type that stand by. -/
def World.standby (w : World) (gpuType : String) : List NamedPod :=
  (w.warmPods (some gpuType) none).filter fun p => p.2.isStanding

theorem World.nodup_names (w : World) : (w.namedPods.map Prod.fst).Nodup := by
  have hkeys : w.namedPods.map Prod.fst = w.pods.keys := by
    rw [World.namedPods, List.map_map]
    rfl
  rw [hkeys]
  exact w.pods.keys_nodup

theorem World.nodup_names_filter (w : World) (f : NamedPod → Bool) :
    ((w.namedPods.filter f).map Prod.fst).Nodup :=
  w.nodup_names.sublist (List.filter_sublist.map _)

/-- A list is what is found first and what is left without it. -/
theorem perm_find?_eraseP {α : Type} (f : α → Bool) (l : List α) :
    l.Perm ((l.find? f).toList ++ l.eraseP f) := by
  induction l with
  | nil => rfl
  | cons a l ih =>
    cases ha : f a with
    | true => simp [ha]
    | false =>
      rw [List.find?_cons_of_neg (by simp [ha]), List.eraseP_cons_of_neg (by simp [ha])]
      exact (ih.cons a).trans List.perm_middle.symm

/-- The unclaimed pods are those that a pass deletes and those that it keeps. -/
theorem perm_deletedOf_keptOf (rd : Readings) (cfg : Settings) (target : ℕ) (pods : List NamedPod) :
    (pods.filter fun p => !p.2.isClaimed).Perm
      (rd.deletedOf cfg target pods ++ rd.keptOf cfg target pods) := by
  have hspent : (pods.filter fun p => !p.2.isClaimed).Perm
      (rd.spentOf cfg pods ++ rd.liveOf cfg pods) := by
    have h := List.filter_append_perm (fun p => rd.isSpent cfg p)
      (pods.filter fun p => !p.2.isClaimed)
    simp only [List.filter_filter] at h
    refine h.symm.trans (List.Perm.of_eq ?_)
    congr 1 <;> exact List.filter_congr fun p _ => by rw [Bool.and_comm]
  have htarget : (rd.liveOf cfg pods).Perm
      ((rd.liveOf cfg pods).drop target ++ (rd.liveOf cfg pods).take target) := by
    conv_lhs => rw [← List.take_append_drop target (rd.liveOf cfg pods)]
    exact List.perm_append_comm
  have houtdated := htarget.trans ((perm_find?_eraseP rd.isOutdated _).append_left _)
  refine hspent.trans ((houtdated.append_left _).trans (List.Perm.of_eq ?_))
  simp [Readings.deletedOf, Readings.keptOf, List.append_assoc]

theorem World.mem_warmPods_iff {gpuType : String} {p : NamedPod} :
    p ∈ w.warmPods (some gpuType) none ↔
      w.pods.lookup p.1 = some p.2 ∧ isOfKind gpuType p.2.labels = true := by
  rw [World.warmPods_eq, List.mem_filter, World.mem_namedPods]

/-- Standing by does not depend on annotations. -/
theorem Pod.isStanding_bare (p : Pod) : p.bare.isStanding = p.isStanding := rfl

theorem World.mem_standbyNames {gpuType n : String} :
    n ∈ (w.standby gpuType).map Prod.fst ↔
      ∃ q, (n, q) ∈ w.warmPods (some gpuType) none ∧ q.isStanding = true := by
  simp [World.standby]

theorem isStanding_newWarmPod (gpuType name : String) :
    (newWarmPod gpuType name).isStanding = true := by
  simp [Pod.isStanding, Pod.isClaimed, newWarmPod, dictOf, List.lookup_cons]

/-- What a pass keeps of the listed pods is neither terminating nor too old, and neither is what it
creates. -/
structure KeepsSound (rd : Readings) (cfg : Settings) (target : ℕ) (pods : List NamedPod) :
    Prop where
  standing : ∀ p ∈ rd.keptOf cfg target pods, p.2.deletionRequested = false
  young : ∀ p ∈ rd.keptOf cfg target pods, rd.age p.1 ≤ cfg.warmPodMaxAgeHours * 3600
  created : (rd.keptOf cfg target pods).length < target → 0 ≤ cfg.warmPodMaxAgeHours

namespace RelistsType

variable {gpuType : String} {target : ℕ} {c : List String}

/-- The names of the pods of the type that a run deletes. -/
abbrev deletedNames (rd : Readings) (cfg : Settings) (gpuType : String) (target : ℕ) (w : World) :
    List String := (rd.deletedOf cfg target (w.warmPods (some gpuType) none)).map Prod.fst

/-- A pod that is listed after the run has been created by it, or was listed before. -/
theorem cases (h : RelistsType rd cfg gpuType target c w w') {p : NamedPod}
    (hp : p ∈ w'.warmPods (some gpuType) none) :
    (p.1 ∈ c ∧ p.2.bare = newWarmPod gpuType p.1) ∨
      p.1 ∉ c ∧ ∃ q, (p.1, q) ∈ w.warmPods (some gpuType) none ∧
        p.2.bare = q.bare.after (deletedNames rd cfg gpuType target w) p.1 := by
  obtain ⟨w₁, w₂, hbefore, hafter, halters⟩ := h.alters
  rw [← hafter, World.mem_warmPods_iff] at hp
  obtain ⟨hlookup, hkind⟩ := hp
  by_cases hc : p.1 ∈ c
  · have hnew := (halters.fresh p.1 hc).2
    rw [World.barePod, hlookup, Option.map_some] at hnew
    exact Or.inl ⟨hc, Option.some.inj hnew⟩
  · have hrest := halters.rest p.1 hc
    rw [World.barePod, hlookup, World.barePod, Option.map_some] at hrest
    obtain ⟨b, hb, hbare⟩ := Option.map_eq_some_iff.mp hrest.symm
    obtain ⟨q, hq, rfl⟩ := Option.map_eq_some_iff.mp hb
    have hlabels : p.2.labels = q.labels :=
      (congrArg Pod.labels hbare).symm.trans (Pod.labels_after _ p.1 q.bare)
    refine Or.inr ⟨hc, q, ?_, hbare.symm⟩
    rw [← hbefore, World.mem_warmPods_iff]
    exact ⟨hq, hlabels ▸ hkind⟩

/-- A created pod is listed after the run, and was not before. -/
theorem created (h : RelistsType rd cfg gpuType target c w w') {n : String} (hn : n ∈ c) :
    (∃ q, (n, q) ∈ w'.warmPods (some gpuType) none ∧ q.bare = newWarmPod gpuType n) ∧
      ∀ q, (n, q) ∉ w.warmPods (some gpuType) none := by
  obtain ⟨w₁, w₂, hbefore, hafter, halters⟩ := h.alters
  obtain ⟨hmissing, hnew⟩ := halters.fresh n hn
  obtain ⟨q, hq, hbare⟩ := Option.map_eq_some_iff.mp hnew
  refine ⟨⟨q, ?_, hbare⟩, fun q' hq' => ?_⟩
  · rw [← hafter, World.mem_warmPods_iff]
    refine ⟨hq, ?_⟩
    change isOfKind gpuType q.bare.labels = true
    rw [hbare]
    exact isOfKind_newWarmPod gpuType n
  · rw [← hbefore, World.mem_warmPods_iff] at hq'
    exact absurd (hmissing.symm.trans hq'.1) (by simp)

/-- A pod that was listed before the run still is. -/
theorem listed (h : RelistsType rd cfg gpuType target c w w') {n : String} {p : Pod}
    (hp : (n, p) ∈ w.warmPods (some gpuType) none) :
    ∃ q, (n, q) ∈ w'.warmPods (some gpuType) none ∧
      q.bare = p.bare.after (deletedNames rd cfg gpuType target w) n := by
  have hc : n ∉ c := fun hc => (h.created hc).2 p hp
  obtain ⟨w₁, w₂, hbefore, hafter, halters⟩ := h.alters
  rw [← hbefore, World.mem_warmPods_iff] at hp
  have hrest := halters.rest n hc
  simp only [World.barePod] at hrest
  rw [hp.1, Option.map_some, Option.map_some] at hrest
  obtain ⟨q, hq, hbare⟩ := Option.map_eq_some_iff.mp hrest
  refine ⟨q, ?_, hbare⟩
  rw [← hafter, World.mem_warmPods_iff]
  have hlabels : q.labels = p.labels :=
    (congrArg Pod.labels hbare).trans (Pod.labels_after _ n p.bare)
  exact ⟨hq, hlabels ▸ hp.2⟩

/-- An unclaimed pod is deleted by the run exactly if it is not kept. -/
theorem mem_deletedNames_iff {n : String} {p : Pod}
    (hp : (n, p) ∈ w.warmPods (some gpuType) none) (hclaimed : p.isClaimed = false) :
    n ∈ deletedNames rd cfg gpuType target w ↔
      (n, p) ∉ rd.keptOf cfg target (w.warmPods (some gpuType) none) := by
  have hperm := perm_deletedOf_keptOf rd cfg target (w.warmPods (some gpuType) none)
  have hnodup : ((rd.deletedOf cfg target (w.warmPods (some gpuType) none) ++
      rd.keptOf cfg target (w.warmPods (some gpuType) none)).map Prod.fst).Nodup := by
    refine (hperm.map Prod.fst).nodup_iff.mp ?_
    rw [World.warmPods, List.filter_filter]
    exact w.nodup_names_filter _
  rw [List.map_append, List.nodup_append] at hnodup
  constructor
  · intro hdeleted hkept
    exact hnodup.2.2 n hdeleted n (List.mem_map_of_mem (f := Prod.fst) hkept) rfl
  · intro hkept
    have hmem : (n, p) ∈ (w.warmPods (some gpuType) none).filter fun p => !p.2.isClaimed :=
      List.mem_filter.mpr ⟨hp, by simp [hclaimed]⟩
    rcases List.mem_append.mp (hperm.mem_iff.mp hmem) with hdeleted | h
    · exact List.mem_map_of_mem (f := Prod.fst) hdeleted
    · exact absurd h hkept

/-- A kept pod is listed, is not claimed and is not spent. -/
theorem of_mem_keptOf {p : NamedPod} {pods : List NamedPod} (hp : p ∈ rd.keptOf cfg target pods) :
    p ∈ pods ∧ p.2.isClaimed = false ∧ rd.isSpent cfg p = false := by
  have hlive := List.mem_of_mem_take (List.mem_of_mem_eraseP hp)
  simpa [Readings.liveOf] using hlive

/-- A pod that is not spent stands by, unless it is terminating. -/
theorem isStanding_of_not_isSpent {p : NamedPod} (hclaimed : p.2.isClaimed = false)
    (hspent : rd.isSpent cfg p = false) : p.2.isStanding = !p.2.deletionRequested := by
  simp only [Readings.isSpent, Bool.or_eq_false_iff] at hspent
  simp [Pod.isStanding, hclaimed, hspent.1.1, hspent.1.2]

/-- The pods that stand by after a run are those that it has created, and those that it has kept
and that were not terminating. -/
theorem standby_perm (h : RelistsType rd cfg gpuType target c w w') :
    ((w'.standby gpuType).map Prod.fst).Perm (c ++
      ((rd.keptOf cfg target (w.warmPods (some gpuType) none)).filter fun p =>
        !p.2.deletionRequested).map Prod.fst) := by
  have hkeptNames : (((rd.keptOf cfg target (w.warmPods (some gpuType) none)).filter fun p =>
      !p.2.deletionRequested).map Prod.fst).Nodup := by
    refine (w.nodup_names_filter _).sublist (List.Sublist.map _ (List.filter_sublist.trans
      (List.eraseP_sublist.trans ((List.take_sublist _ _).trans List.filter_sublist))))
  refine (List.perm_ext_iff_of_nodup ?_ ?_).mpr fun n => ?_
  · rw [World.standby, World.warmPods, List.filter_filter]
    exact w'.nodup_names_filter _
  · obtain ⟨_, _, _, _, halters⟩ := h.alters
    refine List.nodup_append.mpr ⟨halters.distinct, hkeptNames, fun n hn n' hn' hsame => ?_⟩
    subst hsame
    obtain ⟨p, hp, rfl⟩ := List.mem_map.mp hn'
    exact (h.created hn).2 p.2 (of_mem_keptOf (List.mem_filter.mp hp).1).1
  · rw [World.mem_standbyNames]
    constructor
    · rintro ⟨p, hlisted, hstanding⟩
      rcases h.cases hlisted with ⟨hc, -⟩ | ⟨-, q, hq, hbare⟩
      · exact List.mem_append_left _ hc
      · refine List.mem_append_right _ ?_
        rw [← Pod.isStanding_bare] at hstanding
        dsimp only at hbare
        rw [hbare] at hstanding
        have hnot : n ∉ deletedNames rd cfg gpuType target w := fun hdeleted => by
          simp [Pod.after, hdeleted, Pod.isStanding, Pod.terminated] at hstanding
        rw [Pod.after, if_neg hnot, Pod.isStanding_bare] at hstanding
        simp only [Pod.isStanding, Bool.and_eq_true, Bool.not_eq_true'] at hstanding
        have hkept : (n, q) ∈ rd.keptOf cfg target (w.warmPods (some gpuType) none) := by
          by_contra hkept
          exact hnot ((mem_deletedNames_iff hq hstanding.1.1).mpr hkept)
        exact List.mem_map_of_mem (f := Prod.fst)
          (List.mem_filter.mpr ⟨hkept, by simp [hstanding.1.2]⟩)
    · intro hn
      rcases List.mem_append.mp hn with hc | hold
      · obtain ⟨⟨q, hq, hbare⟩, -⟩ := h.created hc
        refine ⟨q, hq, ?_⟩
        rw [← Pod.isStanding_bare, hbare]
        exact isStanding_newWarmPod gpuType n
      · obtain ⟨⟨n, p⟩, hp, rfl⟩ := List.mem_map.mp hold
        obtain ⟨hp, hrequested⟩ := List.mem_filter.mp hp
        obtain ⟨hlisted, hclaimed, hspent⟩ := of_mem_keptOf hp
        obtain ⟨q, hq, hbare⟩ := h.listed hlisted
        refine ⟨q, hq, ?_⟩
        rw [← Pod.isStanding_bare, hbare, Pod.after,
          if_neg fun hmem => (mem_deletedNames_iff hlisted hclaimed).mp hmem hp]
        exact (isStanding_of_not_isSpent hclaimed hspent).trans hrequested

theorem length_keptOf_le (rd : Readings) (cfg : Settings) (target : ℕ) (pods : List NamedPod) :
    (rd.keptOf cfg target pods).length ≤ target :=
  List.eraseP_sublist.length_le.trans (List.length_take_le _ _)

/-- After a run, a type has as many standby pods as configured, none of them too old, exactly if
what the run has kept is neither terminating nor too old, and what it has created is not. -/
theorem onTarget_iff (h : RelistsType rd cfg gpuType target c w w') :
    ((w'.standby gpuType).length = target ∧
      ∀ p ∈ w'.standby gpuType, rd.age p.1 ≤ cfg.warmPodMaxAgeHours * 3600) ↔
    KeepsSound rd cfg target (w.warmPods (some gpuType) none) := by
  have hlength := h.standby_perm.length_eq
  rw [List.length_map, List.length_append, List.length_map, h.count] at hlength
  have hle := length_keptOf_le rd cfg target (w.warmPods (some gpuType) none)
  have hage : (∀ p ∈ w'.standby gpuType, rd.age p.1 ≤ cfg.warmPodMaxAgeHours * 3600) ↔
      ∀ n ∈ c ++ ((rd.keptOf cfg target (w.warmPods (some gpuType) none)).filter fun p =>
        !p.2.deletionRequested).map Prod.fst, rd.age n ≤ cfg.warmPodMaxAgeHours * 3600 := by
    rw [← List.forall_mem_map (f := Prod.fst)
      (P := fun n => rd.age n ≤ cfg.warmPodMaxAgeHours * 3600)]
    exact forall_congr' fun n => by rw [h.standby_perm.mem_iff]
  rw [hage]
  constructor
  · rintro ⟨htarget, hyoung⟩
    have hstanding : ∀ p ∈ rd.keptOf cfg target (w.warmPods (some gpuType) none),
        (!p.2.deletionRequested) = true := List.length_filter_eq_length_iff.mp (by omega)
    refine ⟨fun p hp => by simpa using hstanding p hp, fun p hp => ?_, fun hfew => ?_⟩
    · exact hyoung p.1 (List.mem_append_right _
        (List.mem_map_of_mem (f := Prod.fst) (List.mem_filter.mpr ⟨hp, hstanding p hp⟩)))
    · obtain ⟨n, hn⟩ := List.exists_mem_of_length_pos (l := c) (by rw [h.count]; omega)
      have hmax := hyoung n (List.mem_append_left _ hn)
      rw [h.young n hn] at hmax
      exact (mul_nonneg_iff_of_pos_right (by decide)).mp hmax
  · intro hsound
    have hall : ((rd.keptOf cfg target (w.warmPods (some gpuType) none)).filter fun p =>
        !p.2.deletionRequested) = rd.keptOf cfg target (w.warmPods (some gpuType) none) :=
      List.filter_eq_self.mpr fun p hp => by simp [hsound.standing p hp]
    rw [hall] at hlength ⊢
    refine ⟨by omega, fun n hn => ?_⟩
    rcases List.mem_append.mp hn with hc | hold
    · rw [h.young n hc]
      have hfew : (rd.keptOf cfg target (w.warmPods (some gpuType) none)).length < target := by
        have hcount := h.count
        have hpos := List.length_pos_of_mem hc
        omega
      exact mul_nonneg (hsound.created hfew) (by decide)
    · obtain ⟨p, hp, rfl⟩ := List.mem_map.mp hold
      exact hsound.young p hp

end RelistsType

/-! ### The next run -/

/-- Between two runs nothing happens but that terminating pods go. -/
structure Settles (w w' : World) : Prop where
  same : ∀ n p, w'.pods.lookup n = some p → w.pods.lookup n = some p
  stays : ∀ n p, w.pods.lookup n = some p → p.deletionRequested = false →
    w'.pods.lookup n = some p

/-- A listed pod of a configured type runs an outdated image. -/
def rotationPending (rd : Readings) (cfg : Settings) (w : World) : Prop :=
  ∃ g ∈ cfg.warmPoolTargets, ∃ p ∈ w.warmPods (some g.1) none, rd.isOutdated p = true

/-- No standby pod is listed while it is terminating. -/
def noneTerminating (w : World) : Prop :=
  ∀ p ∈ w.namedPods, p.2.labels "app" = some "gpu-dev-warm" → p.2.isClaimed = false →
    p.2.deletionRequested = false

/-- A standby pod is a stray, or of a configured type. -/
theorem isStray_or_isOfKind (cfg : Settings) {labels : Dict}
    (happ : labels "app" = some "gpu-dev-warm")
    (hclaimed : (labels "warm-state" == some "claimed") = false) :
    isStray cfg labels = true ∨ ∃ g ∈ cfg.warmPoolTargets, isOfKind g.1 labels = true := by
  cases htype : (labels "warm-gpu-type").any fun t => (cfg.warmPoolTargets.lookup t).isSome with
  | false => exact Or.inl (by simp [isStray, happ, hclaimed, htype])
  | true =>
    obtain ⟨t, ht, hlookup⟩ := (Option.any_eq_true _ _).mp htype
    obtain ⟨g, hg, hsame⟩ := List.lookup_isSome_iff.mp hlookup
    refine Or.inr ⟨g, hg, ?_⟩
    simp only [beq_iff_eq] at hsame
    simp [isOfKind, happ, ht, hsame]

section Settled

variable {w'' : World} {gpuType : String} {target : ℕ} {c : List String}

theorem Settles.listed_before (h : Settles w' w'') {p : NamedPod}
    (hp : p ∈ w''.warmPods (some gpuType) none) : p ∈ w'.warmPods (some gpuType) none := by
  rw [World.mem_warmPods_iff] at hp ⊢
  exact ⟨h.same _ _ hp.1, hp.2⟩

/-- What stands by is listed for the next run. -/
theorem Settles.listed_standby (h : Settles w' w'') {p : NamedPod}
    (hp : p ∈ w'.standby gpuType) : p ∈ w''.warmPods (some gpuType) none := by
  obtain ⟨hlisted, hstanding⟩ := List.mem_filter.mp hp
  rw [World.mem_warmPods_iff] at hlisted ⊢
  simp only [Pod.isStanding, Bool.and_eq_true, Bool.not_eq_true'] at hstanding
  exact ⟨h.stays _ _ hlisted.1 hstanding.1.2, hlisted.2⟩

theorem Pod.labels_of_bare_eq {p q : Pod} (h : p.bare = q.bare) : p.labels = q.labels := by
  have hlabels := congrArg Pod.labels h
  exact hlabels

theorem Pod.phase_of_bare_eq {p q : Pod} (h : p.bare = q.bare) : p.phase = q.phase := by
  have hphase := congrArg Pod.phase h
  exact hphase

/-- Whether a pod is spent does not depend on annotations. -/
theorem isSpent_congr {n : String} {p q : Pod} (h : p.bare = q.bare) :
    rd.isSpent cfg (n, p) = rd.isSpent cfg (n, q) := by
  simp only [Readings.isSpent, Pod.phase_of_bare_eq h, Pod.labels_of_bare_eq h]

/-- What is listed after a run with a sound result is not spent, unless it is claimed or
terminating. -/
theorem RelistsType.not_isSpent (h : RelistsType rd cfg gpuType target c w w')
    (hsound : KeepsSound rd cfg target (w.warmPods (some gpuType) none)) {p : NamedPod}
    (hp : p ∈ w'.warmPods (some gpuType) none) (hclaimed : p.2.isClaimed = false)
    (hrequested : p.2.deletionRequested = false) : rd.isSpent cfg p = false := by
  obtain ⟨n, p⟩ := p
  rcases h.cases hp with ⟨hc, hbare⟩ | ⟨-, q, hq, hbare⟩
  · have hfew : (rd.keptOf cfg target (w.warmPods (some gpuType) none)).length < target := by
      have hcount := h.count
      have hpos := List.length_pos_of_mem hc
      omega
    rw [isSpent_congr (q := newWarmPod gpuType n) hbare]
    have hmax : ¬ cfg.warmPodMaxAgeHours * 3600 < 0 :=
      not_lt.mpr (mul_nonneg (hsound.created hfew) (by decide))
    simp [Readings.isSpent, newWarmPod, h.young n hc, hmax]
  · have hrequested' : p.bare.deletionRequested = false := hrequested
    dsimp only at hbare
    rw [hbare, Pod.deletionRequested_after] at hrequested'
    simp only [Bool.or_eq_false_iff, decide_eq_false_iff_not] at hrequested'
    rw [Pod.after, if_neg hrequested'.1] at hbare
    have hsame : q.isClaimed = p.isClaimed := by
      simp only [Pod.isClaimed, Pod.labels_of_bare_eq hbare]
    have hkept : (n, q) ∈ rd.keptOf cfg target (w.warmPods (some gpuType) none) := by
      by_contra hkept
      exact hrequested'.1 ((RelistsType.mem_deletedNames_iff hq (hsame.trans hclaimed)).mpr hkept)
    rw [isSpent_congr hbare]
    exact (RelistsType.of_mem_keptOf hkept).2.2

/-- If none is terminating, and none is to be rotated out, the next run keeps all pods of a type,
and they are as many as configured. -/
theorem RelistsType.next_keeps (h : RelistsType rd cfg gpuType target c w w')
    (hsound : KeepsSound rd cfg target (w.warmPods (some gpuType) none)) (hsettles : Settles w' w'')
    (hnone : noneTerminating w'')
    (hrotated : ∀ p ∈ w''.warmPods (some gpuType) none, rd.isOutdated p = false) :
    rd.deletedOf cfg target (w''.warmPods (some gpuType) none) = [] ∧
      (rd.keptOf cfg target (w''.warmPods (some gpuType) none)).length = target := by
  have hrequested : ∀ p ∈ w''.warmPods (some gpuType) none, p.2.isClaimed = false →
      p.2.deletionRequested = false := by
    intro p hp hclaimed
    rw [World.mem_warmPods_iff, isOfKind, Bool.and_eq_true, beq_iff_eq] at hp
    exact hnone p (World.mem_namedPods.mpr hp.1) hp.2.1 hclaimed
  have hunspent : ∀ p ∈ w''.warmPods (some gpuType) none, p.2.isClaimed = false →
      rd.isSpent cfg p = false := fun p hp hclaimed =>
    h.not_isSpent hsound (hsettles.listed_before hp) hclaimed (hrequested p hp hclaimed)
  have hspent : rd.spentOf cfg (w''.warmPods (some gpuType) none) = [] := by
    refine List.filter_eq_nil_iff.mpr fun p hp hboth => ?_
    simp only [Bool.and_eq_true, Bool.not_eq_true'] at hboth
    rw [hunspent p hp hboth.1] at hboth
    cases hboth.2
  -- those that live on are those that stand by
  have hnames : ((rd.liveOf cfg (w''.warmPods (some gpuType) none)).map Prod.fst).Perm
      ((w'.standby gpuType).map Prod.fst) := by
    refine (List.perm_ext_iff_of_nodup ?_ ?_).mpr fun n => ?_
    · rw [Readings.liveOf, World.warmPods, List.filter_filter]
      exact w''.nodup_names_filter _
    · rw [World.standby, World.warmPods, List.filter_filter]
      exact w'.nodup_names_filter _
    · constructor
      · intro hn
        obtain ⟨p, hp, rfl⟩ := List.mem_map.mp hn
        obtain ⟨hlisted, hlive⟩ := List.mem_filter.mp hp
        simp only [Bool.and_eq_true, Bool.not_eq_true'] at hlive
        refine List.mem_map_of_mem (List.mem_filter.mpr ⟨hsettles.listed_before hlisted, ?_⟩)
        rw [RelistsType.isStanding_of_not_isSpent hlive.1 hlive.2, hrequested p hlisted hlive.1]
        rfl
      · intro hn
        obtain ⟨p, hp, rfl⟩ := List.mem_map.mp hn
        have hlisted := hsettles.listed_standby hp
        have hstanding := (List.mem_filter.mp hp).2
        simp only [Pod.isStanding, Bool.and_eq_true, Bool.not_eq_true'] at hstanding
        refine List.mem_map_of_mem (List.mem_filter.mpr ⟨hlisted, ?_⟩)
        simp [hstanding.1.1, hunspent p hlisted hstanding.1.1]
  have hlength : (rd.liveOf cfg (w''.warmPods (some gpuType) none)).length = target := by
    have hperm := hnames.length_eq
    rw [List.length_map, List.length_map] at hperm
    exact hperm.trans (h.onTarget_iff.mpr hsound).1
  have hunrotated : ∀ p ∈ rd.liveOf cfg (w''.warmPods (some gpuType) none),
      ¬ rd.isOutdated p = true := fun p hp => by simp [hrotated p (List.mem_filter.mp hp).1]
  constructor
  · rw [Readings.deletedOf, hspent, List.drop_of_length_le hlength.le,
      List.take_of_length_le hlength.le, List.find?_eq_none.mpr hunrotated]
    rfl
  · rw [Readings.keptOf, List.take_of_length_le hlength.le, List.eraseP_of_forall_not hunrotated]
    exact hlength

/-- If as many pods of a type stand by as configured, and the next run deletes none, then none of
its standby pods is listed while it is terminating. -/
theorem Settles.none_terminating_of_next (hsettles : Settles w' w'')
    (htarget : (w'.standby gpuType).length = target)
    (hnext : rd.deletedOf cfg target (w''.warmPods (some gpuType) none) = []) {p : NamedPod}
    (hp : p ∈ w''.warmPods (some gpuType) none) (hclaimed : p.2.isClaimed = false) :
    p.2.deletionRequested = false := by
  simp only [Readings.deletedOf, List.append_eq_nil_iff] at hnext
  obtain ⟨⟨hspent, hexcess⟩, -⟩ := hnext
  have hlive : ∀ q ∈ w''.warmPods (some gpuType) none, q.2.isClaimed = false →
      q ∈ rd.liveOf cfg (w''.warmPods (some gpuType) none) := by
    intro q hq hclaimed
    have hunspent := List.filter_eq_nil_iff.mp hspent q hq
    exact List.mem_filter.mpr ⟨hq, by simpa [hclaimed] using hunspent⟩
  by_contra hrequested
  -- it comes on top of those that stand by
  have hmore : (p :: w'.standby gpuType).Subperm
      (rd.liveOf cfg (w''.warmPods (some gpuType) none)) := by
    refine List.subperm_of_subset (List.nodup_cons.mpr ⟨fun hmem => ?_, ?_⟩) ?_
    · have hstanding := (List.mem_filter.mp hmem).2
      simp only [Pod.isStanding, Bool.and_eq_true, Bool.not_eq_true'] at hstanding
      exact hrequested hstanding.1.2
    · refine List.Nodup.of_map Prod.fst ?_
      rw [World.standby, World.warmPods, List.filter_filter]
      exact w'.nodup_names_filter _
    · intro q hq
      rcases List.mem_cons.mp hq with rfl | hq
      · exact hlive _ hp hclaimed
      · have hstanding := (List.mem_filter.mp hq).2
        simp only [Pod.isStanding, Bool.and_eq_true, Bool.not_eq_true'] at hstanding
        exact hlive q (hsettles.listed_standby hq) hstanding.1.1
  have hlength := hmore.length_le
  rw [List.length_cons, htarget] at hlength
  have hdropped := List.drop_eq_nil_iff.mp hexcess
  omega

end Settled

/-- A run of `reconcile_warm_pool` in which every call goes through. -/
structure PoolRun (rd : Readings) (cfg : Settings) (w : World) (t : List Exchange) (w' : World) :
    Prop where
  exec : ∃ r, Exec Op.Answers (reconcileWarmPool cfg).run w t r w'
  goes : ∀ x ∈ t, rd.Goes x

/-- What a run is for: it deletes standby pods only, and leaves as many as configured of each type;
a second run, on what the first one leaves, has nothing to do. -/
structure Converges (rd : Readings) (cfg : Settings) (w : World) (t : List Exchange) (w' : World)
    (w₂ : World) (t₂ : List Exchange) : Prop where
  standbyOnly : ∀ n ∈ deletedIn t, ∃ p, w.pods.lookup n = some p ∧
    p.labels "app" = some "gpu-dev-warm" ∧ p.isClaimed = false
  onTarget : ∀ g ∈ cfg.warmPoolTargets, (w'.standby g.1).length = g.2 ∧
    ∀ p ∈ w'.standby g.1, rd.age p.1 ≤ cfg.warmPodMaxAgeHours * 3600
  untargeted : ∀ p ∈ w'.strays cfg, p.2.isStanding = false
  settled : ¬ rotationPending rd cfg w₂ → deletedIn t₂ = [] ∧ createdIn t₂ = []

theorem PoolRun.reconciles {t : List Exchange} (h : PoolRun rd cfg w t w')
    (hkeys : (cfg.warmPoolTargets.map Prod.fst).Nodup) :
    ∃ names, Reconciles rd cfg names w t w' := by
  obtain ⟨r, hexec⟩ := h.exec
  obtain ⟨_, -, hreconciles⟩ := reaches_reconcileWarmPool hkeys t r w' hexec h.goes
  exact hreconciles

/-- A run deletes standby pods only. -/
theorem Reconciles.standbyOnly {names : String → List String} {t : List Exchange}
    (h : Reconciles rd cfg names w t w') {n : String} (hn : n ∈ deletedIn t) :
    ∃ p, w.pods.lookup n = some p ∧ p.labels "app" = some "gpu-dev-warm" ∧
      p.isClaimed = false := by
  rw [h.deleted] at hn
  rcases List.mem_append.mp hn with hn | hn
  · obtain ⟨g, -, hn⟩ := List.mem_flatMap.mp hn
    obtain ⟨p, hp, rfl⟩ := List.mem_map.mp hn
    have hmem := (perm_deletedOf_keptOf rd cfg g.2 (w.warmPods (some g.1) none)).mem_iff.mpr
      (List.mem_append_left _ hp)
    obtain ⟨hlisted, hclaimed⟩ := List.mem_filter.mp hmem
    rw [World.mem_warmPods_iff, isOfKind, Bool.and_eq_true, beq_iff_eq] at hlisted
    exact ⟨p.2, hlisted.1, hlisted.2.1, by simpa using hclaimed⟩
  · obtain ⟨p, hp, rfl⟩ := List.mem_map.mp hn
    obtain ⟨hmem, hstray⟩ := List.mem_filter.mp hp
    simp only [isStray, Bool.and_eq_true, Bool.not_eq_true', beq_iff_eq] at hstray
    exact ⟨p.2, World.mem_namedPods.mp hmem, hstray.1.1, hstray.1.2⟩

/-- After runs with a sound result, the next run has nothing to do exactly if no standby pod is
listed while it is terminating. -/
theorem Reconciles.next_idle_iff {names names₂ : String → List String} {t t₂ : List Exchange}
    {w₂ w₃ : World} (h : Reconciles rd cfg names w t w')
    (hsound : ∀ g ∈ cfg.warmPoolTargets,
      KeepsSound rd cfg g.2 (w.warmPods (some g.1) none)) (hsettles : Settles w' w₂)
    (hrotated : ¬ rotationPending rd cfg w₂) (h₂ : Reconciles rd cfg names₂ w₂ t₂ w₃) :
    (deletedIn t₂ = [] ∧ createdIn t₂ = []) ↔ noneTerminating w₂ := by
  constructor
  · rintro ⟨hdeleted, -⟩ p hp happ hclaimed
    rw [h₂.deleted, List.append_eq_nil_iff, List.flatMap_eq_nil_iff] at hdeleted
    rcases isStray_or_isOfKind cfg happ hclaimed with hstray | ⟨g, hg, hkind⟩
    · have hmem : p ∈ w₂.strays cfg := List.mem_filter.mpr ⟨hp, hstray⟩
      rw [List.map_eq_nil_iff.mp hdeleted.2] at hmem
      cases hmem
    · exact hsettles.none_terminating_of_next ((h.types g hg).onTarget_iff.mpr (hsound g hg)).1
        (List.map_eq_nil_iff.mp (hdeleted.1 g hg))
        (World.mem_warmPods_iff.mpr ⟨World.mem_namedPods.mp hp, hkind⟩) hclaimed
  · intro hnone
    have hkeeps : ∀ g ∈ cfg.warmPoolTargets, _ := fun g hg =>
      (h.types g hg).next_keeps (hsound g hg) hsettles hnone fun p hp => by
        rw [Bool.eq_false_iff]
        exact fun houtdated => hrotated ⟨g, hg, p, hp, houtdated⟩
    have hstrays : w₂.strays cfg = [] := by
      refine List.filter_eq_nil_iff.mpr fun p hp hstray => ?_
      have hbefore : p ∈ w'.strays cfg := List.mem_filter.mpr
        ⟨World.mem_namedPods.mpr (hsettles.same _ _ (World.mem_namedPods.mp hp)), hstray⟩
      simp only [isStray, Bool.and_eq_true, Bool.not_eq_true', beq_iff_eq] at hstray
      have hgone := h.strays p hbefore
      rw [hnone p hp hstray.1.1 hstray.1.2] at hgone
      cases hgone
    rw [h₂.deleted, h₂.created, hstrays, List.append_eq_nil_iff, List.flatMap_eq_nil_iff,
      List.flatMap_eq_nil_iff]
    refine ⟨⟨fun g hg => ?_, rfl⟩, fun g hg => ?_⟩
    · rw [(hkeeps g hg).1]
      rfl
    · refine List.length_eq_zero_iff.mp ?_
      rw [(h₂.types g hg).count, (hkeeps g hg).2, Nat.sub_self]

/-- The pool converges exactly if what a run keeps is sound and, unless an image is to be rotated
out, no standby pod is still terminating when the next run lists them. -/
theorem reconcileWarmPool_converges_iff {t t₂ : List Exchange} {w₂ w₃ : World}
    (hkeys : (cfg.warmPoolTargets.map Prod.fst).Nodup) (h : PoolRun rd cfg w t w')
    (hsettles : Settles w' w₂) (h₂ : PoolRun rd cfg w₂ t₂ w₃) :
    Converges rd cfg w t w' w₂ t₂ ↔
      (∀ g ∈ cfg.warmPoolTargets, KeepsSound rd cfg g.2 (w.warmPods (some g.1) none)) ∧
        (¬ rotationPending rd cfg w₂ → noneTerminating w₂) := by
  obtain ⟨names, h⟩ := h.reconciles hkeys
  obtain ⟨names₂, h₂⟩ := h₂.reconciles hkeys
  constructor
  · rintro ⟨-, honTarget, -, hsettled⟩
    have hsound := fun g hg => (h.types g hg).onTarget_iff.mp (honTarget g hg)
    exact ⟨hsound, fun hrotated =>
      (h.next_idle_iff hsound hsettles hrotated h₂).mp (hsettled hrotated)⟩
  · rintro ⟨hsound, hnone⟩
    refine ⟨fun n hn => h.standbyOnly hn, fun g hg => (h.types g hg).onTarget_iff.mpr (hsound g hg),
      fun p hp => by simp [Pod.isStanding, h.strays p hp], fun hrotated => ?_⟩
    exact (h.next_idle_iff hsound hsettles hrotated h₂).mpr (hnone hrotated)

end Runs

/-! ### A pool of one -/

/-- A pool of one CPU pod. -/
def Settings.oneCpu : Settings := { Settings.usual with warmPoolTargets := [("cpu-x86", 1)] }

/-- All pods are new and run the current image. -/
def Readings.allNew : Readings := ⟨fun _ => 0, fun _ => "x", "x"⟩

/-- The one pod of the pool. -/
def cpuPodName : String := "gpu-dev-cpu-x86-4f8c1e"

/-- The pool with its one pod, which may be terminating. -/
def onePool (terminating : Bool) : World :=
  ⟨∅, AList.singleton cpuPodName
    { newWarmPod "cpu-x86" cpuPodName with deletionRequested := terminating }, [], ∅⟩

/-- The calls of a run over the pool, as it is configured. -/
def poolCalls (w : World) : List Exchange :=
  (reconcileWarmPool .oneCpu).run.exchanges Script.fine.serve w

/-- The world that a run over the pool leaves. -/
def poolAfter (w : World) : World := ((reconcileWarmPool .oneCpu).result Script.fine.serve w).2

/-- On a day on which everything goes well, a run that changes nothing goes through. -/
theorem poolRun_of_quiet {w : World} (h : ∀ x ∈ poolCalls w, x.op.IsQuiet = true) :
    PoolRun .allNew .oneCpu w (poolCalls w) (poolAfter w) where
  exec := ⟨_, exec_run Script.fine.answers_serve (reconcileWarmPool .oneCpu).run w⟩
  goes := by
    rintro ⟨op, res, before, after⟩ hx
    have hquiet := h _ hx
    have hres : res = (Script.fine.serve op before).1 := served_exchanges hx
    subst hres
    refine ⟨?_, ?_, ?_⟩
    · cases op <;> first | trivial | exact ⟨_, rfl⟩
    · cases op with
      | count o => cases o <;> trivial
      | read o => cases o <;> trivial
      | _ => trivial
    · rintro name p rfl
      cases hquiet

theorem settles_refl (w : World) : Settles w w := ⟨fun _ _ h => h, fun _ _ h _ => h⟩

theorem reconcileWarmPool_converges_onePool :
    Converges .allNew .oneCpu (onePool false) (poolCalls (onePool false))
      (poolAfter (onePool false)) (poolAfter (onePool false))
      (poolCalls (poolAfter (onePool false))) ↔
    (∀ g ∈ Settings.oneCpu.warmPoolTargets,
      KeepsSound .allNew .oneCpu g.2 ((onePool false).warmPods (some g.1) none)) ∧
      (¬ rotationPending .allNew .oneCpu (poolAfter (onePool false)) →
        noneTerminating (poolAfter (onePool false))) :=
  reconcileWarmPool_converges_iff (by decide) (poolRun_of_quiet (by decide +kernel))
    (settles_refl _) (poolRun_of_quiet (by decide +kernel))

/-- The pod of the pool is terminating. It counts, so none is created in its place. -/
theorem not_converges_terminating :
    PoolRun .allNew .oneCpu (onePool true) (poolCalls (onePool true)) (poolAfter (onePool true)) ∧
    ∀ w₂ t₂, ¬ Converges .allNew .oneCpu (onePool true) (poolCalls (onePool true))
      (poolAfter (onePool true)) w₂ t₂ := by
  refine ⟨poolRun_of_quiet (by decide +kernel), fun w₂ t₂ h => ?_⟩
  have hlength := (h.onTarget ("cpu-x86", 1) List.mem_cons_self).1
  revert hlength
  decide +kernel

end CiInfra.GpuDev

import CiInfra.GpuDev.FailedClaims
import CiInfra.Lib.Fallible

/-!
# What one pass over the pool turns over

A pass deletes some pods of one kind, which from then on are terminating, and creates others; of
the rest it changes annotations at most. The kind is told by the labels, which are left alone, so
pods of another kind are listed as before.
-/

namespace CiInfra.GpuDev

open Interaction Fallible Program
open Kube (Dict)

/-! ### Pods without their annotations -/

/-- The pod without its annotations. -/
def Pod.bare (p : Pod) : Pod := { p with annotations := dictOf [] }

/-- The pod once it is to be deleted. -/
def Pod.terminated (p : Pod) : Pod := { p with deletionRequested := true }

/-- The pod is terminated if its name is among those deleted. -/
def Pod.after (deleted : List String) (name : String) (p : Pod) : Pod :=
  if name ∈ deleted then p.terminated else p

@[simp] theorem Pod.after_nil (name : String) (p : Pod) : p.after [] name = p := by simp [Pod.after]

theorem Pod.after_append (d d' : List String) (name : String) (p : Pod) :
    (p.after d name).after d' name = p.after (d ++ d') name := by
  unfold Pod.after
  by_cases h : name ∈ d <;> by_cases h' : name ∈ d' <;> simp [h, h', Pod.terminated]

@[simp] theorem Pod.labels_after (d : List String) (name : String) (p : Pod) :
    (p.after d name).labels = p.labels := by
  unfold Pod.after
  split <;> rfl

@[simp] theorem Pod.phase_after (d : List String) (name : String) (p : Pod) :
    (p.after d name).phase = p.phase := by
  unfold Pod.after
  split <;> rfl

theorem Pod.deletionRequested_after (d : List String) (name : String) (p : Pod) :
    (p.after d name).deletionRequested = (decide (name ∈ d) || p.deletionRequested) := by
  unfold Pod.after
  split <;> simp [*, Pod.terminated]

namespace World

/-- A pod without its annotations. -/
def barePod (w : World) (name : String) : Option Pod := (w.pods.lookup name).map Pod.bare

/-- The world with a pod under a name. -/
def withPod (w : World) (name : String) (p : Pod) : World :=
  { w with pods := w.pods.insert name p }

theorem barePod_withPod (w : World) (name other : String) (p : Pod) :
    (w.withPod name p).barePod other = if other = name then some p.bare else w.barePod other := by
  unfold barePod withPod
  split
  · subst other
    rw [AList.lookup_insert]
    rfl
  · rw [AList.lookup_insert_ne ‹_›]

/-- Pods that are not selected before and after a write are not seen to change. -/
theorem filter_withPod {w : World} {name : String} {p : Pod} {f : NamedPod → Bool}
    (hnew : f (name, p) = false) (hold : ∀ q, w.pods.lookup name = some q → f (name, q) = false) :
    (w.withPod name p).namedPods.filter f = w.namedPods.filter f := by
  have hentries : ∀ l : List (Sigma fun _ : String => Pod),
      (∀ e ∈ l, e.1 = name → f (e.1, e.2) = false) →
      ((l.kerase name).map fun e => (e.1, e.2)).filter f =
        (l.map fun e => (e.1, e.2)).filter f := by
    intro l hl
    induction l with
    | nil => rfl
    | cons e l ih =>
      obtain ⟨he, hl⟩ := List.forall_mem_cons.mp hl
      by_cases hname : name = e.1
      · rw [List.kerase_cons_eq hname, List.map_cons, List.filter_cons_of_neg]
        rw [he hname.symm]
        exact Bool.false_ne_true
      · rw [List.kerase_cons_ne hname, List.map_cons, List.map_cons, List.filter_cons,
          List.filter_cons, ih hl]
  unfold namedPods withPod
  rw [AList.entries_insert, List.map_cons, List.filter_cons_of_neg (by rw [hnew]; decide)]
  refine hentries _ fun e he hname => ?_
  subst hname
  exact hold e.2 (AList.mem_lookup_iff.mpr he)

end World

/-! ### Turnover -/

/-- Of the pods with labels `m`, those named in `deleted` are terminating, those named in `created`
are new, and of the others at most the annotations have changed. All other pods are the same. -/
structure Alters (m : Dict → Bool) (new : String → Pod) (deleted created : List String)
    (w w' : World) : Prop where
  others : (w'.namedPods.filter fun p => !m p.2.labels) = w.namedPods.filter fun p => !m p.2.labels
  distinct : created.Nodup
  fresh : ∀ n ∈ created, w.pods.lookup n = none ∧ w'.barePod n = some (new n)
  rest : ∀ n ∉ created, w'.barePod n = (w.barePod n).map (Pod.after deleted n)

namespace Alters

variable {m : Dict → Bool} {new : String → Pod} {d d' c c' : List String} {w w₁ w' : World}

theorem refl (w : World) : Alters m new [] [] w w where
  others := rfl
  distinct := List.nodup_nil
  fresh := by simp
  rest n _ := by
    rw [show Pod.after [] n = id from funext fun p => p.after_nil n, Option.map_id_fun, id_eq]

theorem barePod_eq_none {w : World} {n : String} : w.barePod n = none ↔ w.pods.lookup n = none :=
  Option.map_eq_none_iff

/-- What follows deletes nothing that has been created. -/
theorem trans (h : Alters m new d c w w₁) (h' : Alters m new d' c' w₁ w')
    (hkept : ∀ n ∈ c, n ∉ d') : Alters m new (d ++ d') (c ++ c') w w' where
  others := h'.others.trans h.others
  distinct := by
    refine List.nodup_append.mpr ⟨h.distinct, h'.distinct, fun n hn n' hn' hsame => ?_⟩
    subst hsame
    have hnone := barePod_eq_none.mpr (h'.fresh n hn').1
    rw [(h.fresh n hn).2] at hnone
    cases hnone
  fresh n hn := by
    rcases List.mem_append.mp hn with hc | hc'
    · obtain ⟨hmissing, hnew⟩ := h.fresh n hc
      have hnot : n ∉ c' := by
        intro hc'
        have hnone := barePod_eq_none.mpr (h'.fresh n hc').1
        rw [hnew] at hnone
        cases hnone
      refine ⟨hmissing, ?_⟩
      rw [h'.rest n hnot, hnew, Option.map_some, Pod.after, if_neg (hkept n hc)]
    · obtain ⟨hmissing, hnew⟩ := h'.fresh n hc'
      refine ⟨?_, hnew⟩
      by_cases hc : n ∈ c
      · exact (h.fresh n hc).1
      · have hnone := barePod_eq_none.mpr hmissing
        rw [h.rest n hc, Option.map_eq_none_iff] at hnone
        exact barePod_eq_none.mp hnone
  rest n hn := by
    obtain ⟨hc, hc'⟩ : n ∉ c ∧ n ∉ c' := by simpa using hn
    rw [h'.rest n hc', h.rest n hc, Option.map_map]
    congr 1
    exact funext fun p => Pod.after_append d d' n p

/-- A pod of the kind is one still. -/
theorem lookup_kind (h : Alters m new d [] w w') {n : String}
    (hn : ∃ p, w.pods.lookup n = some p ∧ m p.labels = true) :
    ∃ p, w'.pods.lookup n = some p ∧ m p.labels = true := by
  obtain ⟨p, hp, hm⟩ := hn
  have hrest := h.rest n List.not_mem_nil
  rw [World.barePod, World.barePod, hp, Option.map_some, Option.map_some,
    Option.map_eq_some_iff] at hrest
  obtain ⟨q, hq, hbare⟩ := hrest
  have hlabels : q.labels = p.labels :=
    (congrArg Pod.labels hbare).trans (Pod.labels_after d n p.bare)
  exact ⟨q, hq, by rw [hlabels, hm]⟩

/-- Pods of another kind are listed as before. -/
theorem listed (h : Alters m new d c w w') {f : NamedPod → Bool}
    (hf : ∀ p, f p = true → m p.2.labels = false) :
    w'.namedPods.filter f = w.namedPods.filter f := by
  have hfilter : ∀ l : List NamedPod,
      (l.filter fun p => !m p.2.labels).filter f = l.filter f := by
    intro l
    rw [List.filter_filter]
    refine List.filter_congr fun p _ => ?_
    cases hp : f p with
    | false => rfl
    | true => simp [hf p hp]
  rw [← hfilter, ← hfilter w.namedPods, h.others]

/-! #### Single calls -/

theorem withPod {n : String} {p q : Pod} (hlookup : w.pods.lookup n = some p)
    (hm : m p.labels = true) (hlabels : q.labels = p.labels)
    (hbare : q.bare = p.bare.after d n) (hd : ∀ x ∈ d, x = n) :
    Alters m new d [] w (w.withPod n q) where
  others := World.filter_withPod (by simp [hlabels, hm]) fun r hr => by
    obtain rfl := Option.some.inj (hlookup.symm.trans hr)
    simp [hm]
  distinct := List.nodup_nil
  fresh := by simp
  rest other _ := by
    rw [World.barePod_withPod]
    split
    · subst other
      rw [World.barePod, hlookup, Option.map_some, Option.map_some, hbare]
    · have hnot : other ∉ d := fun hx => absurd (hd other hx) ‹_›
      rw [show Pod.after d other = id from funext fun p => if_neg hnot, Option.map_id_fun, id_eq]

/-- The deletion of a pod of the kind. -/
theorem deletePod {n : String} (hn : ∃ p, w.pods.lookup n = some p ∧ m p.labels = true)
    (h : (Op.deletePod n).effect w = some w') : Alters m new [n] [] w w' := by
  obtain ⟨p, hp, hm⟩ := hn
  obtain ⟨q, hq, rfl⟩ := World.modifyPod_eq_some h
  obtain rfl := Option.some.inj (hp.symm.trans hq)
  exact withPod hp hm rfl (by simp [Pod.after, Pod.bare, Pod.terminated]) (by simp)

/-- A note in the annotations of a pod of the kind. -/
theorem patchPod {n : String} {annotations : List (String × Option String)}
    (hn : ∃ p, w.pods.lookup n = some p ∧ m p.labels = true)
    (h : (Op.patchPod n [] annotations).effect w = some w') : Alters m new [] [] w w' := by
  obtain ⟨p, hp, hm⟩ := hn
  obtain ⟨q, hq, rfl⟩ := World.modifyPod_eq_some h
  obtain rfl := Option.some.inj (hp.symm.trans hq)
  exact withPod hp hm rfl (by rw [Pod.after_nil]; rfl) (by simp)

/-- The creation of a pod of the kind. -/
theorem createPod {n : String} {p : Pod} (hm : m p.labels = true) (hnew : p.bare = new n)
    (h : (Op.createPod n p).effect w = some w') : Alters m new [] [n] w w' := by
  obtain ⟨hmissing, rfl⟩ := World.createPod_eq_some h
  refine ⟨World.filter_withPod (by simp [hm]) fun q hq => ?_, List.nodup_singleton n,
    fun other ho => ?_, fun other ho => ?_⟩
  · rw [hmissing] at hq
    cases hq
  · obtain rfl := List.mem_singleton.mp ho
    refine ⟨hmissing, ?_⟩
    rw [← hnew]
    exact (World.barePod_withPod w other other p).trans (if_pos rfl)
  · have hne : other ≠ n := by simpa using ho
    refine ((World.barePod_withPod w n other p).trans (if_neg hne)).trans ?_
    rw [show Pod.after [] other = id from funext fun p => p.after_nil other,
      Option.map_id_fun, id_eq]

end Alters

end CiInfra.GpuDev

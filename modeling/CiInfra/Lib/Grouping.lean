import Mathlib.Data.List.Induction
import Mathlib.Data.List.Nodup

/-!
# Grouping a list by a key

Groups appear in the order of their first element and keep the order of the list,
as a dictionary of lists does that is filled from left to right.
-/

namespace Grouping

variable {α κ : Type} [DecidableEq κ]

/-- Append `a` to the group of `k`, which is created at the end if missing. -/
def insertGroup (k : κ) (a : α) : List (κ × List α) → List (κ × List α)
  | [] => [(k, [a])]
  | (k', as) :: rest =>
    if k' = k then (k', as ++ [a]) :: rest else (k', as) :: insertGroup k a rest

/-- Group a list by a key. -/
def groupBy (key : α → κ) (l : List α) : List (κ × List α) :=
  l.foldl (fun groups a => insertGroup (key a) a groups) []

theorem map_fst_insertGroup (k : κ) (a : α) (groups : List (κ × List α)) :
    (insertGroup k a groups).map Prod.fst =
      if k ∈ groups.map Prod.fst then groups.map Prod.fst else groups.map Prod.fst ++ [k] := by
  induction groups with
  | nil => simp [insertGroup]
  | cons g rest ih =>
    obtain ⟨k', as⟩ := g
    by_cases h : k' = k
    · subst h
      simp [insertGroup]
    · have h' : k ≠ k' := fun e => h e.symm
      simp only [insertGroup, if_neg h, List.map_cons, ih, List.mem_cons, h', false_or]
      split <;> rfl

theorem mem_insertGroup {k : κ} {a : α} {groups : List (κ × List α)}
    (hnodup : (groups.map Prod.fst).Nodup) {k' : κ} {as : List α} :
    (k', as) ∈ insertGroup k a groups ↔
      ((k', as) ∈ groups ∧ k' ≠ k) ∨
        (k' = k ∧ ((∃ bs, (k, bs) ∈ groups ∧ as = bs ++ [a]) ∨
          k ∉ groups.map Prod.fst ∧ as = [a])) := by
  induction groups with
  | nil => simp [insertGroup]
  | cons g rest ih =>
    obtain ⟨k₀, bs⟩ := g
    simp only [List.map_cons, List.nodup_cons] at hnodup
    obtain ⟨hk₀, hrest⟩ := hnodup
    by_cases h : k₀ = k
    · subst h
      have hnot : ∀ cs, (k₀, cs) ∉ rest := fun cs hcs => hk₀ (List.mem_map_of_mem hcs)
      by_cases hk : k' = k₀
      · subst hk
        simp [insertGroup, hnot]
      · simp [insertGroup, hk]
    · have h' : k ≠ k₀ := fun e => h e.symm
      simp only [insertGroup, if_neg h, List.mem_cons, ih hrest, Prod.mk.injEq, List.map_cons, h',
        false_and, false_or]
      constructor
      · rintro (⟨rfl, rfl⟩ | ⟨hmem, hk⟩ | hr)
        · exact Or.inl ⟨Or.inl ⟨rfl, rfl⟩, h⟩
        · exact Or.inl ⟨Or.inr hmem, hk⟩
        · exact Or.inr hr
      · rintro (⟨hmem | hmem, hk⟩ | hr)
        · exact Or.inl hmem
        · exact Or.inr (Or.inl ⟨hmem, hk⟩)
        · exact Or.inr (Or.inr hr)

/-- The groups are the fibres of the key over its values, each value once. -/
theorem groupBy_spec (key : α → κ) (l : List α) :
    ((groupBy key l).map Prod.fst).Nodup ∧
      ∀ k as, (k, as) ∈ groupBy key l ↔ k ∈ l.map key ∧ as = l.filter fun a => key a = k := by
  induction l using List.reverseRecOn with
  | nil => simp [groupBy]
  | append_singleton l a ih =>
    obtain ⟨hnodup, hmem⟩ := ih
    have hstep : groupBy key (l ++ [a]) = insertGroup (key a) a (groupBy key l) := by
      simp [groupBy, List.foldl_append]
    have hkeys : ∀ k, k ∈ (groupBy key l).map Prod.fst ↔ k ∈ l.map key := by
      intro k
      constructor
      · intro hk
        obtain ⟨⟨k', as⟩, hg, rfl⟩ := List.mem_map.mp hk
        exact ((hmem k' as).mp hg).1
      · intro hk
        exact List.mem_map.mpr ⟨(k, _), (hmem k _).mpr ⟨hk, rfl⟩, rfl⟩
    rw [hstep]
    constructor
    · rw [map_fst_insertGroup]
      split
      · exact hnodup
      · rename_i hk
        exact List.nodup_append.mpr ⟨hnodup, List.nodup_singleton _, by
          intro x hx y hy
          rw [List.mem_singleton.mp hy]
          rintro rfl
          exact hk hx⟩
    · intro k as
      rw [mem_insertGroup hnodup, hmem, hkeys]
      by_cases hk : k = key a
      · subst hk
        have hfilter : (l ++ [a]).filter (fun b => decide (key b = key a)) =
            l.filter (fun b => decide (key b = key a)) ++ [a] := by
          simp
        have hnil : key a ∉ l.map key → l.filter (fun b => decide (key b = key a)) = [] := by
          intro h
          rw [List.filter_eq_nil_iff]
          intro b hb hkey
          exact h (List.mem_map.mpr ⟨b, hb, by simpa using hkey⟩)
        rw [hfilter]
        constructor
        · rintro (⟨_, hne⟩ | ⟨_, ⟨bs, hbs, rfl⟩ | ⟨hnot, rfl⟩⟩)
          · exact absurd rfl hne
          · rw [((hmem _ bs).mp hbs).2]
            exact ⟨by simp, rfl⟩
          · exact ⟨by simp, by rw [hnil hnot, List.nil_append]⟩
        · rintro ⟨_, rfl⟩
          right
          refine ⟨rfl, ?_⟩
          by_cases hin : key a ∈ l.map key
          · exact Or.inl ⟨_, (hmem _ _).mpr ⟨hin, rfl⟩, rfl⟩
          · exact Or.inr ⟨hin, by rw [hnil hin, List.nil_append]⟩
      · have hfilter : (l ++ [a]).filter (fun b => decide (key b = k)) =
            l.filter (fun b => decide (key b = k)) := by
          have : ¬ key a = k := fun e => hk e.symm
          simp [this]
        rw [hfilter]
        simp [hk]

theorem mem_groupBy {key : α → κ} {l : List α} {k : κ} {as : List α} :
    (k, as) ∈ groupBy key l ↔ k ∈ l.map key ∧ as = l.filter fun a => key a = k :=
  (groupBy_spec key l).2 k as

/-- The first group is that of the first element. -/
theorem groupBy_cons (key : α → κ) (a : α) (l : List α) :
    ∃ as rest, groupBy key (a :: l) = (key a, as) :: rest := by
  induction l using List.reverseRecOn with
  | nil => exact ⟨[a], [], rfl⟩
  | append_singleton l b ih =>
    obtain ⟨as, rest, h⟩ := ih
    have hstep : groupBy key (a :: (l ++ [b])) = insertGroup (key b) b (groupBy key (a :: l)) := by
      simp [groupBy, List.foldl_append]
    rw [hstep, h, insertGroup]
    split
    · exact ⟨_, _, rfl⟩
    · exact ⟨_, _, rfl⟩

/-- Changing the elements without changing their keys changes the elements of the groups. -/
theorem map_insertGroup {f : α → α} (k : κ) (a : α) (groups : List (κ × List α)) :
    (insertGroup k a groups).map (fun g => (g.1, g.2.map f)) =
      insertGroup k (f a) (groups.map fun g => (g.1, g.2.map f)) := by
  induction groups with
  | nil => rfl
  | cons g rest ih =>
    simp only [insertGroup, List.map_cons]
    split
    · simp
    · rw [List.map_cons, ih]

theorem groupBy_map {key : α → κ} {f : α → α} (hf : ∀ a, key (f a) = key a) (l : List α) :
    groupBy key (l.map f) = (groupBy key l).map fun g => (g.1, g.2.map f) := by
  unfold groupBy
  induction l using List.reverseRecOn with
  | nil => rfl
  | append_singleton l a ih =>
    rw [List.map_append, List.foldl_append, List.foldl_append, List.map_singleton, List.foldl_cons,
      List.foldl_nil, List.foldl_cons, List.foldl_nil, ih, map_insertGroup, hf]

end Grouping

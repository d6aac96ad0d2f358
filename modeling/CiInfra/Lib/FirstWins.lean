import Mathlib.Data.List.Basic
import Mathlib.Data.List.Perm.Subperm

/-!
# Merging lists by key

Entries of a second list join a first one, in order, unless their key is taken: by the first list,
by an earlier entry, or from the outset. An entry without a key always joins.
-/

namespace FirstWins

variable {α β : Type} [DecidableEq β] (key : α → Option β)

/-- The entries that join, given the keys that are taken. -/
def joining (taken : List β) : List α → List α
  | [] => []
  | e :: rest =>
    match key e with
    | none => e :: joining taken rest
    | some k => if k ∈ taken then joining taken rest else e :: joining (k :: taken) rest

/-- All entries without a key join, and of each key that the first list has not exactly one. -/
structure JoinsOnce (front back joined : List α) : Prop where
  keyless : (joined.map key).count none = (back.map key).count none
  once : ∀ k, (joined.map key).count (some k) =
    if some k ∈ back.map key ∧ some k ∉ front.map key then 1 else 0

/-- The first entry with the key. -/
def firstWith (k : β) (l : List α) : Option α :=
  l.find? fun e => key e = some k

variable {key}

theorem joining_sublist (taken : List β) (l : List α) : (joining key taken l).Sublist l := by
  induction l generalizing taken with
  | nil => exact List.Sublist.refl _
  | cons e rest ih =>
    unfold joining
    split
    · exact (ih _).cons_cons e
    · split
      · exact (ih _).cons e
      · exact (ih _).cons_cons e

/-- Every entry without a key joins. -/
theorem count_none_joining (taken : List β) (l : List α) :
    ((joining key taken l).map key).count none = (l.map key).count none := by
  induction l generalizing taken with
  | nil => rfl
  | cons e rest ih =>
    unfold joining
    split
    case h_1 hkey => simp [hkey, ih]
    case h_2 k hkey =>
      split
      · simp [hkey, ih]
      · simp [hkey, ih]

/-- A key joins once if it is there and not taken. -/
theorem count_some_joining (k : β) (taken : List β) (l : List α) :
    ((joining key taken l).map key).count (some k) =
      if some k ∈ l.map key ∧ k ∉ taken then 1 else 0 := by
  induction l generalizing taken with
  | nil => simp [joining]
  | cons e rest ih =>
    unfold joining
    split
    case h_1 hkey => simp [hkey, ih]
    case h_2 k' hkey =>
      by_cases hk : k' = k
      · subst hk
        split
        case isTrue htaken => simp [ih, htaken]
        case isFalse htaken => simp [hkey, ih, htaken]
      · split
        case isTrue htaken => simp [hkey, ih, Ne.symm hk]
        case isFalse htaken => simp [hkey, ih, hk, Ne.symm hk]

theorem mem_map_joining {k : β} {taken : List β} {l : List α} :
    some k ∈ (joining key taken l).map key ↔ some k ∈ l.map key ∧ k ∉ taken := by
  rw [← List.count_pos_iff, count_some_joining]
  split
  case isTrue hnew => exact ⟨fun _ => hnew, fun _ => Nat.one_pos⟩
  case isFalse hnew => exact ⟨fun hpos => absurd hpos (Nat.lt_irrefl 0), fun h => absurd h hnew⟩

/-- With no key taken from the outset, the entries join as they should. -/
theorem joinsOnce_joining {front back : List α} {taken : List β}
    (htaken : ∀ k, some k ∈ back.map key → (k ∈ taken ↔ some k ∈ front.map key)) :
    JoinsOnce key front back (joining key taken back) where
  keyless := count_none_joining taken back
  once k := by
    rw [count_some_joining]
    exact if_congr (and_congr_right fun hback => not_congr (htaken k hback)) rfl rfl

/-- If as many entries join as should, no new key was taken. -/
theorem JoinsOnce.not_mem_taken {front back joined : List α} {taken : List β}
    (h : JoinsOnce key front back joined)
    (hfront : ∀ k, some k ∈ front.map key → k ∈ taken)
    (hlength : joined.length = (joining key taken back).length) {k : β}
    (hback : some k ∈ back.map key) (hnew : some k ∉ front.map key) : k ∉ taken := by
  have hsub : ((joining key taken back).map key).Subperm (joined.map key) := by
    rw [List.subperm_ext_iff]
    intro k' _
    cases k' with
    | none => exact Nat.le_of_eq ((count_none_joining taken back).trans h.keyless.symm)
    | some k' =>
      rw [h.once, count_some_joining]
      split
      case isTrue htaken =>
        exact Nat.le_of_eq (if_pos ⟨htaken.1, fun hk' => htaken.2 (hfront k' hk')⟩).symm
      case isFalse => exact Nat.zero_le _
  have hperm := hsub.perm_of_length_le (by simp [hlength])
  have hmem : some k ∈ joined.map key := by
    rw [← List.count_pos_iff, h.once, if_pos ⟨hback, hnew⟩]
    exact Nat.one_pos
  exact (mem_map_joining.1 (hperm.symm.subset hmem)).2

/-- The entry that joins under a key is the first one with it. -/
theorem mem_joining_iff {e : α} {k : β} {taken : List β} {l : List α} (hkey : key e = some k) :
    e ∈ joining key taken l ↔ k ∉ taken ∧ firstWith key k l = some e := by
  induction l generalizing taken with
  | nil => simp [joining, firstWith]
  | cons e' rest ih =>
    unfold joining
    split
    case h_1 hkey' =>
      have hne : e ≠ e' := fun h => by simp [← h, hkey] at hkey'
      simp [firstWith, hkey', hne, ih]
    case h_2 k' hkey' =>
      by_cases hk : k' = k
      · subst hk
        have hrest : ∀ taken', k' ∈ taken' → e ∉ joining key taken' rest := by
          intro taken' htaken' hmem
          exact (ih.1 hmem).1 htaken'
        split
        case isTrue htaken => simp [hrest taken htaken, htaken]
        case isFalse htaken =>
          simp [hrest (k' :: taken) List.mem_cons_self, htaken, firstWith, hkey', eq_comm]
      · have hne : e ≠ e' := fun h => hk (by simpa [← h, hkey, eq_comm] using hkey')
        split
        case isTrue htaken => simp [ih, firstWith, hkey', hk]
        case isFalse htaken => simp [ih, firstWith, hkey', hk, hne, Ne.symm hk]

/-! ### Renaming the entries that join -/

omit [DecidableEq β] in
/-- The sizes of the keys in a list are bounded. -/
theorem exists_size_bound (size : β → ℕ) (l : List α) :
    ∃ bound, ∀ e ∈ l, ∀ k, key e = some k → size k ≤ bound := by
  induction l with
  | nil => exact ⟨0, fun e he => absurd he List.not_mem_nil⟩
  | cons e rest ih =>
    obtain ⟨bound, hbound⟩ := ih
    refine ⟨max bound (((key e).map size).getD 0), fun e' he' k hk => ?_⟩
    rcases List.mem_cons.1 he' with rfl | hrest
    · exact Nat.le_trans (by simp [hk]) (Nat.le_max_right _ _)
    · exact Nat.le_trans (hbound e' hrest k hk) (Nat.le_max_left _ _)

omit [DecidableEq β] in
/-- Names that can only get shorter are all still there only if none has changed. -/
theorem names_kept {rename : α → Option β} {l : List α} (size : β → ℕ)
    (hsize : ∀ e ∈ l, ∀ k', rename e = some k' →
      ∃ k, key e = some k ∧ (k = k' ∨ size k' < size k))
    (hunique : ∀ e ∈ l, ∀ e' ∈ l, ∀ k, key e = some k → key e' = some k → e = e')
    (hcover : ∀ e ∈ l, ∀ k, key e = some k → ∃ e' ∈ l, rename e' = some k) :
    ∀ e ∈ l, ∀ k, key e = some k → rename e = some k := by
  have hbounded : ∃ bound, ∀ e ∈ l, ∀ k, key e = some k → size k ≤ bound :=
    exists_size_bound size l
  obtain ⟨bound, hbound⟩ := hbounded
  -- by induction on how far the name's size is from the bound: whatever now has the name had
  -- it before, or had a longer one, which is still there
  have hkept : ∀ gap, ∀ e ∈ l, ∀ k, key e = some k → bound - size k = gap →
      rename e = some k := by
    intro gap
    induction gap using Nat.strongRecOn with
    | ind gap ih =>
      intro e he k hk hgap
      obtain ⟨e', he', hrename⟩ := hcover e he k hk
      obtain ⟨k', hk', rfl | hlt⟩ := hsize e' he' k hrename
      · rwa [hunique e he e' he' k' hk hk']
      · have hle := hbound e' he' k' hk'
        have hrename' := ih (bound - size k') (by omega) e' he' k' hk' rfl
        rw [hrename, Option.some_inj] at hrename'
        exact absurd hlt (by simp [hrename'])
  exact fun e he k hk => hkept _ e he k hk rfl

end FirstWins

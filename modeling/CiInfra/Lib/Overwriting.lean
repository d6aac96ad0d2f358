import Mathlib.Data.List.Nodup
import Mathlib.Data.List.Perm.Subperm

/-!
# Writing under keys

A list of entries that is written to like a dictionary or a directory: what is written under a key
that is there takes the place of what was there.
-/

namespace Overwriting

variable {κ β : Type*} [DecidableEq κ] {entries writes : List (κ × β)} {k : κ} {v : β}

/-- Write a value under a key. -/
def write (entries : List (κ × β)) (k : κ) (v : β) : List (κ × β) :=
  if k ∈ entries.map Prod.fst then entries.map fun e => if e.1 = k then (k, v) else e
  else entries ++ [(k, v)]

/-- Write one value after another. -/
def writeAll (entries writes : List (κ × β)) : List (κ × β) :=
  writes.foldl (fun entries e => write entries e.1 e.2) entries

theorem map_fst_write : (write entries k v).map Prod.fst =
    if k ∈ entries.map Prod.fst then entries.map Prod.fst else entries.map Prod.fst ++ [k] := by
  unfold write
  split
  · rw [List.map_map]
    refine List.map_congr_left fun e _ => ?_
    by_cases he : e.1 = k
    · simp [he]
    · simp [he]
  · simp

theorem mem_keys_write {l : κ} : l ∈ (write entries k v).map Prod.fst ↔
    l = k ∨ l ∈ entries.map Prod.fst := by
  rw [map_fst_write]
  split
  case isTrue hk =>
    constructor
    · exact Or.inr
    · rintro (rfl | hl)
      · exact hk
      · exact hl
  case isFalse => rw [List.mem_append, List.mem_singleton, or_comm]

/-- What was written last is there. -/
theorem lookup_write : (write entries k v).lookup k = some v := by
  unfold write
  split
  case isTrue hk =>
    induction entries with
    | nil => simp at hk
    | cons e entries ih =>
      obtain ⟨l, u⟩ := e
      by_cases hl : l = k
      · simp [hl]
      · have hrest : k ∈ entries.map Prod.fst :=
          (List.mem_cons.mp hk).resolve_left fun heq => hl heq.symm
        have hne : (k == l) = false := beq_false_of_ne (Ne.symm hl)
        simp only [List.map_cons, if_neg hl, List.lookup_cons, hne]
        exact ih hrest
  case isFalse hk =>
    have hnone : entries.lookup k = none := by
      rw [List.lookup_eq_none_iff]
      intro e he
      exact bne_iff_ne.mpr fun heq => hk (List.mem_map.mpr ⟨e, he, heq.symm⟩)
    rw [List.lookup_append, hnone]
    simp

theorem nodup_keys_write (h : (entries.map Prod.fst).Nodup) :
    ((write entries k v).map Prod.fst).Nodup := by
  rw [map_fst_write]
  split
  case isTrue => exact h
  case isFalse hk => exact List.concat_eq_append ▸ List.Nodup.concat hk h

theorem nodup_keys_writeAll (h : (entries.map Prod.fst).Nodup) :
    ((writeAll entries writes).map Prod.fst).Nodup := by
  induction writes generalizing entries with
  | nil => exact h
  | cons e writes ih => exact ih (nodup_keys_write h)

theorem mem_keys_writeAll {l : κ} : l ∈ (writeAll entries writes).map Prod.fst ↔
    l ∈ entries.map Prod.fst ∨ l ∈ writes.map Prod.fst := by
  induction writes generalizing entries with
  | nil => simp [writeAll]
  | cons e writes ih =>
    have step : writeAll entries (e :: writes) = writeAll (write entries e.1 e.2) writes := rfl
    rw [step, ih, mem_keys_write, List.map_cons, List.mem_cons, or_assoc, or_left_comm]

/-- There are as many entries as writes exactly if no key is written twice. -/
theorem length_writeAll_eq_iff :
    (writeAll [] writes).length = writes.length ↔ (writes.map Prod.fst).Nodup := by
  have hnodup : ((writeAll [] writes).map Prod.fst).Nodup := nodup_keys_writeAll List.nodup_nil
  have hmem : ∀ l, l ∈ (writeAll [] writes).map Prod.fst ↔ l ∈ writes.map Prod.fst := fun l => by
    simp only [mem_keys_writeAll, List.map_nil, List.not_mem_nil, false_or]
  constructor
  · intro hlength
    have hsub : List.Subperm ((writeAll [] writes).map Prod.fst) (writes.map Prod.fst) :=
      List.subperm_of_subset hnodup fun l hl => (hmem l).mp hl
    have hperm := hsub.perm_of_length_le (by simp [hlength])
    exact hperm.nodup hnodup
  · intro h
    have hperm := (List.perm_ext_iff_of_nodup hnodup h).mpr hmem
    simpa using hperm.length_eq

end Overwriting

import Mathlib.Data.List.Nodup
import Mathlib.Data.Nat.Basic
import Mathlib.Order.Basic

/-!
# A store whose records carry the revision of their last write

Every write draws a fresh revision from one counter and stamps the record it
writes. A reader that later finds its revision unchanged therefore holds the
record as it is now: this is what optimistic concurrency control rests on.
-/

namespace VersionedStore

/-- Records with a key and the revision of their last write. -/
class Versioned (R : Type) (K : outParam Type) where
  /-- The key, which no write changes. -/
  key : R → K
  /-- The revision of the last write. -/
  version : R → ℕ
  /-- Set the revision. -/
  stamp : ℕ → R → R
  /-- Stamping sets the revision. -/
  version_stamp : ∀ n r, version (stamp n r) = n
  /-- Stamping keeps the key. -/
  key_stamp : ∀ n r, key (stamp n r) = key r

open Versioned

attribute [simp] version_stamp key_stamp

variable {R K : Type} [Versioned R K]

/-- Rewriting the records with one key keeps the list of keys. -/
theorem map_key_ite_stamp [DecidableEq K] {f : R → R} (hf : ∀ r, key (f r) = key r) {k : K}
    {n : ℕ} {l : List R} :
    (l.map fun r => if key r = k then stamp n (f r) else r).map key = l.map key := by
  rw [List.map_map]
  apply List.map_congr_left
  intro r _
  by_cases h : key r = k
  · simp only [Function.comp, h, if_true, key_stamp, hf]
  · simp only [Function.comp, h, if_false]

/-- Records with distinct keys, none newer than the revision counter. -/
structure Store (R : Type) {K : Type} [Versioned R K] where
  /-- The revision of the latest write. -/
  revision : ℕ
  /-- The records, in listing order. -/
  records : List R
  /-- No two records share a key. -/
  nodup : (records.map key).Nodup
  /-- No record is newer than the counter. -/
  bounded : ∀ r ∈ records, version r ≤ revision

namespace Store

/-- With distinct keys, two records with one key are the same record. -/
theorem eq_of_key_eq {s : Store R} {r r' : R} (hr : r ∈ s.records) (hr' : r' ∈ s.records)
    (h : key r = key r') : r = r' :=
  List.inj_on_of_nodup_map s.nodup hr hr' h

/-- The store of one record. -/
def singleton (r : R) : Store R where
  revision := version r
  records := [r]
  nodup := by simp
  bounded := by simp

/-! ### Histories of a store -/

/-- Any writes may have happened between `s` and `s'`: records that are still as
they were, records written since (hence newer than `s`), records created or removed. -/
structure Evolves (s s' : Store R) : Prop where
  /-- The counter never goes back. -/
  revision_le : s.revision ≤ s'.revision
  /-- A record of `s'` is a record of `s` or was written after `s`. -/
  old_or_new : ∀ r ∈ s'.records, r ∈ s.records ∨ s.revision < version r

theorem Evolves.refl (s : Store R) : s.Evolves s := ⟨le_rfl, fun _ hr => Or.inl hr⟩

/-- `r` was read from the store at some time up to now: a record that still has
its key and revision is `r` itself. -/
structure Seen (s : Store R) (r : R) : Prop where
  /-- The snapshot is not newer than the counter. -/
  version_le : version r ≤ s.revision
  /-- The snapshot is current as long as its revision is. -/
  current : ∀ r' ∈ s.records, key r' = key r → version r' = version r → r' = r

theorem seen_of_mem {s : Store R} {r : R} (hr : r ∈ s.records) : s.Seen r :=
  ⟨s.bounded r hr, fun _ hr' hkey _ => eq_of_key_eq hr' hr hkey⟩

/-- What was seen stays seen: a later write with the same revision is impossible. -/
theorem Seen.evolves {s s' : Store R} {r : R} (h : s.Seen r) (hs : s.Evolves s') :
    s'.Seen r := by
  refine ⟨h.version_le.trans hs.revision_le, fun r' hr' hkey hversion => ?_⟩
  rcases hs.old_or_new r' hr' with hr' | hnew
  · exact h.current r' hr' hkey hversion
  · have := h.version_le
    omega

/-! ### Reading and writing -/

variable [DecidableEq K]

/-- The record with a given key. -/
def find? (s : Store R) (k : K) : Option R := s.records.find? fun r => key r = k

/-- Replace the record with key `k` by `f` of it, stamped with a fresh revision.
The counter advances even if there is no such record. -/
def modify (s : Store R) (k : K) (f : R → R) (hf : ∀ r, key (f r) = key r) : Store R where
  revision := s.revision + 1
  records := s.records.map fun r => if key r = k then stamp (s.revision + 1) (f r) else r
  nodup := by
    rw [map_key_ite_stamp hf]
    exact s.nodup
  bounded := by
    intro r hr
    obtain ⟨r', hr', rfl⟩ := List.mem_map.mp hr
    have := s.bounded r' hr'
    split
    · rw [version_stamp]
    · omega

theorem key_of_find? {s : Store R} {k : K} {r : R} (h : s.find? k = some r) : key r = k := by
  have := List.find?_some h
  simpa using this

theorem mem_of_find? {s : Store R} {k : K} {r : R} (h : s.find? k = some r) : r ∈ s.records :=
  List.mem_of_find?_eq_some h

theorem find?_of_mem {s : Store R} {r : R} (hr : r ∈ s.records) : s.find? (key r) = some r := by
  cases h : s.find? (key r) with
  | none =>
    have := List.find?_eq_none.mp h r hr
    simp at this
  | some r' => rw [eq_of_key_eq (mem_of_find? h) hr (key_of_find? h)]

theorem find?_eq_some_iff {s : Store R} {k : K} {r : R} :
    s.find? k = some r ↔ r ∈ s.records ∧ key r = k := by
  constructor
  · intro h
    exact ⟨mem_of_find? h, key_of_find? h⟩
  · rintro ⟨hr, rfl⟩
    exact find?_of_mem hr

theorem find?_singleton (r : R) : (singleton r).find? (key r) = some r :=
  find?_of_mem (List.mem_singleton_self r)

section Modify

variable {s : Store R} {k k' : K} {f : R → R} {hf : ∀ r, key (f r) = key r}

theorem mem_modify {r : R} : r ∈ (s.modify k f hf).records ↔
    (r ∈ s.records ∧ key r ≠ k) ∨
      ∃ r' ∈ s.records, key r' = k ∧ r = stamp (s.revision + 1) (f r') := by
  simp only [modify, List.mem_map]
  constructor
  · rintro ⟨r', hr', rfl⟩
    by_cases h : key r' = k
    · exact Or.inr ⟨r', hr', h, by rw [if_pos h]⟩
    · rw [if_neg h]
      exact Or.inl ⟨hr', h⟩
  · rintro (⟨hr, h⟩ | ⟨r', hr', h, rfl⟩)
    · exact ⟨r, hr, if_neg h⟩
    · exact ⟨r', hr', if_pos h⟩

/-- Reading back the record that was written. -/
theorem find?_modify_self {r : R} (h : s.find? k = some r) :
    (s.modify k f hf).find? k = some (stamp (s.revision + 1) (f r)) := by
  rw [find?_eq_some_iff, mem_modify, key_stamp, hf]
  exact ⟨Or.inr ⟨r, mem_of_find? h, key_of_find? h, rfl⟩, key_of_find? h⟩

/-- A write leaves the records with other keys alone. -/
theorem find?_modify_ne (h : k' ≠ k) : (s.modify k f hf).find? k' = s.find? k' := by
  ext r
  simp only [find?_eq_some_iff, mem_modify]
  constructor
  · rintro ⟨⟨hr, _⟩ | ⟨r', _, hk, rfl⟩, hr'⟩
    · exact ⟨hr, hr'⟩
    · rw [key_stamp, hf, hk] at hr'
      exact absurd hr'.symm h
  · rintro ⟨hr, rfl⟩
    exact ⟨Or.inl ⟨hr, h⟩, rfl⟩

/-- Every record that is found after a write was there before, written or not. -/
theorem exists_of_find?_modify {r' : R} (h : (s.modify k f hf).find? k' = some r') :
    ∃ r, s.find? k' = some r ∧ r' = if k' = k then stamp (s.revision + 1) (f r) else r := by
  by_cases heq : k' = k
  · subst heq
    obtain ⟨hmem, hkey⟩ := find?_eq_some_iff.mp h
    rcases mem_modify.mp hmem with ⟨_, hne⟩ | ⟨r, hr, hrkey, rfl⟩
    · exact absurd hkey hne
    · exact ⟨r, find?_eq_some_iff.mpr ⟨hr, hrkey⟩, by rw [if_pos rfl]⟩
  · rw [find?_modify_ne heq] at h
    exact ⟨r', h, by rw [if_neg heq]⟩

end Modify

theorem evolves_modify (s : Store R) (k : K) (f : R → R) (hf : ∀ r, key (f r) = key r) :
    s.Evolves (s.modify k f hf) := by
  refine ⟨Nat.le_succ _, fun r hr => ?_⟩
  rcases mem_modify.mp hr with ⟨hr, _⟩ | ⟨r', hr', h, rfl⟩
  · exact Or.inl hr
  · exact Or.inr (by rw [version_stamp]; exact Nat.lt_succ_self _)

/-- Optimistic concurrency: if the record now stored under the snapshot's key
has the snapshot's revision, it is the snapshot. -/
theorem Seen.eq_of_find? {s : Store R} {r r' : R} (h : s.Seen r)
    (hfind : s.find? (key r) = some r') (hversion : version r' = version r) : r' = r :=
  h.current r' (mem_of_find? hfind) (key_of_find? hfind) hversion

end Store

end VersionedStore

import CiInfra.Lib.Raising
import CiInfra.Lib.Separators
import CiInfra.Nodepools.GenerateNodepools
import Mathlib.Data.Finset.Card

/-!
# The names of node pools

A manifest goes into a file under its name, and the name is put together from the name of a fleet
and the type of an instance. This file shows which definitions get the same name, and with that when
no manifest is overwritten.
-/

namespace CiInfra.Nodepools.Generator

open Runners (DefFile family isExcludedForRegion)

/-! ### The parts of a type -/

/-- The sizes of the known types. -/
def knownSizes : List String :=
  ["2xlarge", "4xlarge", "8xlarge", "12xlarge", "16xlarge", "24xlarge", "32xlarge", "48xlarge",
    "metal", "metal-24xl"]

/-- The families of the known types. -/
def knownFamilies : List String :=
  ["c7a", "c7i", "c7gd", "m6i", "m6id", "m7g", "m7gd", "m7i", "m8g", "m8gd", "r5", "r5d", "r7a",
    "r7g", "r7i", "t4g", "g4dn", "g5", "g6", "p4d", "p5", "p6-b200"]

/-- The families and the sizes of the known types. -/
def typeParts : List (String × String) :=
  [("c7a", "2xlarge"), ("c7a", "4xlarge"), ("c7a", "8xlarge"), ("c7a", "12xlarge"),
    ("c7a", "16xlarge"), ("c7a", "24xlarge"), ("c7a", "48xlarge"), ("c7i", "8xlarge"),
    ("c7i", "12xlarge"), ("c7i", "16xlarge"), ("c7i", "24xlarge"), ("c7i", "metal-24xl"),
    ("c7i", "48xlarge"), ("m6i", "32xlarge"), ("m7i", "8xlarge"), ("m7i", "12xlarge"),
    ("m7i", "16xlarge"), ("m7i", "24xlarge"), ("m7i", "48xlarge"), ("r5", "8xlarge"),
    ("r5", "12xlarge"), ("r5", "16xlarge"), ("r5", "24xlarge"), ("r7a", "8xlarge"),
    ("r7a", "12xlarge"), ("r7a", "16xlarge"), ("r7a", "24xlarge"), ("r7a", "48xlarge"),
    ("r7i", "8xlarge"), ("r7i", "16xlarge"), ("r7i", "24xlarge"), ("r7i", "48xlarge"),
    ("m8g", "8xlarge"), ("m8g", "12xlarge"), ("m8g", "16xlarge"), ("m8g", "24xlarge"),
    ("m8g", "metal-24xl"), ("m8g", "48xlarge"), ("r7g", "12xlarge"), ("r7g", "16xlarge"),
    ("t4g", "2xlarge"), ("m7g", "8xlarge"), ("m7g", "12xlarge"), ("m7g", "16xlarge"),
    ("m7g", "metal"), ("g4dn", "8xlarge"), ("g4dn", "16xlarge"), ("g5", "8xlarge"),
    ("g5", "16xlarge"), ("g6", "8xlarge"), ("g6", "16xlarge"), ("g4dn", "12xlarge"),
    ("g5", "12xlarge"), ("g5", "24xlarge"), ("g6", "12xlarge"), ("g6", "24xlarge"),
    ("g4dn", "metal"), ("g5", "48xlarge"), ("g6", "48xlarge"), ("p4d", "24xlarge"),
    ("p5", "48xlarge"), ("p6-b200", "48xlarge"), ("r7i", "2xlarge"), ("r7i", "12xlarge"),
    ("r5d", "12xlarge"), ("m8gd", "24xlarge"), ("m6id", "24xlarge"), ("c7gd", "16xlarge"),
    ("m7gd", "16xlarge"), ("m8gd", "16xlarge")]

variable {t u : String} {s s' : Section}

theorem knownTypes_eq : knownTypes = (typeParts.map fun p => p.1 ++ "." ++ p.2) ∧
    ∀ p ∈ typeParts, p.1 ∈ knownFamilies ∧ p.2 ∈ knownSizes := by decide +kernel

/-- Families and sizes are written without the letter that is put between them. -/
theorem known_plain : (∀ fam ∈ knownFamilies, '.' ∉ fam.toList ∧ dashed fam = fam) ∧
    ∀ size ∈ knownSizes, dashed size = size ∧ ∀ other ∈ knownSizes, size ++ "-release" ≠ other := by
  decide +kernel

/-- A known type is a family and a size. -/
theorem exists_parts (ht : t ∈ knownTypes) : ∃ fam ∈ knownFamilies, ∃ size ∈ knownSizes,
    t = fam ++ "." ++ size ∧ family t = fam ∧ instanceSize t = size := by
  rw [knownTypes_eq.1] at ht
  obtain ⟨p, hp, rfl⟩ := List.mem_map.mp ht
  obtain ⟨hfam, hsize⟩ := knownTypes_eq.2 p hp
  have hdot := (known_plain.1 _ hfam).1
  have hlist : (p.1 ++ "." ++ p.2).toList = p.1.toList ++ '.' :: p.2.toList := by simp
  refine ⟨p.1, hfam, p.2, hsize, rfl, ?_, ?_⟩
  · rw [family, hlist, Separators.takeWhile_ne_append hdot, String.ofList_toList]
  · rw [instanceSize, hlist, Separators.dropWhile_ne_append hdot, List.drop_one, List.tail_cons,
      String.ofList_toList]

theorem family_mem (ht : t ∈ knownTypes) : family t ∈ knownFamilies := by
  obtain ⟨fam, hfam, -, -, -, rfl, -⟩ := exists_parts ht
  exact hfam

theorem instanceSize_mem (ht : t ∈ knownTypes) : instanceSize t ∈ knownSizes := by
  obtain ⟨-, -, size, hsize, -, -, rfl⟩ := exists_parts ht
  exact hsize

theorem eq_family_append_size (ht : t ∈ knownTypes) : t = family t ++ "." ++ instanceSize t := by
  obtain ⟨fam, -, size, -, heq, hfam, hsize⟩ := exists_parts ht
  rw [hfam, hsize]
  exact heq

theorem dashed_append (x y : String) : dashed (x ++ y) = dashed x ++ dashed y := by
  apply String.toList_injective
  simp [dashed]

theorem dashed_size_of_mem (ht : t ∈ knownTypes) : dashed (instanceSize t) = instanceSize t :=
  (known_plain.2 _ (instanceSize_mem ht)).1

theorem dashed_of_mem (ht : t ∈ knownTypes) : dashed t = family t ++ "-" ++ instanceSize t := by
  calc dashed t = dashed (family t ++ "." ++ instanceSize t) := by rw [← eq_family_append_size ht]
    _ = dashed (family t) ++ "-" ++ dashed (instanceSize t) := by
      rw [dashed_append, dashed_append]
      rfl
    _ = family t ++ "-" ++ instanceSize t := by
      rw [(known_plain.1 _ (family_mem ht)).2, dashed_size_of_mem ht]

/-- The texts that a name ends with, after a dash: a size, and the suffix of a section. -/
def endings : List (List Char) :=
  [Section.instances, Section.release].flatMap fun s =>
    knownSizes.map fun size => (size ++ s.nameSuffix).toList

theorem ending_mem (ht : t ∈ knownTypes) (s : Section) :
    (instanceSize t ++ s.nameSuffix).toList ∈ endings :=
  List.mem_flatMap.mpr ⟨s, by cases s <;> simp, List.mem_map.mpr ⟨_, instanceSize_mem ht, rfl⟩⟩

/-- No ending, and no family, ends with a dash and another one. -/
theorem not_suffix_known : (∀ x ∈ endings, ∀ y ∈ endings, ¬ '-' :: x <:+ y) ∧
    ∀ x ∈ knownFamilies.map String.toList, ∀ y ∈ knownFamilies.map String.toList,
      ¬ '-' :: x <:+ y := by decide +kernel

theorem ending_inj (ht : t ∈ knownTypes) (hu : u ∈ knownTypes)
    (h : instanceSize t ++ s.nameSuffix = instanceSize u ++ s'.nameSuffix) :
    s = s' ∧ instanceSize t = instanceSize u := by
  have htu := (known_plain.2 _ (instanceSize_mem ht)).2 _ (instanceSize_mem hu)
  have hut := (known_plain.2 _ (instanceSize_mem hu)).2 _ (instanceSize_mem ht)
  cases s <;> cases s' <;> simp_all [Section.nameSuffix]

/-! ### Collisions of sizes -/

variable {f g : Fleet} {i j : Instance}

theorem mem_familiesByKey {key : String × String} {fam : String} :
    (key, fam) ∈ f.familiesByKey ↔ ∃ s, ∃ i ∈ f.get s, key = sizeKey s i ∧ fam = family i.type := by
  unfold Fleet.familiesByKey
  rw [List.mem_flatMap]
  constructor
  · rintro ⟨s, -, hs⟩
    obtain ⟨i, hi, heq⟩ := List.mem_map.mp hs
    obtain ⟨hkey, hfam⟩ := Prod.mk.inj heq
    exact ⟨s, i, hi, hkey.symm, hfam.symm⟩
  · rintro ⟨s, i, hi, rfl, rfl⟩
    exact ⟨s, by cases s <;> simp, List.mem_map.mpr ⟨i, hi, rfl⟩⟩

theorem sizeKey_eq_iff : sizeKey s i = sizeKey s' j ↔
    s = s' ∧ instanceSize i.type = instanceSize j.type := by
  have hsuffix : s.nameSuffix = s'.nameSuffix ↔ s = s' := by
    cases s <;> cases s' <;> simp [Section.nameSuffix]
  rw [sizeKey, sizeKey, Prod.mk.injEq, hsuffix, and_comm]

/-- A size collides in a section if two families have it there. -/
theorem mem_fleetSizeCollisions : sizeKey s i ∈ fleetSizeCollisions f ↔
    ∃ j ∈ f.get s, ∃ k ∈ f.get s, instanceSize j.type = instanceSize i.type ∧
      instanceSize k.type = instanceSize i.type ∧ family j.type ≠ family k.type := by
  let families := (f.familiesByKey.filter (·.1 = sizeKey s i)).map Prod.snd
  have hfamilies : ∀ fam, fam ∈ families ↔
      ∃ j ∈ f.get s, instanceSize j.type = instanceSize i.type ∧ fam = family j.type := by
    intro fam
    simp only [families, List.mem_map, List.mem_filter, decide_eq_true_eq, Prod.exists,
      exists_eq_right]
    constructor
    · intro hmem
      obtain ⟨s', j, hj, hkey, hfam⟩ := mem_familiesByKey.mp hmem
      obtain ⟨rfl, hsize⟩ := sizeKey_eq_iff.mp hkey
      exact ⟨j, hj, hsize.symm, hfam⟩
    · rintro ⟨j, hj, hsize, hfam⟩
      exact mem_familiesByKey.mpr ⟨s, j, hj, sizeKey_eq_iff.mpr ⟨rfl, hsize.symm⟩, hfam⟩
  have hcard : 1 < families.dedup.length ↔ ∃ a ∈ families, ∃ b ∈ families, a ≠ b := by
    rw [← List.card_toFinset, Finset.one_lt_card]
    simp only [List.mem_toFinset]
  have hmem : sizeKey s i ∈ fleetSizeCollisions f ↔ 1 < families.dedup.length := by
    simp only [fleetSizeCollisions, List.mem_filter, List.mem_dedup, decide_eq_true_eq, families,
      and_iff_right_iff_imp]
    intro hlength
    obtain ⟨fam, hfam⟩ := List.exists_mem_of_length_pos (Nat.zero_lt_of_lt hlength)
    obtain ⟨e, he, -⟩ := List.mem_map.mp (List.mem_dedup.mp hfam)
    obtain ⟨he, hkey⟩ := List.mem_filter.mp he
    exact List.mem_map.mpr ⟨e, he, of_decide_eq_true hkey⟩
  rw [hmem, hcard]
  constructor
  · rintro ⟨_, ha, _, hb, hne⟩
    obtain ⟨j, hj, hsj, rfl⟩ := (hfamilies _).mp ha
    obtain ⟨k, hk, hsk, rfl⟩ := (hfamilies _).mp hb
    exact ⟨j, hj, k, hk, hsj, hsk, hne⟩
  · rintro ⟨j, hj, k, hk, hsj, hsk, hne⟩
    exact ⟨_, (hfamilies _).mpr ⟨j, hj, hsj, rfl⟩, _, (hfamilies _).mpr ⟨k, hk, hsk, rfl⟩, hne⟩

/-- The name of an instance has its family in it. -/
def Qualified (f : Fleet) (s : Section) (i : Instance) : Prop :=
  f.name ≠ family i.type ∧ sizeKey s i ∈ fleetSizeCollisions f

instance : Decidable (Qualified f s i) := inferInstanceAs (Decidable (_ ∧ _))

/-- Two instances of a fleet that share a section and a size are of one family, or have their
families in their names, except for the family that the fleet is named after. -/
theorem qualified_or (hi : i ∈ f.get s) (hj : j ∈ f.get s)
    (hsize : instanceSize i.type = instanceSize j.type) :
    family i.type = family j.type ∨ Qualified f s i ∨ Qualified f s j := by
  by_cases hfam : family i.type = family j.type
  · exact Or.inl hfam
  · right
    have hcollides : sizeKey s i ∈ fleetSizeCollisions f :=
      mem_fleetSizeCollisions.mpr ⟨i, hi, j, hj, rfl, hsize.symm, hfam⟩
    by_cases hname : f.name = family i.type
    · have hkey : sizeKey s i = sizeKey s j := sizeKey_eq_iff.mpr ⟨rfl, hsize⟩
      exact Or.inr ⟨hname ▸ hfam, hkey ▸ hcollides⟩
    · exact Or.inl ⟨hname, hcollides⟩

/-! ### Names -/

/-- What a name begins with. -/
def stem (f : Fleet) (s : Section) (i : Instance) : String :=
  if Qualified f s i then f.name ++ "-" ++ family i.type else f.name

theorem name_buildFleetNodepoolDef (f : Fleet) (s : Section) (i : Instance) :
    (buildFleetNodepoolDef f s i).name =
      stem f s i ++ "-" ++ (instanceSize i.type ++ s.nameSuffix) := by
  have hsuffix : ∀ name : String,
      (if s.nameSuffix = "" then name else name ++ s.nameSuffix) = name ++ s.nameSuffix := by
    cases s <;> simp [Section.nameSuffix]
  have hname : (buildFleetNodepoolDef f s i).name = (if f.name = family i.type then dashed i.type
      else if (fleetSizeCollisions f).contains (sizeKey s i) then
        f.name ++ "-" ++ family i.type ++ "-" ++ dashed (instanceSize i.type)
      else f.name ++ "-" ++ dashed (instanceSize i.type)) ++ s.nameSuffix := hsuffix _
  rw [hname, dashed_of_mem i.type_mem, dashed_size_of_mem i.type_mem, ← String.append_assoc]
  refine congrArg (· ++ s.nameSuffix) ?_
  by_cases hfam : f.name = family i.type
  · simp [stem, Qualified, hfam]
  · by_cases hkey : sizeKey s i ∈ fleetSizeCollisions f
    · simp [stem, Qualified, hfam, hkey]
    · simp [stem, Qualified, hfam, hkey]

theorem append_dash_inj {x y a b : String} {parts : List (List Char)}
    (hparts : ∀ p ∈ parts, ∀ q ∈ parts, ¬ '-' :: p <:+ q) (ha : a.toList ∈ parts)
    (hb : b.toList ∈ parts) : x ++ "-" ++ a = y ++ "-" ++ b ↔ x = y ∧ a = b := by
  constructor
  · intro h
    have hlist : x.toList ++ '-' :: a.toList = y.toList ++ '-' :: b.toList := by
      simpa using congrArg String.toList h
    obtain ⟨hx, ha⟩ := Separators.append_cons_inj_of_endings hparts ha hb hlist
    exact ⟨String.toList_injective hx, String.toList_injective ha⟩
  · rintro ⟨rfl, rfl⟩
    rfl

/-- Two names are the same if they begin with the same and have the same size and suffix. -/
theorem name_eq_iff : (buildFleetNodepoolDef f s i).name = (buildFleetNodepoolDef g s' j).name ↔
    stem f s i = stem g s' j ∧ s = s' ∧ instanceSize i.type = instanceSize j.type := by
  rw [name_buildFleetNodepoolDef, name_buildFleetNodepoolDef,
    append_dash_inj not_suffix_known.1 (ending_mem i.type_mem s) (ending_mem j.type_mem s')]
  refine and_congr_right fun _ => ⟨ending_inj i.type_mem j.type_mem, ?_⟩
  rintro ⟨rfl, hsize⟩
  rw [hsize]

theorem type_eq_iff (hsize : instanceSize i.type = instanceSize j.type) :
    i.type = j.type ↔ family i.type = family j.type := by
  constructor
  · intro h
    rw [h]
  · intro hfam
    rw [eq_family_append_size i.type_mem, eq_family_append_size j.type_mem, hfam, hsize]

/-- A fleet of one name and a family are told apart in what a name begins with, unless the name of
the other fleet has the family in it. -/
theorem stem_eq_iff (hsize : instanceSize i.type = instanceSize j.type) :
    stem f s i = stem g s' j ↔
      f.name = g.name ∧ (Qualified f s i ↔ Qualified g s' j) ∧
          (Qualified f s i → i.type = j.type) ∨
        f.name = g.name ++ "-" ++ family j.type ∧ ¬ Qualified f s i ∧ Qualified g s' j ∨
        g.name = f.name ++ "-" ++ family i.type ∧ Qualified f s i ∧ ¬ Qualified g s' j := by
  have hmem : ∀ i : Instance, (family i.type).toList ∈ knownFamilies.map String.toList :=
    fun i => List.mem_map.mpr ⟨_, family_mem i.type_mem, rfl⟩
  unfold stem
  by_cases hi : Qualified f s i
  · by_cases hj : Qualified g s' j
    · simp only [hi, hj, if_true, append_dash_inj not_suffix_known.2 (hmem i) (hmem j),
        type_eq_iff hsize]
      simp
    · simp only [hi, hj, if_true, if_false]
      simp [eq_comm]
  · by_cases hj : Qualified g s' j
    · simp [hi, hj]
    · simp [hi, hj]

/-! ### Entries -/

/-- What a manifest is generated for. -/
inductive Entry
  | fleet (f : Fleet) (s : Section) (i : Instance)
  | nodepool (p : RawNodepool) (name instanceType : String)

/-- The definition that an entry is turned into. -/
def Entry.toDef : Entry → NodepoolDef
  | .fleet f s i => buildFleetNodepoolDef f s i
  | .nodepool p name instanceType => p.toDef name instanceType

/-- The entries of a valid fleet. -/
def Fleet.entries (f : Fleet) : List Entry :=
  f.instances.map (Entry.fleet f .instances) ++ f.release.map (Entry.fleet f .release)

/-- The entries of a fleet that are processed in a region. -/
def RawFleet.entries (f : RawFleet) (fileName region : String) : List Entry :=
  if isExcludedForRegion f.excludeRegions region then []
  else match validateFleet f fileName with
    | .ok fleet => fleet.entries
    | .error _ => []

/-- The entry of a legacy definition, if it is processed in a region. -/
def RawNodepool.entries (p : RawNodepool) (region : String) : List Entry :=
  if isExcludedForRegion p.excludeRegions region then []
  else [.nodepool p (p.name.getD "") (p.instanceType.getD "")]

/-- The entries of a definition file that are processed in a region. -/
def fileEntries (region : String) (file : DefFile (Option DefData)) : List Entry :=
  match file.content with
  | .ok (some ⟨some f, _, _⟩) => f.entries file.name region
  | .ok (some ⟨none, some fleets, _⟩) => fleets.flatMap (·.entries file.name region)
  | .ok (some ⟨none, none, some p⟩) => p.entries region
  | _ => []

/-- The entries that are processed, in order. -/
def processed (region : String) (files : List (DefFile (Option DefData))) : List Entry :=
  files.flatMap (fileEntries region)

/-- The name of a legacy definition is put together like the name of an instance. -/
def LooksLike (name : String) (f : Fleet) (s : Section) (i : Instance) : Prop :=
  if Qualified f s i then
    name = f.name ++ "-" ++ family i.type ++ "-" ++ instanceSize i.type ++ s.nameSuffix
  else name = f.name ++ "-" ++ instanceSize i.type ++ s.nameSuffix

/-- Two entries that cannot be told apart. In one section and of one size, instances clash if their
fleets have one name and their families are not in the way, or if the fleet of one is named like the
fleet of the other with the family that is put in there. -/
def Entry.Clash : Entry → Entry → Prop
  | .fleet f s i, .fleet g s' j =>
    s = s' ∧ instanceSize i.type = instanceSize j.type ∧
      (f.name = g.name ∧ (Qualified f s i ↔ Qualified g s' j) ∧
          (Qualified f s i → i.type = j.type) ∨
        f.name = g.name ++ "-" ++ family j.type ∧ ¬ Qualified f s i ∧ Qualified g s' j ∨
        g.name = f.name ++ "-" ++ family i.type ∧ Qualified f s i ∧ ¬ Qualified g s' j)
  | .fleet f s i, .nodepool _ name _ => LooksLike name f s i
  | .nodepool _ name _, .fleet f s i => LooksLike name f s i
  | .nodepool _ name _, .nodepool _ name' _ => name = name'

theorem looksLike_iff {name : String} :
    LooksLike name f s i ↔ name = (buildFleetNodepoolDef f s i).name := by
  rw [name_buildFleetNodepoolDef]
  unfold LooksLike stem
  split
  · simp only [String.append_assoc]
  · simp only [String.append_assoc]

/-- Entries clash exactly if they get the same name. -/
theorem clash_iff {e e' : Entry} : e.Clash e' ↔ e.toDef.name = e'.toDef.name := by
  cases e with
  | fleet f s i =>
    cases e' with
    | fleet g s' j =>
      rw [Entry.toDef, Entry.toDef, name_eq_iff, Entry.Clash]
      constructor
      · rintro ⟨hs, hsize, hstem⟩
        exact ⟨(stem_eq_iff hsize).mpr hstem, hs, hsize⟩
      · rintro ⟨hstem, hs, hsize⟩
        exact ⟨hs, hsize, (stem_eq_iff hsize).mp hstem⟩
    | nodepool p name t => exact looksLike_iff.trans eq_comm
  | nodepool p name t =>
    cases e' with
    | fleet g s' j => exact looksLike_iff
    | nodepool p' name' t' => exact Iff.rfl

theorem ne_append_dash {x y : String} : x ≠ x ++ "-" ++ y := by
  intro h
  have hlength := congrArg String.length h
  simp only [String.length_append] at hlength
  have hdash : "-".length = 1 := rfl
  omega

instance : DecidableRel Entry.Clash := fun _ _ => decidable_of_iff _ clash_iff.symm

/-- Within one fleet, only a type that is listed twice in a section clashes. -/
theorem clash_same_fleet_iff (hi : i ∈ f.get s) (hj : j ∈ f.get s') :
    (Entry.fleet f s i).Clash (.fleet f s' j) ↔ s = s' ∧ i.type = j.type := by
  constructor
  · rintro ⟨rfl, hsize, ⟨-, hiff, htype⟩ | ⟨hname, -⟩ | ⟨hname, -⟩⟩
    · refine ⟨rfl, ?_⟩
      rcases qualified_or hi hj hsize with hfam | hq | hq
      · exact (type_eq_iff hsize).mpr hfam
      · exact htype hq
      · exact htype (hiff.mpr hq)
    · exact absurd hname ne_append_dash
    · exact absurd hname ne_append_dash
  · rintro ⟨rfl, htype⟩
    have hq : Qualified f s i ↔ Qualified f s j := by
      rw [Qualified, Qualified, htype, sizeKey, sizeKey, htype]
    exact ⟨rfl, by rw [htype], Or.inl ⟨rfl, hq, fun _ => htype⟩⟩

/-- A fleet by itself has no clashes if no section lists a type twice. -/
theorem pairwise_entries_iff : f.entries.Pairwise (fun e e' => ¬ e.Clash e') ↔
    ∀ s, ((f.get s).map (·.type)).Nodup := by
  have hsection : ∀ s, ((f.get s).map (Entry.fleet f s)).Pairwise (fun e e' => ¬ e.Clash e') ↔
      ((f.get s).map (·.type)).Nodup := by
    intro s
    rw [List.pairwise_map, List.Nodup, List.pairwise_map]
    refine List.Pairwise.iff_of_mem fun hi hj => not_congr ?_
    rw [clash_same_fleet_iff hi hj]
    simp
  have hacross : ∀ e ∈ (f.get .instances).map (Entry.fleet f .instances),
      ∀ e' ∈ (f.get .release).map (Entry.fleet f .release), ¬ e.Clash e' := by
    intro e he e' he'
    obtain ⟨i, hi, rfl⟩ := List.mem_map.mp he
    obtain ⟨j, hj, rfl⟩ := List.mem_map.mp he'
    rw [clash_same_fleet_iff hi hj]
    simp
  have hentries : f.entries = (f.get .instances).map (Entry.fleet f .instances) ++
      (f.get .release).map (Entry.fleet f .release) := rfl
  rw [hentries, List.pairwise_append, hsection, hsection]
  constructor
  · rintro ⟨hinstances, hrelease, -⟩ s
    cases s with
    | instances => exact hinstances
    | release => exact hrelease
  · intro h
    exact ⟨h .instances, h .release, hacross⟩

/-! ### What a run writes -/

variable {fs : FileSystem} {fileName region : String} {out out' : Output}

/-- Write the manifest of an entry. -/
def Output.putEntry (out : Output) (e : Entry) : Output := out.put e.toDef.manifest

theorem writeNodepool_ok {d : NodepoolDef} (h : writeNodepool fs out d = .ok out') :
    out' = out.put d.manifest := by
  obtain ⟨m, hm, h⟩ := Raising.bind_eq_ok.mp h
  have hmanifest : m = d.manifest := by
    unfold generateNodepoolYaml at hm
    split at hm
    · split at hm
      · exact (Except.ok.inj hm).symm
      · cases hm
    · exact (Except.ok.inj hm).symm
  split at h
  · rw [← Except.ok.inj h, hmanifest]
  · cases h

/-- The instances of a section are written one after the other. -/
theorem foldlM_writeNodepool_ok {insts : List Instance}
    (h : insts.foldlM (fun out i => writeNodepool fs out (buildFleetNodepoolDef f s i)) out =
      .ok out') : out' = (insts.map (Entry.fleet f s)).foldl Output.putEntry out := by
  have hstep : ∀ out i out', writeNodepool fs out (buildFleetNodepoolDef f s i) = .ok out' →
      out' = [Entry.fleet f s i].foldl Output.putEntry out := fun _ _ _ h => writeNodepool_ok h
  rw [List.map_eq_flatMap]
  exact @Raising.foldlM_flatMap _ _ _ _ _ _ Output.putEntry id _ hstep insts out out' h

theorem processFleet_ok {f : RawFleet} (h : processFleet fs fileName region out f = .ok out') :
    out' = (f.entries fileName region).foldl Output.putEntry out := by
  obtain ⟨fleet, hvalid, h⟩ := Raising.bind_eq_ok.mp h
  unfold RawFleet.entries
  split at h
  case isTrue hexcluded =>
    rw [if_pos hexcluded]
    exact (Except.ok.inj h).symm
  case isFalse hexcluded =>
    obtain ⟨mid, hinstances, hrelease⟩ := Raising.bind_eq_ok.mp h
    rw [if_neg hexcluded, hvalid]
    change _ = List.foldl _ _ (_ ++ _)
    rw [List.foldl_append, ← foldlM_writeNodepool_ok hinstances]
    exact foldlM_writeNodepool_ok hrelease

theorem processNodepool_ok {p : RawNodepool}
    (h : processNodepool fs fileName region out p = .ok out') :
    out' = (p.entries region).foldl Output.putEntry out := by
  unfold processNodepool at h
  unfold RawNodepool.entries
  rcases hname : p.name.filter (· ≠ "") with _ | name
  · simp only [hname] at h
    cases h
  · rcases htype : p.instanceType.filter (· ≠ "") with _ | instanceType
    · simp only [hname, htype] at h
      cases h
    · simp only [hname, htype] at h
      split at h
      case isTrue hexcluded =>
        rw [if_pos hexcluded]
        exact (Except.ok.inj h).symm
      case isFalse hexcluded =>
        split at h
        · rw [if_neg hexcluded, (Option.filter_eq_some_iff.mp hname).1,
            (Option.filter_eq_some_iff.mp htype).1]
          exact writeNodepool_ok h
        · cases h

theorem processFile_ok {p p' : Progress} {file : DefFile (Option DefData)}
    (h : processFile fs region p file = .ok p') :
    p'.out = (fileEntries region file).foldl Output.putEntry p.out := by
  obtain ⟨data, hdata, h⟩ := Raising.bind_eq_ok.mp h
  unfold fileEntries
  rw [hdata]
  match data, h with
  | none, h => rw [← Except.ok.inj h]; rfl
  | some ⟨some f, _, _⟩, h =>
    obtain ⟨out, hout, h⟩ := Raising.bind_eq_ok.mp h
    rw [← Except.ok.inj h]
    exact processFleet_ok hout
  | some ⟨none, some fleets, _⟩, h =>
    obtain ⟨out, hout, h⟩ := Raising.bind_eq_ok.mp h
    rw [← Except.ok.inj h]
    exact Raising.foldlM_flatMap (fun _ _ _ h => processFleet_ok h) hout
  | some ⟨none, none, some d⟩, h =>
    obtain ⟨out, hout, h⟩ := Raising.bind_eq_ok.mp h
    rw [← Except.ok.inj h]
    exact processNodepool_ok hout
  | some ⟨none, none, none⟩, h => rw [← Except.ok.inj h]; rfl

/-- A run writes the manifest of every entry, in order. -/
theorem processFiles_ok {p : Progress} {files : List (DefFile (Option DefData))}
    (h : processFiles fs region files = .ok p) :
    p.out = (processed region files).foldl Output.putEntry {} :=
  Raising.foldlM_flatMap (fun _ _ _ h => processFile_ok h) h

/-- The manifest of an entry. -/
def Entry.manifest (e : Entry) : Manifest := e.toDef.manifest

/-- A manifest, under the name of its file. -/
def Entry.named (e : Entry) : String × Manifest := (e.manifest.name ++ ".yaml", e.manifest)

theorem foldl_putEntry (entries : List Entry) (out : Output) :
    entries.foldl Output.putEntry out =
      { directory := Overwriting.writeAll out.directory (entries.map Entry.named)
        emitted := out.emitted ++ entries.map Entry.manifest
        generated := out.generated + entries.length } := by
  induction entries generalizing out with
  | nil => simp [Overwriting.writeAll]
  | cons e entries ih =>
    rw [List.foldl_cons, ih]
    simp only [List.map_cons, List.length_cons, Overwriting.writeAll, List.foldl_cons]
    simp [Output.putEntry, Output.put, Entry.named, Entry.manifest, Nat.add_comm 1,
      Nat.add_assoc]

/-- No manifest is emitted under a name that another one has, and each has its own file. -/
structure NeverOverwrites (out : Output) : Prop where
  distinct : out.emitted.Pairwise fun m m' => m.name ≠ m'.name
  counted : out.directory.length = out.generated

/-- Generating the node pools overwrites nothing exactly if no two of the entries that are processed
clash. -/
theorem neverOverwrites_iff {p : Progress} {files : List (DefFile (Option DefData))}
    (h : processFiles fs region files = .ok p) :
    p.out.emitted = (processed region files).map Entry.manifest ∧
      (NeverOverwrites p.out ↔
        (processed region files).Pairwise fun e e' => ¬ e.Clash e') := by
  have hout := processFiles_ok h
  rw [foldl_putEntry] at hout
  generalize processed region files = entries at hout ⊢
  have hemitted : p.out.emitted = entries.map Entry.manifest := by simp [hout]
  have hnames : (p.out.emitted.Pairwise fun m m' => m.name ≠ m'.name) ↔
      entries.Pairwise fun e e' => ¬ e.Clash e' := by
    rw [hemitted, List.pairwise_map]
    simp only [clash_iff]
    rfl
  have hcounted : p.out.directory.length = p.out.generated ↔
      entries.Pairwise fun e e' => ¬ e.Clash e' := by
    have hlength : p.out.directory.length = p.out.generated ↔
        ((entries.map Entry.named).map Prod.fst).Nodup := by
      rw [← Overwriting.length_writeAll_eq_iff]
      simp [hout]
    rw [hlength, List.Nodup, List.pairwise_map, List.pairwise_map]
    simp only [clash_iff, Entry.named, Entry.manifest, ne_eq, String.append_left_inj]
    rfl
  refine ⟨hemitted, ?_⟩
  constructor
  · rintro ⟨hdistinct, -⟩
    exact hnames.mp hdistinct
  · intro hapart
    exact ⟨hnames.mpr hapart, hcounted.mpr hapart⟩

/-- Files can be written, and there are no scripts. -/
def plainDisk : FileSystem where
  present _ := false
  writable _ := true

/-- A fleet with one size of two families. -/
def twoFamilies : DefFile (Option DefData) where
  name := "c7i-runner.yaml"
  content := .ok (some {
    fleet := some {
      name := some "c7i-runner"
      arch := some "arm64"
      instances := [
        { type := some "m7g.12xlarge", weight := some 100, nodeDiskSize := some 1350 },
        { type := some "m8g.12xlarge", weight := some 60, nodeDiskSize := some 1350 }]
      release := [
        { type := some "m8g.12xlarge", weight := some 60, nodeDiskSize := some 1350 }] } })

theorem neverOverwrites_twoFamilies : ∃ p, processFiles plainDisk "" [twoFamilies] = .ok p ∧
    p.out.directory.map Prod.fst = ["c7i-runner-m7g-12xlarge.yaml", "c7i-runner-m8g-12xlarge.yaml",
      "c7i-runner-12xlarge-release.yaml"] ∧ NeverOverwrites p.out := by
  refine ⟨_, rfl, by decide +kernel, ?_⟩
  exact (@neverOverwrites_iff plainDisk "" _ [twoFamilies] rfl).2.mpr (by decide +kernel)

/-- An instance of a type that is reserved, and one that is not, in one fleet. -/
def reservedAndOnDemand : DefFile (Option DefData) where
  name := "p5.yaml"
  content := .ok (some {
    fleet := some {
      name := some "p5"
      arch := some "amd64"
      instances := [
        { type := some "p5.48xlarge", weight := some 100, nodeDiskSize := some 1000,
          capacityType := "reserved" },
        { type := some "p5.48xlarge", weight := some 50, nodeDiskSize := some 1000 }] } })

theorem not_neverOverwrites : ¬ ∀ (fs : FileSystem) (region : String)
    (files : List (DefFile (Option DefData))) (p : Progress),
    processFiles fs region files = .ok p → NeverOverwrites p.out := by
  intro hall
  have h : ∃ p, processFiles plainDisk "" [reservedAndOnDemand] = .ok p ∧
      p.out.directory.length ≠ p.out.generated := by
    refine ⟨_, rfl, ?_⟩
    decide +kernel
  obtain ⟨p, hp, hne⟩ := h
  exact hne (hall _ _ _ p hp).counted

end CiInfra.Nodepools.Generator

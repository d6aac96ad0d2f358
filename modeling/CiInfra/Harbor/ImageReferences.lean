import Mathlib.Data.List.TakeWhile
import CiInfra.Lib.Separators

/-!
# Repositories of image references

The recovery job purges the repository of a corrupt image from the proxy cache. Which repository an
image reference names is settled by a normalisation: a name without a registry is on Docker Hub, and
a single component there is in the library. The job reads a reference in its own way.
-/

namespace CacheRecovery

open Separators

abbrev Text := List Char

/-! ### Reading a reference -/

def dockerIo : Text := "docker.io".toList

/-- The registries with a proxy cache, and the projects that cache them. -/
def registryToProject : List (Text × Text) :=
  [(dockerIo, "dockerhub-cache".toList), ("ghcr.io".toList, "ghcr-cache".toList),
    ("public.ecr.aws".toList, "ecr-public-cache".toList), ("nvcr.io".toList, "nvcr-cache".toList),
    ("registry.k8s.io".toList, "k8s-cache".toList), ("quay.io".toList, "quay-cache".toList)]

def registries : List Text := registryToProject.map Prod.fst

instance (registry : Text) : Decidable (registry ∈ registries) :=
  decidable_of_iff (registries.contains registry = true) List.contains_iff_mem

/-- What comes before the last occurrence of a character. -/
def beforeLast (c : Char) (s : Text) : Text := ((s.reverse.dropWhile (· ≠ c)).drop 1).reverse

/-- The registry and the repository of an image, if the registry has a proxy cache. -/
def parseImageReference (image : Text) : Option (Text × Text) :=
  let ref := image.takeWhile (· ≠ '@')
  let parts := ref.splitOn '/'
  let last := parts.getLast?.getD []
  let parts := if ':' ∈ last then parts.dropLast ++ [beforeLast ':' last] else parts
  let ref := ['/'].intercalate parts
  let first := ref.takeWhile (· ≠ '/')
  let (registry, repoPath) :=
    match ref.dropWhile (· ≠ '/') with
    | [] => (dockerIo, "library/".toList ++ first)
    | _ :: rest => if '.' ∈ first ∨ ':' ∈ first then (first, rest) else (dockerIo, ref)
  if registry ∈ registries then some (registry, repoPath) else none

/-! ### The grammar of references -/

def IsAlphaNumeric (s : Text) : Prop := s ≠ [] ∧ ∀ c ∈ s, c.isLower = true ∨ c.isDigit = true

def IsSeparator (s : Text) : Prop :=
  s ∈ [".".toList, "_".toList, "__".toList] ∨ s ≠ [] ∧ ∀ c ∈ s, c = '-'

/-- A component of a path. -/
inductive IsComponent : Text → Prop
  | single {s : Text} : IsAlphaNumeric s → IsComponent s
  | more {s separator t : Text} : IsAlphaNumeric s → IsSeparator separator → IsComponent t →
      IsComponent (s ++ (separator ++ t))

def IsDomainComponent (s : Text) : Prop :=
  s ≠ [] ∧ (∀ c ∈ s, c.isAlphanum = true ∨ c = '-') ∧ s.head? ≠ some '-' ∧ s.getLast? ≠ some '-'

inductive IsHost : Text → Prop
  | name {parts : List Text} : parts ≠ [] → (∀ part ∈ parts, IsDomainComponent part) →
      IsHost (['.'].intercalate parts)
  | address {s : Text} : (∀ c ∈ s, c.isAlphanum = true ∨ c = ':') → IsHost ('[' :: (s ++ [']']))

inductive IsDomain : Text → Prop
  | host {s : Text} : IsHost s → IsDomain s
  | port {s port : Text} : IsHost s → port ≠ [] → (∀ c ∈ port, c.isDigit = true) →
      IsDomain (s ++ ':' :: port)

def IsTag (s : Text) : Prop :=
  s ≠ [] ∧ s.length ≤ 128 ∧ (∀ c ∈ s, c.isAlphanum = true ∨ c ∈ ['_', '.', '-']) ∧
    s.head? ∉ [some '.', some '-']

def IsDigest (s : Text) : Prop :=
  ∃ algorithm hex : Text, s = algorithm ++ ':' :: hex ∧ 32 ≤ hex.length ∧
    (∀ c ∈ algorithm, c.isAlphanum = true ∨ c ∈ ['+', '.', '-', '_']) ∧
    ∀ c ∈ hex, c.isDigit = true ∨ c.toLower ∈ ['a', 'b', 'c', 'd', 'e', 'f']

/-- An image reference in the parts that the grammar gives it. -/
structure Reference where
  domain : Option {s : Text // IsDomain s}
  first : {s : Text // IsComponent s}
  more : List {s : Text // IsComponent s}
  tag : Option {s : Text // IsTag s}
  digest : Option {s : Text // IsDigest s}

namespace Reference

/-- The parts of the name, with the domain first if there is one. -/
def parts (r : Reference) : List Text :=
  (r.domain.map Subtype.val).toList ++ (r.first :: r.more).map Subtype.val

def text (r : Reference) : Text :=
  ['/'].intercalate r.parts ++ ((r.tag.map fun tag => ':' :: tag.1).getD [] ++
    (r.digest.map fun digest => '@' :: digest.1).getD [])

end Reference

/-- The registry and the repository that a name is short for. -/
def normalize : List Text → Text × Text
  | [] => (dockerIo, [])
  | [name] => (dockerIo, "library/".toList ++ name)
  | first :: rest =>
    if first = "index.docker.io".toList ∨ first = dockerIo then
      (dockerIo, match rest with
        | [name] => "library/".toList ++ name
        | _ => ['/'].intercalate rest)
    else if first = "localhost".toList ∨ '.' ∈ first ∨ ':' ∈ first ∨ first.map Char.toLower ≠ first
    then (first, ['/'].intercalate rest)
    else (dockerIo, ['/'].intercalate (first :: rest))

/-- What a reference should be read as. -/
def Reference.repository (r : Reference) : Option (Text × Text) :=
  if (normalize r.parts).1 ∈ registries then some (normalize r.parts) else none

/-! ### Separators in references -/

theorem IsComponent.not_mem {s : Text} (h : IsComponent s) {c : Char} (hc : c ∈ ['/', ':', '@']) :
    c ∉ s := by
  have hword {t : Text} (ht : IsAlphaNumeric t) : c ∉ t := fun hmem => by
    have hplain := ht.2 c hmem
    simp only [List.mem_cons, List.not_mem_nil, or_false] at hc
    rcases hc with rfl | rfl | rfl <;> exact absurd hplain (by decide)
  induction h with
  | single h => exact hword h
  | @more s separator t hs hsep _ ih =>
    have hseparator : c ∉ separator := fun hmem => by
      simp only [List.mem_cons, List.not_mem_nil, or_false] at hc
      rcases hsep with hsep | ⟨-, hsep⟩
      · simp only [List.mem_cons, List.not_mem_nil, or_false] at hsep
        rcases hsep with rfl | rfl | rfl <;> rcases hc with rfl | rfl | rfl <;>
          exact absurd hmem (by decide)
      · rcases hc with rfl | rfl | rfl <;> exact absurd (hsep _ hmem) (by decide)
    simp [hword hs, hseparator, ih]

theorem IsHost.not_mem {s : Text} (h : IsHost s) {c : Char} (hc : c ∈ ['/', '@']) : c ∉ s := by
  simp only [List.mem_cons, List.not_mem_nil, or_false] at hc
  cases h with
  | name _ hparts =>
    refine not_mem_intercalate (by rcases hc with rfl | rfl <;> decide) fun part hpart hmem => ?_
    have hplain := (hparts part hpart).2.1 c hmem
    rcases hc with rfl | rfl <;> exact absurd hplain (by decide)
  | address hs =>
    intro hmem
    simp only [List.mem_cons, List.mem_append, List.not_mem_nil, or_false] at hmem
    rcases hmem with rfl | hmem | rfl
    · exact absurd hc (by decide)
    · have hplain := hs c hmem
      rcases hc with rfl | rfl <;> exact absurd hplain (by decide)
    · exact absurd hc (by decide)

theorem IsDomain.not_mem {s : Text} (h : IsDomain s) {c : Char} (hc : c ∈ ['/', '@']) : c ∉ s := by
  cases h with
  | host hs => exact hs.not_mem hc
  | port hs _ hport =>
    intro hmem
    simp only [List.mem_append, List.mem_cons] at hmem
    rcases hmem with hmem | rfl | hmem
    · exact hs.not_mem hc hmem
    · exact absurd hc (by decide)
    · have hdigit := hport c hmem
      simp only [List.mem_cons, List.not_mem_nil, or_false] at hc
      rcases hc with rfl | rfl <;> exact absurd hdigit (by decide)

theorem IsTag.not_mem {s : Text} (h : IsTag s) {c : Char} (hc : c ∈ ['/', ':', '@']) : c ∉ s := by
  intro hmem
  have hplain := h.2.2.1 c hmem
  simp only [List.mem_cons, List.not_mem_nil, or_false] at hc
  rcases hc with rfl | rfl | rfl <;> exact absurd hplain (by decide)

namespace Reference

variable (r : Reference)

theorem exists_parts_eq : ∃ init last, r.parts = init ++ [last] ∧ ':' ∉ last := by
  obtain ⟨init, last, hsplit⟩ := (List.eq_nil_or_concat (r.first :: r.more)).resolve_left
    (List.cons_ne_nil _ _)
  refine ⟨(r.domain.map Subtype.val).toList ++ init.map Subtype.val, last.1, ?_,
    last.2.not_mem (by simp)⟩
  rw [parts, hsplit, List.concat_eq_append, List.map_append, List.append_assoc]
  rfl

theorem not_mem_of_mem_parts {part : Text} (hpart : part ∈ r.parts) {c : Char}
    (hc : c ∈ ['/', '@']) : c ∉ part := by
  rcases List.mem_append.mp hpart with hpart | hpart
  · obtain ⟨domain, -, rfl⟩ := Option.map_eq_some_iff.mp (Option.mem_toList.mp hpart)
    exact domain.2.not_mem hc
  · obtain ⟨component, -, rfl⟩ := List.mem_map.mp hpart
    exact component.2.not_mem (by simp at hc ⊢; tauto)

/-- The text of the tag, with the colon before it. -/
def tagText : Text := (r.tag.map fun tag => ':' :: tag.1).getD []

theorem not_mem_tagText {c : Char} (hc : c ∈ ['/', '@']) : c ∉ r.tagText := by
  unfold tagText
  cases r.tag with
  | none => exact List.not_mem_nil
  | some tag =>
    have htag := tag.2.not_mem (c := c) (by simp at hc ⊢; tauto)
    have hcolon : c ≠ ':' := by rintro rfl; exact absurd hc (by decide)
    simp [htag, hcolon]

end Reference

theorem intercalate_append (sep : Char) (init : List Text) (last s : Text) :
    [sep].intercalate (init ++ [last]) ++ s = [sep].intercalate (init ++ [last ++ s]) := by
  induction init with
  | nil => simp
  | cons part init ih =>
    rw [List.cons_append, List.cons_append,
      List.intercalate_cons_of_ne_nil (by simp), List.intercalate_cons_of_ne_nil (by simp),
      List.append_assoc, ih]

theorem beforeLast_append {s t : Text} {c : Char} (ht : c ∉ t) :
    beforeLast c (s ++ c :: t) = s := by
  have ht' : c ∉ t.reverse := fun h => ht (List.mem_reverse.mp h)
  rw [beforeLast, List.reverse_append, List.reverse_cons, List.append_assoc]
  rw [List.singleton_append, dropWhile_ne_append ht', List.drop_one, List.tail_cons,
    List.reverse_reverse]

/-- The parts of a name without the tag. -/
theorem withoutTag_eq {r : Reference} {init : List Text} {last : Text}
    (hparts : r.parts = init ++ [last]) (hlast : ':' ∉ last) :
    (if ':' ∈ last ++ r.tagText then init ++ [beforeLast ':' (last ++ r.tagText)]
      else init ++ [last ++ r.tagText]) = r.parts := by
  rw [hparts, Reference.tagText]
  cases r.tag with
  | none => simp [hlast]
  | some tag =>
    have htag : ':' ∉ tag.1 := tag.2.not_mem (by decide)
    simp [beforeLast_append htag]

/-- How the parts of a name are read. -/
def readParts : List Text → Text × Text
  | [] => (dockerIo, [])
  | [name] => (dockerIo, "library/".toList ++ name)
  | first :: rest =>
    if '.' ∈ first ∨ ':' ∈ first then (first, ['/'].intercalate rest)
    else (dockerIo, ['/'].intercalate (first :: rest))

/-- The text before the first slash, and what follows it, in a name with its parts. -/
theorem cut_intercalate {first : Text} {rest : List Text} (hfirst : '/' ∉ first)
    (hrest : rest ≠ []) :
    (['/'].intercalate (first :: rest)).takeWhile (· ≠ '/') = first ∧
      (['/'].intercalate (first :: rest)).dropWhile (· ≠ '/') = '/' :: ['/'].intercalate rest := by
  have hsplit : ['/'].intercalate (first :: rest) = first ++ '/' :: ['/'].intercalate rest := by
    rw [List.intercalate_cons_of_ne_nil hrest]
    simp
  rw [hsplit]
  exact ⟨takeWhile_ne_append hfirst _, dropWhile_ne_append hfirst _⟩

theorem readParts_eq {parts : List Text} (hne : parts ≠ []) (hslash : ∀ part ∈ parts, '/' ∉ part) :
    (match (['/'].intercalate parts).dropWhile (· ≠ '/') with
      | [] => (dockerIo, "library/".toList ++ (['/'].intercalate parts).takeWhile (· ≠ '/'))
      | _ :: rest =>
        if '.' ∈ (['/'].intercalate parts).takeWhile (· ≠ '/') ∨
            ':' ∈ (['/'].intercalate parts).takeWhile (· ≠ '/') then
          ((['/'].intercalate parts).takeWhile (· ≠ '/'), rest)
        else (dockerIo, ['/'].intercalate parts)) = readParts parts := by
  cases parts with
  | nil => exact absurd rfl hne
  | cons first rest =>
    have hfirst := hslash first List.mem_cons_self
    cases rest with
    | nil =>
      have htake := takeWhile_ne_eq_self hfirst
      have hdrop : first.dropWhile (· ≠ '/') = [] :=
        List.dropWhile_eq_nil_iff.mpr (List.takeWhile_eq_self_iff.mp htake)
      rw [List.intercalate_singleton, hdrop, htake]
      rfl
    | cons second rest =>
      obtain ⟨htake, hdrop⟩ := cut_intercalate hfirst (List.cons_ne_nil second rest)
      rw [hdrop, htake]
      rfl

theorem parseImageReference_text (r : Reference) : parseImageReference r.text =
    if (readParts r.parts).1 ∈ registries then some (readParts r.parts) else none := by
  obtain ⟨init, last, hparts, hlast⟩ := r.exists_parts_eq
  have hslash : ∀ part ∈ r.parts, '/' ∉ part := fun part hpart =>
    r.not_mem_of_mem_parts hpart (by simp)
  have hat : '@' ∉ ['/'].intercalate r.parts :=
    not_mem_intercalate (by decide) fun part hpart => r.not_mem_of_mem_parts hpart (by simp)
  have hname : r.text.takeWhile (· ≠ '@') = ['/'].intercalate (init ++ [last ++ r.tagText]) := by
    have hfree : '@' ∉ ['/'].intercalate r.parts ++ r.tagText := by
      rw [List.mem_append, not_or]
      exact ⟨hat, r.not_mem_tagText (by simp)⟩
    rw [← intercalate_append, ← hparts, Reference.text, ← List.append_assoc, ← Reference.tagText]
    cases r.digest with
    | none =>
      rw [Option.map_none, Option.getD_none, List.append_nil]
      exact takeWhile_ne_eq_self hfree
    | some digest => exact takeWhile_ne_append hfree digest.1
  have hsplit : (['/'].intercalate (init ++ [last ++ r.tagText])).splitOn '/' =
      init ++ [last ++ r.tagText] := by
    refine List.splitOn_intercalate '/' (fun part hpart => ?_) (by simp)
    rw [hparts] at hslash
    rcases List.mem_append.mp hpart with hpart | hpart
    · exact hslash part (List.mem_append_left _ hpart)
    · obtain rfl := List.mem_singleton.mp hpart
      rw [List.mem_append, not_or]
      exact ⟨hslash last (by simp), r.not_mem_tagText (by simp)⟩
  have hread := readParts_eq (by rw [hparts]; simp) hslash
  unfold parseImageReference
  simp only [hname, hsplit, List.getLast?_concat, Option.getD_some, List.dropLast_concat,
    withoutTag_eq hparts hlast]
  rw [hread]

/-! ### References that are read as they should be -/

def localhost : Text := "localhost".toList

def indexDockerIo : Text := "index.docker.io".toList

/-- The name is no single component that is said to be on Docker Hub, its first part is no other
name of Docker Hub, and, if it is a registry, it can be told from a path by a dot or a colon. -/
def ToldByDots : List Text → Prop
  | first :: _ :: rest =>
    first ≠ localhost ∧ first ≠ indexDockerIo ∧ (first = dockerIo → rest ≠ []) ∧
      ('.' ∈ first ∨ ':' ∈ first ∨ first.map Char.toLower = first)
  | _ => True

theorem dot_mem_of_mem_registries {registry : Text} (h : registry ∈ registries) :
    '.' ∈ registry := by
  have hall : ∀ registry ∈ registries, '.' ∈ registry := by decide +kernel
  exact hall registry h

theorem dockerIo_mem_registries : dockerIo ∈ registries := by decide +kernel

/-- A name that two readings agree on. -/
theorem ite_registries_eq_iff {found found' : Text × Text} :
    (if found.1 ∈ registries then some found else none) =
      (if found'.1 ∈ registries then some found' else none) ↔
      found = found' ∨ found.1 ∉ registries ∧ found'.1 ∉ registries := by
  constructor
  · intro h
    split at h <;> split at h
    · exact Or.inl (Option.some_inj.mp h)
    · cases h
    · cases h
    · exact Or.inr ⟨by assumption, by assumption⟩
  · rintro (rfl | ⟨h, h'⟩)
    · rfl
    · rw [if_neg h, if_neg h']

theorem agrees_iff (first second : Text) (rest : List Text) :
    (readParts (first :: second :: rest) = normalize (first :: second :: rest) ∨
      (readParts (first :: second :: rest)).1 ∉ registries ∧
        (normalize (first :: second :: rest)).1 ∉ registries) ↔
      ToldByDots (first :: second :: rest) := by
  have hdocker := dockerIo_mem_registries
  have hne : indexDockerIo ≠ dockerIo ∧ localhost ≠ indexDockerIo ∧ localhost ≠ dockerIo := by
    decide +kernel
  have hunknown : indexDockerIo ∉ registries ∧ localhost ∉ registries := by decide +kernel
  have hdots : '.' ∈ indexDockerIo ∧ '.' ∈ dockerIo ∧ '.' ∉ localhost ∧ ':' ∉ localhost := by
    decide +kernel
  have hindex : "index.docker.io".toList = indexDockerIo := rfl
  have hlocal : "localhost".toList = localhost := rfl
  simp only [readParts, normalize, ToldByDots, hindex, hlocal]
  by_cases hfirst : first = indexDockerIo
  · subst hfirst
    simp [hdots.1, hdocker, hne.1]
  by_cases hfirst' : first = dockerIo
  · subst hfirst'
    cases rest with
    | nil =>
      have hlonger : second ≠ "library/".toList ++ second := fun h => by
        have hlength := congrArg List.length h
        rw [List.length_append] at hlength
        exact absurd hlength (by simp)
      simpa [hdots.2.1, hdocker, hne.2.2.symm, hne.1.symm] using hlonger
    | cons third rest => simp [hdots.2.1, hne.2.2.symm, hne.1.symm]
  by_cases hlocalhost : first = localhost
  · subst hlocalhost
    simp [hdots.2.2, hdocker, hne.2, hne.2.2.symm]
  by_cases hdot : '.' ∈ first ∨ ':' ∈ first
  · simp only [hfirst, hfirst', hlocalhost, hdot, ← or_assoc, false_or, true_or, if_true, if_false]
    simp [hfirst, hlocalhost]
  · rw [not_or] at hdot
    have hfirstUnknown : first ∉ registries := fun h => hdot.1 (dot_mem_of_mem_registries h)
    by_cases hlower : first.map Char.toLower = first
    · simp [hfirst, hfirst', hlocalhost, hdot, hlower]
    · have hne' : dockerIo ≠ first := fun h => hfirst' h.symm
      simp [hfirst, hfirst', hlocalhost, hdot, hlower, hdocker, hne']

/-- The reference is read as the repository that it names, if the registry has a proxy cache. -/
def FollowsDocker (r : Reference) : Prop := parseImageReference r.text = r.repository

theorem followsDocker_iff (r : Reference) : FollowsDocker r ↔ ToldByDots r.parts := by
  rw [FollowsDocker, parseImageReference_text, Reference.repository, ite_registries_eq_iff]
  rcases r.parts with - | ⟨first, - | ⟨second, rest⟩⟩
  · simp [readParts, normalize, ToldByDots, dockerIo_mem_registries]
  · simp [readParts, normalize, ToldByDots]
  · exact agrees_iff first second rest

theorem isComponent_nginx : IsComponent "nginx".toList :=
  .single ⟨by decide, by decide⟩

theorem isDomain_dockerIo : IsDomain dockerIo :=
  .host (@IsHost.name ["docker".toList, "io".toList] (by decide) (by
    simp only [IsDomainComponent]
    decide))

def dockerIoNginx : Reference :=
  ⟨some ⟨dockerIo, isDomain_dockerIo⟩, ⟨"nginx".toList, isComponent_nginx⟩, [], none, none⟩

/-- A single component is not put in the library if the registry is given. -/
theorem not_followsDocker_dockerIoNginx : ¬ FollowsDocker dockerIoNginx := by
  unfold FollowsDocker
  decide +kernel

end CacheRecovery

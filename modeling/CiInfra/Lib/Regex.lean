import CiInfra.Lib.Characters
import Mathlib.Computability.Language

/-!
# Regular expressions that backtrack

A backtracking matcher tries the ways to match in an order and takes the first with which the rest
matches too. Here it gives all ways in that order, so a match is the first of them, and what a
pattern captures follows from which ways there are and from how they are ordered.
-/

/-- A regular expression. A group captures what it matches, under its number. -/
inductive Regex
  | empty
  | char (p : Char → Bool)
  | seq (a b : Regex)
  | alt (a b : Regex)
  | star (a : Regex)
  | group (n : ℕ) (a : Regex)

namespace Regex

/-- What the groups have captured, the latest first, and the text that is still to be matched. -/
structure Way where
  captures : List (ℕ × List Char)
  rest : List Char

/-- What a group has captured. -/
def Way.capture (w : Way) (n : ℕ) : List Char := ((w.captures.find? (·.1 = n)).map (·.2)).getD []

/-- As often as possible, but at most so often, and each time something is consumed. -/
def repeated (ways : Way → List Way) : ℕ → Way → List Way
  | 0, w => [w]
  | fuel + 1, w =>
    ((ways w).flatMap fun v =>
      if v.rest.length < w.rest.length then repeated ways fuel v else []) ++ [w]

/-- The ways in which a match can begin, in the order in which they are tried. -/
def ways : Regex → Way → List Way
  | empty, w => [w]
  | char p, w =>
    match w.rest with
    | [] => []
    | c :: rest => if p c then [⟨w.captures, rest⟩] else []
  | seq a b, w => (a.ways w).flatMap b.ways
  | alt a b, w => a.ways w ++ b.ways w
  | star a, w => repeated a.ways w.rest.length w
  | group n a, w =>
    (a.ways w).map fun v =>
      ⟨(n, w.rest.take (w.rest.length - v.rest.length)) :: v.captures, v.rest⟩

/-- The match at the beginning of a text. -/
def matchStart (r : Regex) (s : List Char) : Option Way := (r.ways ⟨[], s⟩).head?

/-- The first match in a text. -/
def search (r : Regex) : List Char → Option Way
  | [] => r.matchStart []
  | c :: s => (r.matchStart (c :: s)).or (search r s)

/-- At least once. -/
def plus (a : Regex) : Regex := seq a (star a)

/-- A character. -/
def lit (c : Char) : Regex := char (· = c)

/-- A text. -/
def text : List Char → Regex
  | [] => empty
  | c :: s => seq (lit c) (text s)

/-- One of some texts, tried in their order. -/
def words : List (List Char) → Regex
  | [] => char fun _ => false
  | s :: ss => alt (text s) (words ss)

example : (search (seq (group 1 (plus (char Char.isDigit))) (lit '.')) "a12.3".toList).map
    (·.capture 1) = some ['1', '2'] := by
  decide

variable {a b : Regex} {w v : Way}

/-! ### What is matched -/

theorem mem_ways_seq : v ∈ (seq a b).ways w ↔ ∃ u ∈ a.ways w, v ∈ b.ways u := List.mem_flatMap

theorem mem_ways_char {p : Char → Bool} :
    v ∈ (char p).ways w ↔
      ∃ c, p c = true ∧ w.rest = c :: v.rest ∧ v.captures = w.captures := by
  obtain ⟨captures, rest⟩ := w
  cases rest with
  | nil => simp [ways]
  | cons c rest =>
    obtain ⟨captures', rest'⟩ := v
    simp only [ways]
    split
    · rename_i hc
      simp only [List.mem_singleton, Way.mk.injEq, List.cons.injEq]
      constructor
      · rintro ⟨rfl, rfl⟩
        exact ⟨c, hc, ⟨rfl, rfl⟩, rfl⟩
      · rintro ⟨_, _, ⟨rfl, rfl⟩, rfl⟩
        exact ⟨rfl, rfl⟩
    · rename_i hc
      simp only [List.not_mem_nil, List.cons.injEq, false_iff, not_exists]
      rintro _ ⟨hp, ⟨rfl, -⟩, -⟩
      exact hc hp

theorem mem_ways_lit {c : Char} :
    v ∈ (lit c).ways w ↔ w.rest = c :: v.rest ∧ v.captures = w.captures := by
  rw [lit, mem_ways_char]
  simp

theorem mem_ways_text {s : List Char} :
    v ∈ (text s).ways w ↔ w.rest = s ++ v.rest ∧ v.captures = w.captures := by
  induction s generalizing w with
  | nil =>
    obtain ⟨captures, rest⟩ := w
    obtain ⟨captures', rest'⟩ := v
    simp only [text, ways, List.mem_singleton, Way.mk.injEq, List.nil_append]
    constructor
    · rintro ⟨rfl, rfl⟩
      exact ⟨rfl, rfl⟩
    · rintro ⟨rfl, rfl⟩
      exact ⟨rfl, rfl⟩
  | cons c s ih =>
    rw [text, mem_ways_seq]
    simp only [mem_ways_lit, ih]
    constructor
    · rintro ⟨u, ⟨hrest, hcaptures⟩, hrest', hcaptures'⟩
      exact ⟨by rw [hrest, hrest']; rfl, hcaptures'.trans hcaptures⟩
    · rintro ⟨hrest, hcaptures⟩
      exact ⟨⟨w.captures, s ++ v.rest⟩, ⟨hrest, rfl⟩, rfl, hcaptures⟩

theorem mem_ways_alt : v ∈ (alt a b).ways w ↔ v ∈ a.ways w ∨ v ∈ b.ways w := List.mem_append

theorem mem_ways_group {n : ℕ} :
    v ∈ (group n a).ways w ↔ ∃ u ∈ a.ways w,
      v = ⟨(n, w.rest.take (w.rest.length - u.rest.length)) :: u.captures, u.rest⟩ := by
  simp only [ways, List.mem_map, eq_comm]

/-! ### Repetition -/

/-- So often is often enough. -/
theorem repeated_eq_repeated {f : Way → List Way} {m n : ℕ} (hm : w.rest.length ≤ m)
    (hn : w.rest.length ≤ n) : repeated f m w = repeated f n w := by
  have hzero {k : ℕ} {w : Way} (hw : w.rest.length = 0) : repeated f k w = [w] := by
    cases k with
    | zero => rfl
    | succ k => simp [repeated, hw]
  induction m generalizing n w with
  | zero => rw [hzero (Nat.le_zero.mp hm), hzero (Nat.le_zero.mp hm)]
  | succ m ih =>
    cases n with
    | zero => rw [hzero (Nat.le_zero.mp hn), hzero (Nat.le_zero.mp hn)]
    | succ n =>
      rw [repeated, repeated]
      congr 2
      funext v
      split
      · exact ih (by omega) (by omega)
      · rfl

theorem ways_star (a : Regex) (w : Way) :
    (star a).ways w = ((a.ways w).flatMap fun v =>
      if v.rest.length < w.rest.length then (star a).ways v else []) ++ [w] := by
  rw [ways, repeated_eq_repeated (Nat.le_refl _) (Nat.le_succ _), repeated]
  congr 2
  funext v
  split
  · rw [ways, repeated_eq_repeated (Nat.le_of_lt ‹_›) (Nat.le_refl _)]
  · rfl

theorem ways_star_of_ways_eq_nil (h : a.ways w = []) : (star a).ways w = [w] := by
  rw [ways_star, h]
  rfl

theorem mem_ways_star :
    v ∈ (star a).ways w ↔
      (∃ u ∈ a.ways w, u.rest.length < w.rest.length ∧ v ∈ (star a).ways u) ∨ v = w := by
  rw [ways_star, List.mem_append, List.mem_singleton, List.mem_flatMap]
  refine or_congr_left (exists_congr fun u => and_congr_right fun _ => ?_)
  split <;> simp [*]

/-- Every way leaves a part of the text at its end. -/
theorem rest_suffix {r : Regex} (h : v ∈ r.ways w) : v.rest <:+ w.rest := by
  induction r generalizing v w with
  | empty =>
    obtain rfl := List.mem_singleton.mp h
    exact List.suffix_rfl
  | char p =>
    obtain ⟨c, -, hrest, -⟩ := mem_ways_char.mp h
    rw [hrest]
    exact List.suffix_cons _ _
  | seq a b iha ihb =>
    obtain ⟨u, hu, hv⟩ := mem_ways_seq.mp h
    exact (ihb hv).trans (iha hu)
  | alt a b iha ihb => exact (mem_ways_alt.mp h).elim iha ihb
  | group n a ih =>
    obtain ⟨u, hu, rfl⟩ := mem_ways_group.mp h
    have hsuffix : u.rest <:+ w.rest := ih hu
    exact hsuffix
  | star a ih =>
    generalize hn : w.rest.length = n
    induction n using Nat.strongRecOn generalizing w with
    | ind n ihn =>
      rcases mem_ways_star.mp h with ⟨u, hu, hlt, hv⟩ | rfl
      · exact (ihn _ (hn ▸ hlt) hv rfl).trans (ih hu)
      · exact List.suffix_rfl

theorem ways_star_char_nil (p : Char → Bool) (captures : List (ℕ × List Char)) :
    (star (char p)).ways ⟨captures, []⟩ = [⟨captures, []⟩] := rfl

theorem ways_star_char_cons (p : Char → Bool) (captures : List (ℕ × List Char)) (c : Char)
    (rest : List Char) :
    (star (char p)).ways ⟨captures, c :: rest⟩ =
      if p c = true then (star (char p)).ways ⟨captures, rest⟩ ++ [⟨captures, c :: rest⟩]
      else [⟨captures, c :: rest⟩] := by
  rw [ways_star]
  simp only [ways]
  split <;> simp

/-- A repeated character matches a run. -/
theorem mem_ways_star_char {p : Char → Bool} :
    v ∈ (star (char p)).ways w ↔
      ∃ run, w.rest = run ++ v.rest ∧ (∀ c ∈ run, p c = true) ∧ v.captures = w.captures := by
  obtain ⟨captures, rest⟩ := w
  obtain ⟨captures', rest'⟩ := v
  induction rest with
  | nil =>
    rw [ways_star_char_nil]
    simp only [List.mem_singleton, Way.mk.injEq, List.nil_eq_append_iff]
    constructor
    · rintro ⟨rfl, rfl⟩
      exact ⟨[], ⟨rfl, rfl⟩, by simp, rfl⟩
    · rintro ⟨_, ⟨-, rfl⟩, -, rfl⟩
      exact ⟨rfl, rfl⟩
  | cons c rest ih =>
    have hself : (⟨captures', rest'⟩ : Way) = ⟨captures, c :: rest⟩ ↔
        rest' = c :: rest ∧ captures' = captures := by
      rw [Way.mk.injEq, and_comm]
    rw [ways_star_char_cons]
    constructor
    · intro h
      split at h
      · rename_i hc
        rcases List.mem_append.mp h with h | h
        · obtain ⟨run, hrest, hrun, hcaptures⟩ := ih.mp h
          exact ⟨c :: run, congrArg (c :: ·) hrest, List.forall_mem_cons.mpr ⟨hc, hrun⟩, hcaptures⟩
        · obtain ⟨rfl, rfl⟩ := hself.mp (List.mem_singleton.mp h)
          exact ⟨[], rfl, by simp, rfl⟩
      · obtain ⟨rfl, rfl⟩ := hself.mp (List.mem_singleton.mp h)
        exact ⟨[], rfl, by simp, rfl⟩
    · rintro ⟨run, hrest, hrun, hcaptures⟩
      cases run with
      | nil =>
        have hw := hself.mpr ⟨hrest.symm, hcaptures⟩
        rw [hw]
        split <;> simp
      | cons c' run =>
        obtain ⟨rfl, htail⟩ := List.cons.inj hrest
        obtain ⟨hc, hrun⟩ := List.forall_mem_cons.mp hrun
        rw [if_pos hc]
        exact List.mem_append_left _ (ih.mpr ⟨run, htail, hrun, hcaptures⟩)

theorem mem_ways_plus_char {p : Char → Bool} :
    v ∈ (plus (char p)).ways w ↔ ∃ run, w.rest = run ++ v.rest ∧ run ≠ [] ∧
      (∀ c ∈ run, p c = true) ∧ v.captures = w.captures := by
  rw [plus, mem_ways_seq]
  simp only [mem_ways_char, mem_ways_star_char]
  constructor
  · rintro ⟨u, ⟨c, hc, hrest, hcaptures⟩, run, hrest', hrun, hcaptures'⟩
    exact ⟨c :: run, by rw [hrest, hrest']; rfl, List.cons_ne_nil _ _,
      List.forall_mem_cons.mpr ⟨hc, hrun⟩, hcaptures'.trans hcaptures⟩
  · rintro ⟨run, hrest, hne, hrun, hcaptures⟩
    obtain ⟨c, run, rfl⟩ := List.exists_cons_of_ne_nil hne
    obtain ⟨hc, hrun⟩ := List.forall_mem_cons.mp hrun
    exact ⟨⟨w.captures, run ++ v.rest⟩, ⟨c, hc, hrest, rfl⟩, run, rfl, hrun, hcaptures⟩

/-! ### Languages -/

/-- Runs of some kind of character. -/
def runs (p : Char → Bool) : Language Char := {s | ∀ c ∈ s, p c = true}

def nonemptyRuns (p : Char → Bool) : Language Char := {s | s ≠ [] ∧ ∀ c ∈ s, p c = true}

instance (p : Char → Bool) (s : List Char) : Decidable (s ∈ runs p) :=
  inferInstanceAs (Decidable (∀ c ∈ s, p c = true))

theorem append_mem_runs {p : Char → Bool} {s t : List Char} (hs : s ∈ runs p) (ht : t ∈ runs p) :
    s ++ t ∈ runs p := fun c hc => (List.mem_append.mp hc).elim (hs c) (ht c)

/-- Some texts. -/
def texts (ss : List (List Char)) : Language Char := {s | s ∈ ss}

/-- The pattern matches the words of a language, and captures nothing. -/
def HasLanguage (r : Regex) (l : Language Char) : Prop :=
  ∀ w v, v ∈ r.ways w ↔ ∃ u ∈ l, w.rest = u ++ v.rest ∧ v.captures = w.captures

theorem hasLanguage_lit (c : Char) : HasLanguage (lit c) {[c]} := by
  intro w v
  rw [mem_ways_lit]
  constructor
  · exact fun h => ⟨[c], rfl, h⟩
  · rintro ⟨_, rfl, h⟩
    exact h

theorem hasLanguage_words (ss : List (List Char)) : HasLanguage (words ss) (texts ss) := by
  intro w v
  induction ss with
  | nil =>
    rw [words, mem_ways_char]
    constructor
    · rintro ⟨c, hc, -⟩
      cases hc
    · rintro ⟨u, hu, -⟩
      cases hu
  | cons s ss ih =>
    rw [words, mem_ways_alt, mem_ways_text, ih]
    constructor
    · rintro (h | ⟨u, hu, h⟩)
      · exact ⟨s, List.mem_cons_self, h⟩
      · exact ⟨u, List.mem_cons_of_mem _ hu, h⟩
    · rintro ⟨u, hu, h⟩
      rcases List.mem_cons.mp hu with rfl | hu
      · exact Or.inl h
      · exact Or.inr ⟨u, hu, h⟩

theorem hasLanguage_star_char (p : Char → Bool) :
    HasLanguage (star (char p)) (runs p) := by
  intro w v
  rw [mem_ways_star_char]
  exact exists_congr fun _ => and_left_comm

theorem hasLanguage_plus_char (p : Char → Bool) :
    HasLanguage (plus (char p)) (nonemptyRuns p) := by
  intro w v
  rw [mem_ways_plus_char]
  constructor
  · rintro ⟨run, hrest, hne, hrun, hcaptures⟩
    exact ⟨run, ⟨hne, hrun⟩, hrest, hcaptures⟩
  · rintro ⟨run, ⟨hne, hrun⟩, hrest, hcaptures⟩
    exact ⟨run, hrest, hne, hrun, hcaptures⟩

theorem HasLanguage.seq {l m : Language Char} (ha : HasLanguage a l) (hb : HasLanguage b m) :
    HasLanguage (seq a b) (l * m) := by
  intro w v
  rw [mem_ways_seq]
  simp only [ha w, hb _ v]
  constructor
  · rintro ⟨u, ⟨x, hx, hrest, hcaptures⟩, y, hy, hrest', hcaptures'⟩
    refine ⟨x ++ y, Language.append_mem_mul hx hy, ?_, hcaptures'.trans hcaptures⟩
    rw [hrest, hrest', List.append_assoc]
  · rintro ⟨_, hxy, hrest, hcaptures⟩
    obtain ⟨x, hx, y, hy, rfl⟩ := Language.mem_mul.mp hxy
    exact ⟨⟨w.captures, y ++ v.rest⟩, ⟨x, hx, by rw [hrest, List.append_assoc], rfl⟩,
      y, hy, rfl, hcaptures⟩

/-- A word that is repeated is not empty. -/
theorem HasLanguage.star {l : Language Char} (ha : HasLanguage a l) (hne : [] ∉ l) :
    HasLanguage (star a) (KStar.kstar l) := by
  intro w v
  generalize hn : w.rest.length = n
  induction n using Nat.strongRecOn generalizing w with
  | ind n ih =>
    rw [mem_ways_star]
    constructor
    · rintro (⟨u, hu, hlt, hv⟩ | rfl)
      · obtain ⟨x, hx, hrest, hcaptures⟩ := (ha w u).mp hu
        obtain ⟨y, hy, hrest', hcaptures'⟩ := (ih _ (hn ▸ hlt) u rfl).mp hv
        refine ⟨x ++ y, ?_, by rw [hrest, hrest', List.append_assoc], hcaptures'.trans hcaptures⟩
        obtain ⟨ys, rfl, hys⟩ := Language.mem_kstar.mp hy
        exact Language.mem_kstar.mpr ⟨x :: ys, rfl, List.forall_mem_cons.mpr ⟨hx, hys⟩⟩
      · exact ⟨[], Language.nil_mem_kstar l, rfl, rfl⟩
    · rintro ⟨_, hx, hrest, hcaptures⟩
      obtain ⟨xs, rfl, hxs⟩ := Language.mem_kstar.mp hx
      cases xs with
      | nil =>
        right
        obtain ⟨captures, rest⟩ := v
        obtain ⟨captures', rest'⟩ := w
        obtain rfl : captures = captures' := hcaptures
        obtain rfl : rest' = rest := hrest
        rfl
      | cons x xs =>
        obtain ⟨hx, hxs⟩ := List.forall_mem_cons.mp hxs
        have hpos : 0 < x.length := List.length_pos_iff.mpr fun h => hne (h ▸ hx)
        rw [List.flatten_cons, List.append_assoc] at hrest
        have hlt : (xs.flatten ++ v.rest).length < w.rest.length := by
          simp only [hrest, List.length_append]
          omega
        left
        refine ⟨⟨w.captures, xs.flatten ++ v.rest⟩, (ha w _).mpr ⟨x, hx, hrest, rfl⟩, hlt, ?_⟩
        exact (ih _ (hn ▸ hlt) _ rfl).mpr
          ⟨xs.flatten, Language.mem_kstar.mpr ⟨xs, rfl, hxs⟩, rfl, hcaptures⟩

theorem HasLanguage.mem_ways_group {l : Language Char} (ha : HasLanguage a l) {n : ℕ} :
    v ∈ (group n a).ways w ↔
      ∃ u ∈ l, w.rest = u ++ v.rest ∧ v.captures = (n, u) :: w.captures := by
  rw [Regex.mem_ways_group]
  have htake {u rest : List Char} (h : w.rest = u ++ rest) :
      w.rest.take (w.rest.length - rest.length) = u := by
    rw [h, List.length_append, Nat.add_sub_cancel, List.take_left]
  constructor
  · rintro ⟨x, hx, rfl⟩
    obtain ⟨u, hu, hrest, hcaptures⟩ := (ha w x).mp hx
    exact ⟨u, hu, hrest, by rw [htake hrest, hcaptures]⟩
  · rintro ⟨u, hu, hrest, hcaptures⟩
    refine ⟨⟨w.captures, v.rest⟩, (ha w _).mpr ⟨u, hu, hrest, rfl⟩, ?_⟩
    rw [htake hrest, ← hcaptures]

/-- A pattern matches when the text begins with a word of its language. -/
theorem HasLanguage.ways_ne_nil_iff {l : Language Char} (ha : HasLanguage a l) :
    a.ways w ≠ [] ↔ ∃ u ∈ l, u <+: w.rest := by
  constructor
  · intro hne
    obtain ⟨v, hv⟩ := List.exists_mem_of_ne_nil _ hne
    obtain ⟨u, hu, hrest, -⟩ := (ha w v).mp hv
    exact ⟨u, hu, v.rest, hrest.symm⟩
  · rintro ⟨u, hu, rest, hrest⟩
    exact List.ne_nil_of_mem ((ha w ⟨w.captures, rest⟩).mpr ⟨u, hu, hrest.symm, rfl⟩)

/-! ### What is tried first -/

/-- The ways that leave less are tried first. -/
def Greedy (ws : List Way) : Prop := ws.Pairwise fun v u => v.rest.length < u.rest.length

theorem greedy_ways_star_char (p : Char → Bool) (w : Way) : Greedy ((star (char p)).ways w) := by
  obtain ⟨captures, rest⟩ := w
  induction rest with
  | nil => exact List.pairwise_singleton _ _
  | cons c rest ih =>
    rw [ways_star_char_cons]
    split
    · refine List.pairwise_append.mpr ⟨ih, List.pairwise_singleton _ _, fun v hv u hu => ?_⟩
      rw [List.mem_singleton.mp hu]
      exact Nat.lt_succ_of_le (rest_suffix hv).length_le
    · exact List.pairwise_singleton _ _

theorem greedy_ways_plus_char (p : Char → Bool) (w : Way) : Greedy ((plus (char p)).ways w) := by
  obtain ⟨captures, rest⟩ := w
  cases rest with
  | nil => exact List.Pairwise.nil
  | cons c rest =>
    simp only [plus, ways]
    split
    · rw [List.flatMap_singleton]
      exact greedy_ways_star_char p _
    · exact List.Pairwise.nil

/-- A character is matched in one way at most. -/
theorem pairwise_ways_char (p : Char → Bool) (w : Way) :
    ((char p).ways w).Pairwise fun _ _ => False := by
  obtain ⟨captures, rest⟩ := w
  cases rest with
  | nil => exact List.Pairwise.nil
  | cons c rest =>
    simp only [ways]
    split
    · exact List.pairwise_singleton _ _
    · exact List.Pairwise.nil

theorem pairwise_ways_seq {R S : Way → Way → Prop} (ha : (a.ways w).Pairwise S)
    (hb : ∀ u ∈ a.ways w, (b.ways u).Pairwise R)
    (hab : ∀ u v, S u v → ∀ x ∈ b.ways u, ∀ y ∈ b.ways v, R x y) :
    ((seq a b).ways w).Pairwise R :=
  List.pairwise_flatMap.mpr ⟨hb, ha.imp fun {u v} => hab u v⟩

/-- So is a text. -/
theorem pairwise_ways_text (s : List Char) (w : Way) :
    ((text s).ways w).Pairwise fun _ _ => False := by
  induction s generalizing w with
  | nil => exact List.pairwise_singleton _ _
  | cons c s ih =>
    exact pairwise_ways_seq (pairwise_ways_char _ w) (fun u _ => ih u) fun _ _ h => h.elim

/-- So is one of some texts, when their first characters tell them apart. -/
theorem pairwise_ways_words {ss : List (List Char)} (hne : [] ∉ ss)
    (hheads : ss.Pairwise fun s t => s.head? ≠ t.head?) (w : Way) :
    ((words ss).ways w).Pairwise fun _ _ => False := by
  induction ss with
  | nil =>
    obtain ⟨captures, rest⟩ := w
    cases rest <;> exact List.Pairwise.nil
  | cons s ss ih =>
    obtain ⟨hs, hss⟩ := not_or.mp (mt List.mem_cons.mpr hne)
    obtain ⟨hfirst, hheads⟩ := List.pairwise_cons.mp hheads
    refine List.pairwise_append.mpr ⟨pairwise_ways_text s w, ih hss hheads, fun v hv u hu => ?_⟩
    obtain ⟨t, ht, hrest, -⟩ := (hasLanguage_words ss w u).mp hu
    obtain ⟨hrest', -⟩ := mem_ways_text.mp hv
    refine hfirst t ht ?_
    have hhead := congrArg List.head? (hrest'.symm.trans hrest)
    rwa [List.head?_append_of_ne_nil _ (Ne.symm hs),
      List.head?_append_of_ne_nil _ fun h => hss (h ▸ ht)] at hhead

/-- Repetition leaves less first, apart from ways after which it is stuck. -/
theorem pairwise_ways_star {Stuck : List Char → Prop}
    (hone : ∀ w, (a.ways w).Pairwise fun _ u => Stuck u.rest)
    (hstuck : ∀ w : Way, Stuck w.rest → a.ways w = []) (w : Way) :
    ((star a).ways w).Pairwise fun v u =>
      Stuck u.rest ∨ a.ways u ≠ [] ∧ v.rest.length ≤ u.rest.length := by
  generalize hn : w.rest.length = n
  induction n using Nat.strongRecOn generalizing w with
  | ind n ih =>
    have hself {v : Way} (hv : v ∈ (star a).ways w) : v.rest.length ≤ w.rest.length :=
      (rest_suffix hv).length_le
    rw [ways_star] at hself ⊢
    refine List.pairwise_append.mpr ⟨List.pairwise_flatMap.mpr ⟨fun u _ => ?_, ?_⟩,
      List.pairwise_singleton _ _, fun v hv u hu => ?_⟩
    · split
      · exact ih _ (hn ▸ ‹_›) u rfl
      · exact List.Pairwise.nil
    · refine (hone w).imp fun {u u'} hu' v _ v' hv' => Or.inl ?_
      split at hv'
      · rw [ways_star_of_ways_eq_nil (hstuck u' hu'), List.mem_singleton] at hv'
        rwa [hv']
      · cases hv'
    · rw [List.mem_singleton.mp hu]
      obtain ⟨u', hu', -⟩ := List.mem_flatMap.mp hv
      exact Or.inr ⟨List.ne_nil_of_mem hu', hself (List.mem_append_left _ hv)⟩

theorem pairwise_ways_group {R : List Char → List Char → Prop} {n : ℕ} :
    ((group n a).ways w).Pairwise (fun v u => R v.rest u.rest) ↔
      (a.ways w).Pairwise fun v u => R v.rest u.rest := List.pairwise_map

/-- A repeated character stops first where it cannot go on. -/
theorem pairwise_ways_star_char (p : Char → Bool) (w : Way) :
    ((star (char p)).ways w).Pairwise fun _ u => ∃ c ∈ u.rest.head?, p c = true := by
  obtain ⟨captures, rest⟩ := w
  induction rest with
  | nil => exact List.pairwise_singleton _ _
  | cons c rest ih =>
    rw [ways_star_char_cons]
    split
    · refine List.pairwise_append.mpr ⟨ih, List.pairwise_singleton _ _, fun v _ u hu => ?_⟩
      rw [List.mem_singleton.mp hu]
      exact ⟨c, rfl, ‹_›⟩
    · exact List.pairwise_singleton _ _

theorem pairwise_ways_plus_char (p : Char → Bool) (w : Way) :
    ((plus (char p)).ways w).Pairwise fun _ u => ∃ c ∈ u.rest.head?, p c = true := by
  obtain ⟨captures, rest⟩ := w
  cases rest with
  | nil => exact List.Pairwise.nil
  | cons c rest =>
    simp only [plus, ways]
    split
    · rw [List.flatMap_singleton]
      exact pairwise_ways_star_char p _
    · exact List.Pairwise.nil

/-- The first way of a sequence begins with the first way of its first part with which the second
part matches. -/
theorem exists_of_head?_ways_seq {R : Way → Way → Prop} (hpair : (a.ways w).Pairwise R)
    (h : ((seq a b).ways w).head? = some v) :
    ∃ u ∈ a.ways w, (b.ways u).head? = some v ∧
      ∀ u' ∈ a.ways w, b.ways u' ≠ [] → u' = u ∨ R u u' := by
  rw [ways, List.head?_flatMap] at h
  generalize a.ways w = us at h hpair
  induction us with
  | nil => cases h
  | cons u us ih =>
    obtain ⟨hfirst, hpair⟩ := List.pairwise_cons.mp hpair
    rw [List.findSome?_cons] at h
    cases hu : (b.ways u).head? with
    | some v' =>
      rw [hu] at h
      obtain rfl := Option.some.inj h
      refine ⟨u, List.mem_cons_self, hu, fun u' hu' _ => ?_⟩
      rcases List.mem_cons.mp hu' with rfl | hu'
      · exact Or.inl rfl
      · exact Or.inr (hfirst u' hu')
    | none =>
      rw [hu] at h
      obtain ⟨u₁, hu₁, hhead, hrest⟩ := ih h hpair
      refine ⟨u₁, List.mem_cons_of_mem _ hu₁, hhead, fun u' hu' hne => ?_⟩
      rcases List.mem_cons.mp hu' with rfl | hu'
      · exact absurd (List.head?_eq_none_iff.mp hu) hne
      · exact hrest u' hu' hne

/-- What comes before the others. -/
theorem eq_or_of_head? {R : Way → Way → Prop} {ws : List Way} (hpair : ws.Pairwise R)
    (h : ws.head? = some v) {u : Way} (hu : u ∈ ws) : u = v ∨ R v u := by
  obtain ⟨ws, rfl⟩ := List.head?_eq_some_iff.mp h
  rcases List.mem_cons.mp hu with rfl | hu
  · exact Or.inl rfl
  · exact Or.inr (List.rel_of_pairwise_cons hpair hu)

/-! ### Searching -/

section Searching

variable {r : Regex} {before s lit : List Char}

theorem search_eq_none (h : ∀ u v, s = u ++ v → r.matchStart v = none) : r.search s = none := by
  induction s with
  | nil => exact h [] [] rfl
  | cons c s ih =>
    rw [search, h [] (c :: s) rfl, Option.none_or]
    exact ih fun u v huv => h (c :: u) v (congrArg (c :: ·) huv)

theorem search_eq_of_matchStart {m : Way} (h : r.matchStart s = some m) : r.search s = some m := by
  cases s with
  | nil => exact h
  | cons c s => rw [search, h, Option.some_or]

/-- What is found matches where some part of the text begins. -/
theorem exists_matchStart_of_search {m : Way} (h : r.search s = some m) :
    ∃ t, r.matchStart t = some m := by
  induction s with
  | nil => exact ⟨[], h⟩
  | cons c s ih =>
    rw [search, Option.or_eq_some_iff] at h
    exact h.elim (fun h => ⟨c :: s, h⟩) fun h => ih h.2

theorem search_append (h : ∀ u v, before = u ++ v → v ≠ [] → r.matchStart (v ++ s) = none) :
    r.search (before ++ s) = r.search s := by
  induction before with
  | nil => rfl
  | cons c before ih =>
    have hfirst := h [] (c :: before) rfl (List.cons_ne_nil _ _)
    rw [List.cons_append] at hfirst ⊢
    rw [search, hfirst, Option.none_or]
    exact ih fun u v huv hv => h (c :: u) v (congrArg (c :: ·) huv) hv

theorem matchStart_seq_text_eq_none (h : ¬ lit <+: s) :
    (seq (text lit) r).matchStart s = none := by
  rw [matchStart, List.head?_eq_none_iff, List.eq_nil_iff_forall_not_mem]
  intro v hv
  obtain ⟨u, hu, -⟩ := mem_ways_seq.mp hv
  obtain ⟨hrest, -⟩ := mem_ways_text.mp hu
  exact h ⟨u.rest, hrest.symm⟩

theorem ways_text_append (lit s : List Char) (captures : List (ℕ × List Char)) :
    (text lit).ways ⟨captures, lit ++ s⟩ = [⟨captures, s⟩] := by
  induction lit with
  | nil => rfl
  | cons c lit ih =>
    have hfirst : (Regex.lit c).ways ⟨captures, c :: lit ++ s⟩ = [⟨captures, lit ++ s⟩] := by
      simp [Regex.lit, ways]
    rw [text, ways, hfirst, List.flatMap_singleton, ih]

theorem matchStart_seq_text : (seq (text lit) r).matchStart (lit ++ s) = r.matchStart s := by
  rw [matchStart, ways, ways_text_append, List.flatMap_singleton, matchStart]

/-- A pattern that begins with a text is searched for where the text occurs. -/
theorem search_seq_text (honly : ∀ u v, before ++ s = u ++ v → lit <+: v → u = before) :
    (seq (text lit) r).search (before ++ s) = (seq (text lit) r).matchStart s := by
  have hnone {u v : List Char} (huv : before ++ s = u ++ v) (hu : u ≠ before) :
      (seq (text lit) r).matchStart v = none :=
    matchStart_seq_text_eq_none fun hlit => hu (honly u v huv hlit)
  rw [search_append]
  · cases s with
    | nil => rfl
    | cons c s =>
      rw [search, search_eq_none, Option.or_none]
      intro u v huv
      refine hnone (u := before ++ c :: u) (by rw [huv]; simp) fun heq => ?_
      simpa using congrArg List.length heq
  · rintro u v rfl hv
    refine hnone (List.append_assoc _ _ _) fun heq => hv ?_
    simpa using heq

end Searching

end Regex

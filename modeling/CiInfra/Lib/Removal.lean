import CiInfra.Lib.Separators

/-!
# Removing words from a text

A word is removed from left to right wherever it occurs. Letters that stood on both sides of it can
make up the word anew. For words that end in a letter which they have nowhere else, and of which
none is the end of another, the texts that leave a word are those with letters of a word around
removed words.
-/

namespace Removal

open Separators

variable {α : Type*}

/-! ### Removing one word -/

/-- A text, and what is left of it without a word. -/
inductive Strips (word : List α) : List α → List α → Prop
  | nil : Strips word [] []
  | drop {s t : List α} : Strips word s t → Strips word (word ++ s) t
  | keep {c : α} {s t : List α} :
      ¬ word <+: c :: s → Strips word s t → Strips word (c :: s) (c :: t)

section Strips

variable {word s s' t t' : List α}

theorem strips_append_iff (hword : word ≠ []) :
    Strips word (word ++ s) t ↔ Strips word s t := by
  refine ⟨fun h => ?_, .drop⟩
  generalize hx : word ++ s = x at h
  cases h with
  | nil => exact absurd (List.append_eq_nil_iff.mp hx).1 hword
  | drop h =>
    obtain rfl := List.append_cancel_left hx
    exact h
  | keep hkeep => exact absurd (hx ▸ List.prefix_append word s) hkeep

theorem strips_cons_iff {c : α} (hkeep : ¬ word <+: c :: s) :
    Strips word (c :: s) t ↔ ∃ t', t = c :: t' ∧ Strips word s t' := by
  constructor
  · intro h
    generalize hx : c :: s = x at h hkeep
    cases h with
    | nil => cases hx
    | drop => exact absurd (List.prefix_append _ _) hkeep
    | keep _ h =>
      obtain ⟨rfl, rfl⟩ := List.cons.inj hx
      exact ⟨_, rfl, h⟩
  · rintro ⟨t', rfl, h⟩
    exact .keep hkeep h

theorem exists_strips (hword : word ≠ []) (s : List α) : ∃ t, Strips word s t := by
  induction hlength : s.length using Nat.strongRecOn generalizing s with
  | ind n ih =>
    have hpos := List.length_pos_iff.mpr hword
    by_cases hpre : word <+: s
    · obtain ⟨s, rfl⟩ := hpre
      rw [List.length_append] at hlength
      obtain ⟨t, ht⟩ := ih s.length (by omega) s rfl
      exact ⟨t, .drop ht⟩
    · cases s with
      | nil => exact ⟨[], .nil⟩
      | cons c s =>
        rw [List.length_cons] at hlength
        obtain ⟨t, ht⟩ := ih s.length (by omega) s rfl
        exact ⟨c :: t, .keep hpre ht⟩

theorem Strips.unique (hword : word ≠ []) (h : Strips word s t) (h' : Strips word s t') :
    t = t' := by
  induction h generalizing t' with
  | nil =>
    generalize hx : ([] : List α) = x at h'
    cases h' with
    | nil => rfl
    | drop => exact absurd (List.append_eq_nil_iff.mp hx.symm).1 hword
    | keep => cases hx
  | drop _ ih => exact ih ((strips_append_iff hword).mp h')
  | keep hkeep _ ih =>
    obtain ⟨t', rfl, hrest⟩ := (strips_cons_iff hkeep).mp h'
    rw [ih hrest]

theorem Strips.sublist (h : Strips word s t) : t.Sublist s := by
  induction h with
  | nil => exact List.Sublist.refl []
  | drop _ ih => exact ih.trans (List.sublist_append_right _ _)
  | keep _ _ ih => exact ih.cons_cons _

theorem strips_self (h : ¬ word <:+: s) : Strips word s s := by
  induction s with
  | nil => exact .nil
  | cons c s ih =>
    rw [List.infix_cons_iff, not_or] at h
    exact .keep h.1 (ih h.2)

/-- Two texts are stripped apart if the word does not occur across their border. -/
theorem Strips.append (h : Strips word s t) (h' : Strips word s' t')
    (hborder : ∀ x y, word = x ++ y → x ≠ [] → y ≠ [] → x <:+ s → ¬ y <+: s') :
    Strips word (s ++ s') (t ++ t') := by
  induction h with
  | nil => exact h'
  | drop _ ih =>
    rw [List.append_assoc]
    exact .drop (ih fun x y hxy hx hy hsuffix =>
      hborder x y hxy hx hy (hsuffix.trans (List.suffix_append _ _)))
  | @keep c s t hkeep _ ih =>
    refine .keep (fun hpre => ?_) (ih fun x y hxy hx hy hsuffix =>
      hborder x y hxy hx hy (hsuffix.trans (List.suffix_cons _ _)))
    obtain ⟨r, hr⟩ := hpre
    have hr : word ++ r = (c :: s) ++ s' := hr
    rcases List.append_eq_append_iff.mp hr with ⟨y, hy, -⟩ | ⟨y, rfl, hy⟩
    · exact hkeep ⟨y, hy.symm⟩
    · by_cases hnil : y = []
      · subst hnil
        exact hkeep (by simp)
      · exact hborder (c :: s) y rfl (List.cons_ne_nil _ _) hnil (List.suffix_refl _)
          ⟨r, hy.symm⟩

theorem Strips.append_cons {c : α} (hword : word ≠ []) (hc : c ∉ word) (h : Strips word s t)
    (h' : Strips word s' t') : Strips word (s ++ c :: s') (t ++ c :: t') := by
  have hkeep {y : List α} (hy : y ≠ []) (hcy : c ∉ y) : ¬ y <+: c :: s' := fun hpre =>
    hy (List.prefix_nil.mp (prefix_of_not_mem (s := []) hpre hcy))
  refine h.append (.keep (hkeep hword hc) h') fun x y hxy _ hy _ => hkeep hy fun hmem => ?_
  exact hc (by simp [hxy, hmem])

/-- What is left behind some part is what is left of a text behind. -/
theorem Strips.exists_of_append {u : List α} (h : Strips word s (u ++ t)) :
    ∃ a b, s = a ++ b ∧ Strips word b t := by
  generalize hx : u ++ t = x at h
  induction h generalizing u with
  | nil =>
    obtain ⟨rfl, rfl⟩ := List.append_eq_nil_iff.mp hx
    exact ⟨[], [], rfl, .nil⟩
  | drop _ ih =>
    obtain ⟨a, b, rfl, hb⟩ := ih hx
    exact ⟨word ++ a, b, (List.append_assoc _ _ _).symm, hb⟩
  | keep hkeep h ih =>
    cases u with
    | nil =>
      obtain rfl : t = _ := hx
      exact ⟨[], _, rfl, .keep hkeep h⟩
    | cons d u =>
      obtain ⟨rfl, htail⟩ := List.cons.inj hx
      obtain ⟨a, b, rfl, hb⟩ := ih htail
      exact ⟨d :: a, b, rfl, hb⟩

end Strips

/-! ### Words that end in a letter of their own -/

/-- The word ends in the letter and has it nowhere else. -/
def EndsAt (last : α) (word : List α) : Prop := ∃ front, word = front ++ [last] ∧ last ∉ front

section EndsAt

variable {last : α} {u v word : List α}

theorem EndsAt.ne_nil (h : EndsAt last word) : word ≠ [] := by
  obtain ⟨front, rfl, -⟩ := h
  simp

theorem EndsAt.mem (h : EndsAt last word) : last ∈ word := by
  obtain ⟨front, rfl, -⟩ := h
  simp

theorem EndsAt.not_mem_of_append (h : EndsAt last (u ++ v)) (hv : v ≠ []) : last ∉ u := by
  obtain ⟨front, hword, hfront⟩ := h
  obtain ⟨v, c, rfl⟩ := List.eq_nil_or_concat v |>.resolve_left hv
  rw [List.concat_eq_append, ← List.append_assoc] at hword
  obtain ⟨rfl, -⟩ := List.append_inj' hword rfl
  exact fun hmem => hfront (List.mem_append_left v hmem)

/-- A rest of the word ends at the letter, too. -/
theorem EndsAt.of_append (h : EndsAt last (u ++ v)) (hv : v ≠ []) : EndsAt last v := by
  obtain ⟨front, hword, hfront⟩ := h
  obtain ⟨v, c, rfl⟩ := List.eq_nil_or_concat v |>.resolve_left hv
  rw [List.concat_eq_append, ← List.append_assoc] at hword
  obtain ⟨rfl, hlast⟩ := List.append_inj' hword rfl
  obtain rfl := List.singleton_inj.mp hlast
  exact ⟨v, List.concat_eq_append, fun hmem => hfront (List.mem_append_right u hmem)⟩

theorem EndsAt.append_left (h : EndsAt last v) (hu : last ∉ u) : EndsAt last (u ++ v) := by
  obtain ⟨front, rfl, hfront⟩ := h
  exact ⟨u ++ front, (List.append_assoc _ _ _).symm, by simp [hu, hfront]⟩

/-- Of a text at most one beginning ends at the letter. -/
theorem EndsAt.eq_of_append {x y : List α} (hu : EndsAt last u) (hv : EndsAt last v)
    (h : u ++ x = v ++ y) : u = v := by
  obtain ⟨u, rfl, hu⟩ := hu
  obtain ⟨v, rfl, hv⟩ := hv
  rw [List.append_assoc, List.append_assoc, List.singleton_append, List.singleton_append] at h
  rw [(append_cons_inj h hu hv).1]

/-- What has the letter can only be at the end of the word. -/
theorem EndsAt.isSuffix_of_isInfix (h : EndsAt last v) (hmem : last ∈ u) (hin : u <:+: v) :
    u <:+ v := by
  obtain ⟨a, b, rfl⟩ := hin
  by_cases hb : b = []
  · subst hb
    exact ⟨a, by simp⟩
  · exact absurd (List.mem_append_right a hmem) (h.not_mem_of_append hb)

/-- A text without the letter is kept with what precedes it. -/
theorem EndsAt.strips_append {s t : List α} (hword : EndsAt last word) (hu : last ∉ u)
    (h : Strips word s t) : Strips word (s ++ u) (t ++ u) := by
  refine h.append (strips_self fun hin => hu (hin.mem hword.mem)) ?_
  rintro x y rfl - hy - hpre
  exact hu (hpre.mem (hword.of_append hy).mem)

/-- A word occurs across the border of texts only if the left one does not end at the letter. -/
theorem EndsAt.infix_append {x : List α} (hword : EndsAt last word)
    (hlast : ∃ front, u = front ++ [last]) (h : word <:+: u ++ x) : word <:+: u ∨ word <:+: x := by
  obtain ⟨front, rfl⟩ := hlast
  obtain ⟨a, b, hsplit⟩ := h
  rw [List.append_assoc] at hsplit
  rcases List.append_eq_append_iff.mp hsplit with ⟨z, hz, hb⟩ | ⟨z, rfl, hz⟩
  · rcases List.append_eq_append_iff.mp hb with ⟨y, rfl, -⟩ | ⟨y, rfl, -⟩
    · exact Or.inl ⟨a, y, by rw [hz, List.append_assoc]⟩
    · by_cases hz' : z = []
      · subst hz'
        rw [List.append_nil] at hz
        exact Or.inr ⟨[], b, by simpa using hb⟩
      · by_cases hy : y = []
        · subst hy
          exact Or.inl ⟨a, [], by rw [hz]; simp⟩
        · have hmem := hword.not_mem_of_append hy
          obtain ⟨z, c, rfl⟩ := List.eq_nil_or_concat z |>.resolve_left hz'
          rw [List.concat_eq_append, ← List.append_assoc] at hz
          obtain ⟨-, hc⟩ := List.append_inj' hz rfl
          obtain rfl := List.singleton_inj.mp hc
          simp at hmem
  · exact Or.inr ⟨z, b, by rw [hz, List.append_assoc]⟩

end EndsAt

/-- Words that end at one letter, none of which is the end of another. -/
structure Apart (last : α) (words : List α → Prop) : Prop where
  endsAt : ∀ {word}, words word → EndsAt last word
  eq_of_suffix : ∀ {u v}, words u → words v → u <:+ v → u = v

namespace Apart

variable {last : α} {words : List α → Prop} {u v p r : List α}

/-- A word does not begin before another of the words. -/
theorem not_prefix_append (hwords : Apart last words) (hu : words u) (hv : words v) (hp : p ≠ [])
    (hpre : ¬ u <+: p) : ¬ u <+: p ++ (v ++ r) := by
  rintro ⟨t, ht⟩
  rcases List.append_eq_append_iff.mp ht with ⟨z, rfl, -⟩ | ⟨z, rfl, hz⟩
  · exact hpre (List.prefix_append u z)
  · by_cases hnil : z = []
    · subst hnil
      exact hpre (by simp)
    · have hends := (hwords.endsAt hu).of_append hnil
      obtain rfl := (hwords.endsAt hv).eq_of_append hends hz
      have heq := hwords.eq_of_suffix hv hu (List.suffix_append p v)
      have hlength := congrArg List.length heq
      rw [List.length_append] at hlength
      exact hp (List.length_eq_zero_iff.mp (by omega))

end Apart

/-! ### Words with others in them -/

/-- Texts one after the other. -/
inductive Repeats (fills : List α → Prop) : List α → Prop
  | nil : Repeats fills []
  | append {w a : List α} : fills w → Repeats fills a → Repeats fills (w ++ a)

/-- The letters of a text, with further texts between them. -/
inductive Filled (fills : List α → Prop) : List α → List α → Prop
  | single (c : α) : Filled fills [c] [c]
  | letter {c : α} {x a s : List α} :
      Repeats fills a → Filled fills x s → Filled fills (c :: x) (c :: (a ++ s))

section Filled

variable {fills : List α → Prop} {a b s t x y word : List α}

theorem Repeats.add (ha : Repeats fills a) (hb : Repeats fills b) : Repeats fills (a ++ b) := by
  induction ha with
  | nil => exact hb
  | append hw _ ih =>
    rw [List.append_assoc]
    exact .append hw ih

theorem Repeats.mono {fills' : List α → Prop} (h : ∀ w, fills w → fills' w)
    (ha : Repeats fills a) : Repeats fills' a := by
  induction ha with
  | nil => exact .nil
  | append hw _ ih => exact .append (h _ hw) ih

theorem Repeats.strips (h : Repeats (· = word) a) (hs : Strips word s t) :
    Strips word (a ++ s) t := by
  induction h with
  | nil => exact hs
  | append hw _ ih =>
    subst hw
    rw [List.append_assoc]
    exact .drop ih

theorem Filled.ne_nil (h : Filled fills x s) : x ≠ [] := by
  cases h <;> exact List.cons_ne_nil _ _

theorem Filled.append (hx : Filled fills x s) (ha : Repeats fills a) (hy : Filled fills y t) :
    Filled fills (x ++ y) (s ++ (a ++ t)) := by
  induction hx with
  | single c => exact .letter (a := a) (s := t) ha hy
  | letter hb _ ih =>
    rw [List.cons_append, List.cons_append, List.append_assoc]
    exact .letter hb ih

theorem Filled.exists_of_append (h : Filled fills (x ++ y) s) (hx : x ≠ []) (hy : y ≠ []) :
    ∃ u a v, s = u ++ (a ++ v) ∧ Filled fills x u ∧ Repeats fills a ∧ Filled fills y v := by
  induction x generalizing s with
  | nil => exact absurd rfl hx
  | cons c x ih =>
    rw [List.cons_append] at h
    generalize hz : x ++ y = z at h
    cases h with
    | single => exact absurd (List.append_eq_nil_iff.mp hz).2 hy
    | @letter _ _ a s ha h =>
      subst hz
      cases x with
      | nil => exact ⟨[c], a, s, rfl, .single c, ha, h⟩
      | cons d x =>
        obtain ⟨u, b, v, rfl, hu, hb, hv⟩ := ih h (List.cons_ne_nil _ _)
        exact ⟨c :: (a ++ u), b, v, by simp, .letter ha hu, hb, hv⟩

/-- A text with the letters of another ends in the same letter. -/
theorem Filled.exists_last {last : α} (h : Filled fills x s) (hx : ∃ front, x = front ++ [last]) :
    ∃ front, s = front ++ [last] := by
  induction h with
  | single c => exact hx
  | @letter c x a s _ h ih =>
    obtain ⟨front, hfront⟩ := hx
    cases front with
    | nil => exact absurd (List.cons.inj hfront).2 h.ne_nil
    | cons d front =>
      obtain ⟨front', rfl⟩ := ih ⟨front, (List.cons.inj hfront).2⟩
      exact ⟨c :: (a ++ front'), by simp⟩

/-- The first text between the letters, if there is one. -/
theorem Filled.eq_or_exists (h : Filled fills x s) :
    s = x ∨ ∃ p w r, s = p ++ (w ++ r) ∧ p ≠ [] ∧ fills w ∧ p <+: x ∧ p ≠ x := by
  induction h with
  | single c => exact Or.inl rfl
  | @letter c x a s ha h ih =>
    cases ha with
    | nil =>
      rcases ih with rfl | ⟨p, w, r, rfl, -, hw, hp, hne⟩
      · exact Or.inl rfl
      · exact Or.inr ⟨c :: p, w, r, rfl, List.cons_ne_nil _ _, hw,
          List.cons_prefix_cons.mpr ⟨rfl, hp⟩, fun h => hne (List.cons.inj h).2⟩
    | @append w a hw ha =>
      exact Or.inr ⟨[c], w, a ++ s, by simp, List.cons_ne_nil _ _, hw, by simp,
        fun hx => h.ne_nil (List.cons.inj hx).2.symm⟩

end Filled

/-! ### Words that removal leaves -/

namespace Apart

variable {last : α} {words : List α → Prop} {u v k a m s t x y : List α}

theorem not_infix (hwords : Apart last words) (hu : words u) (hv : words v) (hne : u ≠ v) :
    ¬ u <:+: v := fun h =>
  hne (hwords.eq_of_suffix hu hv ((hwords.endsAt hv).isSuffix_of_isInfix (hwords.endsAt hu).mem h))

/-- A word is not in the rest of another, nor of itself. -/
theorem not_infix_tail (hwords : Apart last words) {c : α} (hu : words u) (hv : words (c :: x)) :
    ¬ u <:+: x := by
  intro h
  have hsuffix := (hwords.endsAt hv).isSuffix_of_isInfix (hwords.endsAt hu).mem
    (h.trans (List.suffix_cons c x).isInfix)
  obtain rfl := hwords.eq_of_suffix hu hv hsuffix
  exact absurd h.length_le (by simp)

theorem not_prefix_of_proper (hwords : Apart last words) (hu : words u) (hk : words k)
    (hx : x <+: k) (hne : x ≠ k) : ¬ u <+: x := by
  intro h
  obtain ⟨z, rfl⟩ := hx
  have hz : z ≠ [] := fun hz => hne (by simp [hz])
  exact (hwords.endsAt hk).not_mem_of_append hz (h.mem (hwords.endsAt hu).mem)

/-- A word that a text begins with only together with others between its letters. -/
theorem not_prefix_filled (hwords : Apart last words) (hu : words u) (hv : words v)
    (h : Filled (· = v) x m) (hpre : ∀ p, p <+: x → (p ≠ x ∨ m = x) → ¬ u <+: p) :
    ¬ u <+: m := by
  rcases h.eq_or_exists with rfl | ⟨p, w, r, rfl, hp, rfl, hpx, hne⟩
  · exact hpre m (List.prefix_refl m) (Or.inr rfl)
  · exact hwords.not_prefix_append hu hv hp (hpre p hpx (Or.inl hne))

theorem not_infix_repeats (hwords : Apart last words) (hu : words u) (hv : words v) (hne : u ≠ v)
    (ha : Repeats (· = v) a) (hs : ¬ u <:+: s) : ¬ u <:+: a ++ s := by
  induction ha with
  | nil => exact hs
  | append hw _ ih =>
    subst hw
    rw [List.append_assoc]
    intro h
    obtain ⟨front, hfront, -⟩ := hwords.endsAt hv
    rcases (hwords.endsAt hu).infix_append ⟨front, hfront⟩ h with h | h
    · exact hwords.not_infix hu hv hne h
    · exact ih h

theorem not_infix_filled (hwords : Apart last words) (hu : words u) (hv : words v) (hne : u ≠ v)
    (h : Filled (· = v) x m) (hx : ¬ u <:+: x) : ¬ u <:+: m := by
  induction h with
  | single c => exact hx
  | @letter c x a s ha h ih =>
    have hpre := hwords.not_prefix_filled hu hv (.letter ha h) fun p hp _ hup =>
      hx (hup.isInfix.trans hp.isInfix)
    rw [List.infix_cons_iff, not_or]
    exact ⟨hpre, hwords.not_infix_repeats hu hv hne ha
      (ih fun h => hx (h.trans (List.suffix_cons c x).isInfix))⟩

/-- A word with another in it has no word that it was not filled with. -/
theorem not_infix_of_ne (hwords : Apart last words) (hu : words u) (hv : words v) (hk : words k)
    (hne : u ≠ v) (h : Filled (· = v) k m) (hm : m ≠ k) : ¬ u <:+: m := by
  have hpre := hwords.not_prefix_filled hu hv h fun p hp hpm =>
    hwords.not_prefix_of_proper hu hk hp (hpm.resolve_right hm)
  cases h with
  | single c => exact absurd rfl hm
  | @letter c x a s ha h =>
    rw [List.infix_cons_iff, not_or]
    exact ⟨hpre, hwords.not_infix_repeats hu hv hne ha
      (hwords.not_infix_filled hu hv hne h (hwords.not_infix_tail hu hk))⟩

theorem strips_filled (hwords : Apart last words) (hv : words v) (h : Filled (· = v) x m)
    (hx : ¬ v <:+: x) : Strips v m x := by
  induction h with
  | single c => exact .keep (fun h => hx h.isInfix) .nil
  | @letter c x a s ha h ih =>
    refine .keep ?_ (ha.strips (ih fun h => hx (h.trans (List.suffix_cons c x).isInfix)))
    exact hwords.not_prefix_filled hv hv (.letter ha h) fun p hp _ hvp =>
      hx (hvp.isInfix.trans hp.isInfix)

/-- A word is left of itself with words in it. -/
theorem strips_of_ne (hwords : Apart last words) (hv : words v) (hk : words k)
    (h : Filled (· = v) k m) (hm : v ≠ k ∨ m ≠ k) : Strips v m k := by
  by_cases hne : v = k
  · have hmk := hm.resolve_left (not_not.mpr hne)
    have hpre := hwords.not_prefix_filled hv hv h fun p hp hpm =>
      hwords.not_prefix_of_proper hv hk hp (hpm.resolve_right hmk)
    cases h with
    | single c => exact absurd rfl hmk
    | letter ha h =>
      exact .keep hpre (ha.strips (hwords.strips_filled hv h (hwords.not_infix_tail hv hk)))
  · exact hwords.strips_filled hv h (hwords.not_infix hv hk hne)

end Apart

/-! ### Where what is left comes from -/

section Sources

variable {word s t x u v : List α}

/-- What is left begins with what is left of a text after some words. -/
theorem Strips.exists_of_prefix (h : Strips word s t) (hx : x <+: t)
    (hne : x ≠ []) : ∃ a m b, s = a ++ (m ++ b) ∧ Repeats (· = word) a ∧
      Filled (· = word) x m ∧ Strips word m x := by
  induction h generalizing x with
  | nil => exact absurd (List.prefix_nil.mp hx) hne
  | drop _ ih =>
    obtain ⟨a, m, b, rfl, ha, hm, hstrips⟩ := ih hx hne
    exact ⟨word ++ a, m, b, (List.append_assoc _ _ _).symm, .append rfl ha, hm, hstrips⟩
  | @keep c s t hkeep _ ih =>
    have hkeep' {r : List α} (hr : r <+: s) : ¬ word <+: c :: r := fun h =>
      hkeep (h.trans (List.cons_prefix_cons.mpr ⟨rfl, hr⟩))
    cases x with
    | nil => exact absurd rfl hne
    | cons d x =>
      obtain ⟨rfl, htail⟩ := List.cons_prefix_cons.mp hx
      cases x with
      | nil =>
        exact ⟨[], [d], s, rfl, .nil, .single d, .keep (hkeep' List.nil_prefix) .nil⟩
      | cons e x =>
        obtain ⟨a, m, b, rfl, ha, hm, hstrips⟩ := ih htail (List.cons_ne_nil _ _)
        refine ⟨[], d :: (a ++ m), b, by simp, .nil, .letter ha hm, .keep (hkeep' ?_) ?_⟩
        · rw [← List.append_assoc]
          exact List.prefix_append _ _
        · exact ha.strips hstrips

theorem Strips.exists_of_infix (h : Strips word s t) (hx : x <:+: t)
    (hne : x ≠ []) : ∃ m, m <:+: s ∧ Filled (· = word) x m ∧ Strips word m x := by
  obtain ⟨u, v, rfl⟩ := hx
  rw [List.append_assoc] at h
  obtain ⟨a, b, rfl, hb⟩ := h.exists_of_append
  obtain ⟨a', m, b', rfl, -, hm, hstrips⟩ := hb.exists_of_prefix ⟨v, rfl⟩ hne
  exact ⟨m, ⟨a ++ a', b', by simp⟩, hm, hstrips⟩

end Sources

/-- What is first of the text to end at the letter ends in a word. -/
def BeginsAt (last : α) (words : List α → Prop) (m : List α) : Prop :=
  ∃ q r w, m = q ++ r ∧ EndsAt last q ∧ words w ∧ w <:+ q

namespace Apart

variable {last : α} {words : List α → Prop} {u v k m s t x : List α}

theorem beginsAt_of_mem (hwords : Apart last words) (hk : words k) : BeginsAt last words k :=
  ⟨k, [], k, (List.append_nil k).symm, hwords.endsAt hk, hk, List.suffix_refl k⟩

theorem beginsAt_filled (hwords : Apart last words) (hv : words v) (hx : BeginsAt last words x)
    (h : Filled (· = v) x m) : BeginsAt last words m := by
  rcases h.eq_or_exists with rfl | ⟨p, w, r, rfl, -, rfl, hp, -⟩
  · exact hx
  · obtain ⟨q, r', w', rfl, hq, hw', hsuffix⟩ := hx
    by_cases hqp : q <+: p
    · obtain ⟨z, rfl⟩ := hqp
      exact ⟨q, z ++ (w ++ r), w', by simp, hq, hw', hsuffix⟩
    · -- The text is filled before the letter.
      obtain ⟨z, rfl⟩ :=
        (List.prefix_or_prefix_of_prefix hp (List.prefix_append q r')).resolve_right hqp
      have hz : z ≠ [] := fun hz => hqp (by simp [hz])
      exact ⟨p ++ w, r, w, by simp, (hwords.endsAt hv).append_left (hq.not_mem_of_append hz), hv,
        List.suffix_append p w⟩

/-- What is left of a part is left of the text, if the part begins and ends like a word. -/
theorem infix_of_strips (hwords : Apart last words) (hv : words v) (h : Strips v s t)
    (hm : m <:+: s) (hbegins : BeginsAt last words m) (hlast : ∃ front, m = front ++ [last])
    (hstrips : Strips v m x) : x <:+: t := by
  obtain ⟨a, b, rfl⟩ := hm
  have hne := (hwords.endsAt hv).ne_nil
  obtain ⟨a', ha⟩ := exists_strips hne a
  obtain ⟨b', hb⟩ := exists_strips hne b
  have hright : Strips v (m ++ b) (x ++ b') := by
    refine hstrips.append hb fun y z hyz hy hz hsuffix _ => ?_
    have hends := hwords.endsAt hv
    rw [hyz] at hends
    obtain ⟨front, rfl⟩ := hlast
    obtain ⟨y, c, rfl⟩ := List.eq_nil_or_concat y |>.resolve_left hy
    obtain ⟨w, hw⟩ := hsuffix
    rw [List.concat_eq_append, ← List.append_assoc] at hw
    obtain rfl := List.singleton_inj.mp (List.append_inj' hw rfl).2
    exact hends.not_mem_of_append hz (by simp)
  have hall : Strips v (a ++ (m ++ b)) (a' ++ (x ++ b')) := by
    refine ha.append hright fun y z hyz hy hz _ hpre => ?_
    obtain ⟨q, r, w, rfl, hq, hw, hsuffix⟩ := hbegins
    have hends : EndsAt last z := (hyz ▸ hwords.endsAt hv).of_append hz
    obtain ⟨r', hr'⟩ := hpre
    rw [List.append_assoc] at hr'
    obtain rfl := hends.eq_of_append hq hr'
    have hzv : z <:+ v := ⟨y, hyz.symm⟩
    obtain rfl := hwords.eq_of_suffix hw hv (hsuffix.trans hzv)
    have hlength := hsuffix.length_le
    rw [hyz, List.length_append] at hlength
    exact hy (List.length_eq_zero_iff.mp (by omega))
  rw [← List.append_assoc] at hall
  rw [h.unique hne hall]
  exact ⟨a', b', List.append_assoc _ _ _⟩

end Apart

/-! ### Removing two words in turn -/

/-- The text vanishes when the first word is removed and then the second. -/
def Vanishes (v w m : List α) : Prop := m = v ∨ Filled (· = v) w m

/-- The letters of a word around texts that vanish, so that the word is left. -/
def Spliced (v w m : List α) : Prop :=
  ∃ k, (k = v ∨ k = w) ∧ Filled (Vanishes v w) k m ∧ ¬ Vanishes v w m

section Two

variable {v w a k m s t x y : List α}

theorem Repeats.exists_of_append (ha : Repeats (· = w) a) (h : Filled (· = v) (a ++ x) s)
    (hx : x ≠ []) :
    ∃ b t, s = b ++ t ∧ Repeats (Vanishes v w) b ∧ Filled (· = v) x t := by
  induction ha generalizing s with
  | nil => exact ⟨[], s, rfl, .nil, h⟩
  | @append w' a hw _ ih =>
    subst hw
    by_cases hnil : w' = []
    · subst hnil
      exact ih h
    · rw [List.append_assoc] at h
      obtain ⟨u, b, t, rfl, hu, hb, ht⟩ := h.exists_of_append hnil (by simp [hx])
      obtain ⟨b', t, rfl, hb', ht⟩ := ih ht
      exact ⟨u ++ (b ++ b'), t, by simp,
        .append (Or.inr hu) (Repeats.add (hb.mono fun _ => Or.inl) hb'), ht⟩

/-- What vanishes is the second word with the first in it. -/
theorem Filled.trans (h : Filled (· = w) k y) (h' : Filled (· = v) y m) :
    Filled (Vanishes v w) k m := by
  induction h generalizing m with
  | single c =>
    cases h' with
    | single => exact .single c
    | letter _ h => exact absurd rfl h.ne_nil
  | @letter c x a s ha h ih =>
    have hs : s ≠ [] := by
      rintro rfl
      cases h
    generalize hz : a ++ s = z at h'
    cases h' with
    | single => exact absurd (List.append_eq_nil_iff.mp hz).2 hs
    | @letter _ _ b _ hb h' =>
      subst hz
      obtain ⟨b', t, rfl, hb', ht⟩ := ha.exists_of_append h' hs
      rw [← List.append_assoc]
      exact .letter (Repeats.add (hb.mono fun _ => Or.inl) hb') (ih ht)

theorem Repeats.exists_filled (ha : Repeats (Vanishes v w) a) (h : Filled (· = v) y s) :
    ∃ a' b s', a ++ s = b ++ s' ∧ Repeats (· = w) a' ∧ Repeats (· = v) b ∧
      Filled (· = v) (a' ++ y) s' := by
  induction ha with
  | nil => exact ⟨[], [], s, rfl, .nil, .nil, h⟩
  | append hw _ ih =>
    obtain ⟨a', b, s', hsplit, ha', hb, hs'⟩ := ih
    rcases hw with rfl | hw
    · exact ⟨a', _ ++ b, s', by rw [List.append_assoc, hsplit, List.append_assoc], ha',
        .append rfl hb, hs'⟩
    · refine ⟨w ++ a', [], _ ++ (b ++ s'), by rw [List.append_assoc, hsplit]; rfl,
        .append rfl ha', .nil, ?_⟩
      rw [List.append_assoc]
      exact hw.append hb hs'

theorem Filled.exists_trans (h : Filled (Vanishes v w) k m) :
    ∃ y, Filled (· = w) k y ∧ Filled (· = v) y m := by
  induction h with
  | single c => exact ⟨[c], .single c, .single c⟩
  | @letter c x a s ha _ ih =>
    obtain ⟨y, hy, hs⟩ := ih
    obtain ⟨a', b, s', hsplit, ha', hb, hs'⟩ := ha.exists_filled hs
    refine ⟨c :: (a' ++ y), .letter ha' hy, ?_⟩
    rw [hsplit]
    exact .letter hb hs'

end Two

/-- A word is left exactly if the text has its letters around texts that vanish. -/
theorem Apart.exists_infix_iff {last : α} {words : List α → Prop} {v w s s' t : List α}
    (hwords : Apart last words) (hv : words v) (hw : words w) (hne : v ≠ w)
    (hs : Strips v s s') (ht : Strips w s' t) :
    (∃ k, (k = v ∨ k = w) ∧ k <:+: t) ↔ ∃ m, m <:+: s ∧ Spliced v w m := by
  have hvnil := (hwords.endsAt hv).ne_nil
  have hwnil := (hwords.endsAt hw).ne_nil
  have hmem {k : List α} (hk : k = v ∨ k = w) : words k := by
    rcases hk with rfl | rfl <;> assumption
  constructor
  · rintro ⟨k, hk, hin⟩
    have hknil := (hwords.endsAt (hmem hk)).ne_nil
    obtain ⟨y, hys, hky, hstripsy⟩ := ht.exists_of_infix hin hknil
    obtain ⟨m, hms, hym, hstripsm⟩ := hs.exists_of_infix hys (by
      rintro rfl
      cases hky)
    refine ⟨m, hms, k, hk, hky.trans hym, ?_⟩
    rintro (rfl | hvanish)
    · have hnil := (strips_append_iff hvnil).mpr .nil
      rw [List.append_nil] at hnil
      obtain rfl := hstripsm.unique hvnil hnil
      cases hky
    · have hstripsw := hwords.strips_filled hv hvanish (hwords.not_infix hv hw hne)
      obtain rfl := hstripsm.unique hvnil hstripsw
      have hnil := (strips_append_iff hwnil).mpr .nil
      rw [List.append_nil] at hnil
      exact hknil (hstripsy.unique hwnil hnil)
  · rintro ⟨m, hms, k, hk, hkm, hvanish⟩
    obtain ⟨y, hky, hym⟩ := hkm.exists_trans
    obtain ⟨front, hfront, -⟩ := hwords.endsAt (hmem hk)
    have hylast := hky.exists_last ⟨front, hfront⟩
    have hybegins := hwords.beginsAt_filled hw (hwords.beginsAt_of_mem (hmem hk)) hky
    have hyk : k = w → y ≠ k := by
      rintro rfl rfl
      exact hvanish (Or.inr hym)
    have hstripsm : Strips v m y := by
      by_cases heq : y = k
      · subst heq
        refine hwords.strips_of_ne hv (hmem hk) hym ?_
        by_cases hvy : v = y
        · exact Or.inr fun hmy => hvanish (Or.inl (hmy.trans hvy.symm))
        · exact Or.inl hvy
      · exact hwords.strips_filled hv hym (hwords.not_infix_of_ne hv hw (hmem hk) hne hky heq)
    have hys := hwords.infix_of_strips hv hs hms (hwords.beginsAt_filled hv hybegins hym)
      (hym.exists_last hylast) hstripsm
    have hstripsy : Strips w y k := by
      refine hwords.strips_of_ne hw (hmem hk) hky ?_
      by_cases hwk : w = k
      · exact Or.inr (hyk hwk.symm)
      · exact Or.inl hwk
    exact ⟨k, hk, hwords.infix_of_strips hw ht hys hybegins hylast hstripsy⟩

end Removal

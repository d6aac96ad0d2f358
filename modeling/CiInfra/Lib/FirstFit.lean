import Mathlib.Data.List.Forall2
import Mathlib.Data.List.Perm.Basic

/-!
# First-fit packing

Items go, one after the other, into the first bin that accepts them. What a bin
accepts and what an item leaves of a bin are parameters. A successful packing is
sound: it splits the items into one share for each bin, which the bin can take in turn.
-/

namespace FirstFit

variable {Bin Item : Type} (fits : Bin → Item → Prop) [DecidableRel fits]
  (place : Bin → Item → Bin)

/-- Put an item into the first bin that accepts it. -/
def firstFit : List Bin → Item → Option (List Bin)
  | [], _ => none
  | b :: bs, x => if fits b x then some (place b x :: bs) else (firstFit bs x).map (b :: ·)

/-- Put the items in order, each into the first bin that accepts it. -/
def packAll (bins : List Bin) : List Item → Option (List Bin)
  | [] => some bins
  | x :: xs =>
    match firstFit fits place bins x with
    | none => none
    | some bins' => packAll bins' xs

/-- The bin accepts the items one after the other. -/
inductive Fills : Bin → List Item → Prop
  | nil (b : Bin) : Fills b []
  | cons {b : Bin} {x : Item} {xs : List Item} (h : fits b x) (hs : Fills (place b x) xs) :
      Fills b (x :: xs)

variable {fits place}

theorem length_firstFit {bins bins' : List Bin} {x : Item}
    (h : firstFit fits place bins x = some bins') : bins'.length = bins.length := by
  induction bins generalizing bins' with
  | nil => simp [firstFit] at h
  | cons b bs ih =>
    rw [firstFit] at h
    split at h
    · obtain rfl := Option.some.inj h
      rfl
    · obtain ⟨bs', hbs', rfl⟩ := Option.map_eq_some_iff.mp h
      exact congrArg Nat.succ (ih hbs')

/-- Placing one item: its bin's share grows by it, the other shares stay. -/
theorem shares_of_firstFit {bins bins' : List Bin} {x : Item} {shares : List (List Item)}
    (h : firstFit fits place bins x = some bins')
    (hshares : List.Forall₂ (Fills fits place) bins' shares) :
    ∃ shares', List.Forall₂ (Fills fits place) bins shares' ∧
      shares'.flatten.Perm (x :: shares.flatten) := by
  induction bins generalizing bins' shares with
  | nil => simp [firstFit] at h
  | cons b bs ih =>
    by_cases hfit : fits b x
    · simp only [firstFit, if_pos hfit, Option.some.injEq] at h
      subst h
      obtain ⟨xs, rest, hb, hrest, rfl⟩ := List.forall₂_cons_left_iff.mp hshares
      exact ⟨(x :: xs) :: rest, List.Forall₂.cons (Fills.cons hfit hb) hrest, by simp⟩
    · simp only [firstFit, if_neg hfit, Option.map_eq_some_iff] at h
      obtain ⟨bs', hbs', rfl⟩ := h
      obtain ⟨xs, rest, hb, hrest, rfl⟩ := List.forall₂_cons_left_iff.mp hshares
      obtain ⟨rest', hrest', hperm⟩ := ih hbs' hrest
      refine ⟨xs :: rest', List.Forall₂.cons hb hrest', ?_⟩
      rw [List.flatten_cons, List.flatten_cons]
      exact (hperm.append_left xs).trans List.perm_middle

/-- A successful packing assigns every item to a bin that can take its whole share. -/
theorem shares_of_packAll {bins bins' : List Bin} {xs : List Item}
    (h : packAll fits place bins xs = some bins') :
    ∃ shares, List.Forall₂ (Fills fits place) bins shares ∧ shares.flatten.Perm xs := by
  induction xs generalizing bins with
  | nil =>
    refine ⟨bins.map fun _ => [], ?_, ?_⟩
    · rw [List.forall₂_map_right_iff]
      exact List.forall₂_same.mpr fun b _ => Fills.nil b
    · have : (bins.map fun _ => ([] : List Item)).flatten = [] := by simp
      rw [this]
  | cons x xs ih =>
    cases hx : firstFit fits place bins x with
    | none => simp [packAll, hx] at h
    | some bins₁ =>
      obtain ⟨shares₁, hshares₁, hperm₁⟩ := ih (by simpa only [packAll, hx] using h)
      obtain ⟨shares, hshares, hperm⟩ := shares_of_firstFit hx hshares₁
      exact ⟨shares, hshares, hperm.trans (hperm₁.cons x)⟩

/-! ### More bins -/

/-- Bins behind the others do not get an item that one of the others takes. -/
theorem firstFit_append {bins bins' : List Bin} {x : Item}
    (h : firstFit fits place bins x = some bins') (more : List Bin) :
    firstFit fits place (bins ++ more) x = some (bins' ++ more) := by
  induction bins generalizing bins' with
  | nil => simp [firstFit] at h
  | cons b bs ih =>
    by_cases hfit : fits b x
    · rw [firstFit, if_pos hfit] at h
      rw [List.cons_append, firstFit, if_pos hfit, ← Option.some.inj h, List.cons_append]
    · rw [firstFit, if_neg hfit] at h
      obtain ⟨bs', hbs', rfl⟩ := Option.map_eq_some_iff.mp h
      rw [List.cons_append, firstFit, if_neg hfit, ih hbs', Option.map_some, List.cons_append]

theorem packAll_append {bins bins' : List Bin} {xs : List Item}
    (h : packAll fits place bins xs = some bins') (more : List Bin) :
    packAll fits place (bins ++ more) xs = some (bins' ++ more) := by
  induction xs generalizing bins with
  | nil =>
    obtain rfl := Option.some.inj h
    rfl
  | cons x xs ih =>
    cases hx : firstFit fits place bins x with
    | none => simp [packAll, hx] at h
    | some bins₁ =>
      have hrest : packAll fits place bins₁ xs = some bins' := by simpa only [packAll, hx] using h
      simp only [packAll, firstFit_append hx more]
      exact ih hrest

end FirstFit

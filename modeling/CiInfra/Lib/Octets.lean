import CiInfra.Lib.TextLines
import Mathlib.Algebra.Ring.Nat

/-!
# Texts as octets

Decoding gives back a text that has been encoded, and encoding what has been decoded gives no fewer
octets. So octets that are decoded in pieces come out as they were only if every piece is a text.
-/

namespace TextLines

/-- The octets of a text. -/
def encode (s : List Char) : List UInt8 := s.flatMap String.utf8EncodeChar

/-! ### What has been encoded -/

section Steps

variable {b : ℕ} {p : Pending}

theorem begin_two (h : 0xc2 ≤ b ∧ b ≤ 0xdf) : begin b = ([], some ⟨b - 0xc0, 1, 0x80, 0xbf⟩) := by
  rw [begin, if_neg (by omega), if_pos h]

theorem begin_three (h : 0xe0 ≤ b ∧ b ≤ 0xef) :
    begin b = ([], some ⟨b - 0xe0, 2, if b = 0xe0 then 0xa0 else 0x80,
      if b = 0xed then 0x9f else 0xbf⟩) := by
  rw [begin, if_neg (by omega), if_neg (by omega)]
  by_cases he0 : b = 0xe0
  · subst he0
    rfl
  by_cases hed : b = 0xed
  · subst hed
    rfl
  rw [if_neg he0, if_neg hed, if_pos (by omega), if_neg he0, if_neg hed]

theorem begin_four (h : 0xf0 ≤ b ∧ b ≤ 0xf4) :
    begin b = ([], some ⟨b - 0xf0, 3, if b = 0xf0 then 0x90 else 0x80,
      if b = 0xf4 then 0x8f else 0xbf⟩) := by
  rw [begin, if_neg (by omega), if_neg (by omega), if_neg (by omega), if_neg (by omega),
    if_neg (by omega)]
  by_cases hf0 : b = 0xf0
  · subst hf0
    rfl
  by_cases hf4 : b = 0xf4
  · subst hf4
    rfl
  rw [if_neg hf0, if_pos (by omega), if_neg hf0, if_neg hf4]

theorem accept_last (h : p.lower ≤ b ∧ b ≤ p.upper) (hlast : p.lacking = 1) :
    accept (some p) b = ([Char.ofNat (64 * p.value + (b - 0x80))], none) := by
  rw [accept, if_pos h, if_pos hlast]

theorem accept_next (h : p.lower ≤ b ∧ b ≤ p.upper) (hnext : p.lacking ≠ 1) :
    accept (some p) b =
      ([], some ⟨64 * p.value + (b - 0x80), p.lacking - 1, 0x80, 0xbf⟩) := by
  rw [accept, if_pos h, if_neg hnext]

end Steps

theorem run_encodeChar (c : Char) (bs : List UInt8) :
    run none (String.utf8EncodeChar c ++ bs) = (c :: (run none bs).1, (run none bs).2) := by
  have hvalid : c.toNat < 0xd800 ∨ 0xdfff < c.toNat ∧ c.toNat < 0x110000 := c.valid
  have hofNat : ∀ n, n = c.toNat → Char.ofNat n = c := fun n hn => hn ▸ Char.ofNat_toNat c
  have htoNat : ∀ n < 256, (UInt8.ofNat n).toNat = n := fun n hn => UInt8.toNat_ofNat_of_lt' hn
  unfold String.utf8EncodeChar
  simp only [show c.val.toNat = c.toNat from rfl]
  generalize c.toNat = v at *
  split_ifs with hone htwo hthree
  · have h0 : accept none (UInt8.ofNat v).toNat = ([c], none) := by
      rw [htoNat _ (by omega), accept, begin, if_pos (by omega), hofNat _ rfl]
    simp only [List.cons_append, List.nil_append, run, h0]
  · have h0 : accept none (UInt8.ofNat (v / 64 % 0x20 + 0xc0)).toNat =
        ([], some ⟨v / 64, 1, 0x80, 0xbf⟩) := by
      rw [htoNat _ (by omega), accept, begin_two (by omega)]
      simp only [Prod.mk.injEq, Option.some.injEq, Pending.mk.injEq, and_true, true_and]
      omega
    have h1 : accept (some ⟨v / 64, 1, 0x80, 0xbf⟩) (UInt8.ofNat (v % 0x40 + 0x80)).toNat =
        ([c], none) := by
      rw [htoNat _ (by omega), accept_last ⟨by simp, by simp; omega⟩ rfl, hofNat _ (by simp; omega)]
    simp only [List.cons_append, List.nil_append, run, h0, h1]
  · have h0 : accept none (UInt8.ofNat (v / 4096 % 0x10 + 0xe0)).toNat =
        ([], some ⟨v / 4096, 2, if v / 4096 = 0 then 0xa0 else 0x80,
          if v / 4096 = 0xd then 0x9f else 0xbf⟩) := by
      rw [htoNat _ (by omega), accept, begin_three (by omega)]
      simp only [Prod.mk.injEq, Option.some.injEq, Pending.mk.injEq, true_and]
      refine ⟨by omega, ?_, ?_⟩ <;> congr 1 <;> simp <;> omega
    have h1 : accept (some ⟨v / 4096, 2, if v / 4096 = 0 then 0xa0 else 0x80,
          if v / 4096 = 0xd then 0x9f else 0xbf⟩) (UInt8.ofNat (v / 64 % 0x40 + 0x80)).toNat =
        ([], some ⟨v / 64, 1, 0x80, 0xbf⟩) := by
      rw [htoNat _ (by omega), accept_next ⟨by simp only; split_ifs <;> omega,
        by simp only; split_ifs <;> omega⟩ (by simp)]
      simp only [Prod.mk.injEq, Option.some.injEq, Pending.mk.injEq, and_true, true_and]
      omega
    have h2 : accept (some ⟨v / 64, 1, 0x80, 0xbf⟩) (UInt8.ofNat (v % 0x40 + 0x80)).toNat =
        ([c], none) := by
      rw [htoNat _ (by omega), accept_last ⟨by simp, by simp; omega⟩ rfl, hofNat _ (by simp; omega)]
    simp only [List.cons_append, List.nil_append, run, h0, h1, h2]
  · have h0 : accept none (UInt8.ofNat (v / 262144 % 0x08 + 0xf0)).toNat =
        ([], some ⟨v / 262144, 3, if v / 262144 = 0 then 0x90 else 0x80,
          if v / 262144 = 4 then 0x8f else 0xbf⟩) := by
      rw [htoNat _ (by omega), accept, begin_four (by omega)]
      simp only [Prod.mk.injEq, Option.some.injEq, Pending.mk.injEq, true_and]
      refine ⟨by omega, ?_, ?_⟩ <;> congr 1 <;> simp <;> omega
    have h1 : accept (some ⟨v / 262144, 3, if v / 262144 = 0 then 0x90 else 0x80,
          if v / 262144 = 4 then 0x8f else 0xbf⟩) (UInt8.ofNat (v / 4096 % 0x40 + 0x80)).toNat =
        ([], some ⟨v / 4096, 2, 0x80, 0xbf⟩) := by
      rw [htoNat _ (by omega), accept_next ⟨by simp only; split_ifs <;> omega,
        by simp only; split_ifs <;> omega⟩ (by simp)]
      simp only [Prod.mk.injEq, Option.some.injEq, Pending.mk.injEq, and_true, true_and]
      omega
    have h2 : accept (some ⟨v / 4096, 2, 0x80, 0xbf⟩) (UInt8.ofNat (v / 64 % 0x40 + 0x80)).toNat =
        ([], some ⟨v / 64, 1, 0x80, 0xbf⟩) := by
      rw [htoNat _ (by omega), accept_next ⟨by simp, by simp; omega⟩ (by simp)]
      simp only [Prod.mk.injEq, Option.some.injEq, Pending.mk.injEq, and_true, true_and]
      omega
    have h3 : accept (some ⟨v / 64, 1, 0x80, 0xbf⟩) (UInt8.ofNat (v % 0x40 + 0x80)).toNat =
        ([c], none) := by
      rw [htoNat _ (by omega), accept_last ⟨by simp, by simp; omega⟩ rfl, hofNat _ (by simp; omega)]
    simp only [List.cons_append, List.nil_append, run, h0, h1, h2, h3]

theorem decode_encode (s : List Char) : decode (encode s) = s := by
  have hrun : run none (encode s) = (s, none) := by
    induction s with
    | nil => rfl
    | cons c s ih =>
      rw [encode, List.flatMap_cons, run_encodeChar]
      change (c :: (run none (encode s)).1, (run none (encode s)).2) = _
      rw [ih]
  rw [decode, hrun]
  exact List.append_nil s

/-! ### What is encoded again -/

section Sizes

variable {n : ℕ}

theorem toNat_ofNat (h : n < 0xd800 ∨ 0xdfff < n ∧ n < 0x110000) :
    (Char.ofNat n).val.toNat = n := by
  have hvalid : n.isValidChar := h
  rw [Char.ofNat, dif_pos hvalid]
  rfl

theorem utf8Size_two (h : 0x80 ≤ n ∧ n ≤ 0x7ff) : (Char.ofNat n).utf8Size = 2 := by
  rw [Char.utf8Size_eq_two_iff, UInt32.lt_iff_toNat_lt, UInt32.le_iff_toNat_le,
    toNat_ofNat (by omega)]
  exact ⟨h.1, h.2⟩

theorem utf8Size_three (h : 0x800 ≤ n ∧ n < 0xd800 ∨ 0xdfff < n ∧ n ≤ 0xffff) :
    (Char.ofNat n).utf8Size = 3 := by
  rw [Char.utf8Size_eq_three_iff, UInt32.lt_iff_toNat_lt, UInt32.le_iff_toNat_le,
    toNat_ofNat (by omega)]
  exact ⟨show 0x7ff < n by omega, show n ≤ 0xffff by omega⟩

theorem utf8Size_four (h : 0x10000 ≤ n ∧ n ≤ 0x10ffff) : (Char.ofNat n).utf8Size = 4 := by
  rw [Char.utf8Size_eq_four_iff, UInt32.lt_iff_toNat_lt, toNat_ofNat (by omega)]
  exact h.1

end Sizes

/-- A character has begun with so many octets, and whatever follows it has as many as it takes. -/
structure Pending.Fits (p : Pending) (k : ℕ) : Prop where
  taken : 1 ≤ k ∧ k ≤ 3
  lacking : p.lacking = 1 ∨ p.lacking = 2 ∨ p.lacking = 3
  lower : 0x80 ≤ p.lower
  upper : p.upper ≤ 0xbf
  size : ∀ n, (64 * p.value + (p.lower - 0x80)) * 64 ^ (p.lacking - 1) ≤ n →
    n < (64 * p.value + (p.upper - 0x80) + 1) * 64 ^ (p.lacking - 1) →
    (Char.ofNat n).utf8Size = k + p.lacking

/-- So many octets have been taken that are no character yet. -/
def Fits : Option Pending → ℕ → Prop
  | none, k => k = 0
  | some p, k => p.Fits k

theorem length_encode_cons (c : Char) (s : List Char) :
    (encode (c :: s)).length = c.utf8Size + (encode s).length := by
  rw [encode, List.flatMap_cons, List.length_append, String.length_utf8EncodeChar, encode]

theorem length_encode_append (s t : List Char) :
    (encode (s ++ t)).length = (encode s).length + (encode t).length := by
  rw [encode, List.flatMap_append, List.length_append, encode, encode]

theorem fits_begin (b : ℕ) :
    ∃ k, Fits (begin b).2 k ∧ 1 ≤ (encode (begin b).1).length + k := by
  by_cases h2 : 0xc2 ≤ b ∧ b ≤ 0xdf
  · rw [begin_two h2]
    refine ⟨1, ⟨⟨Nat.le_refl 1, by omega⟩, .inl rfl, Nat.le_refl _, Nat.le_refl _,
      fun n hlo hhi => ?_⟩, Nat.le_add_left 1 _⟩
    simp only [Nat.sub_self, Nat.pow_zero] at hlo hhi
    exact utf8Size_two (by omega)
  by_cases h3 : 0xe0 ≤ b ∧ b ≤ 0xef
  · rw [begin_three h3]
    refine ⟨1, ⟨⟨Nat.le_refl 1, by omega⟩, .inr (.inl rfl), ?_, ?_, fun n hlo hhi => ?_⟩,
      Nat.le_add_left 1 _⟩
    · simp only
      split_ifs <;> omega
    · simp only
      split_ifs <;> omega
    · simp only [Nat.add_one_sub_one, Nat.pow_one] at hlo hhi
      refine utf8Size_three ?_
      split_ifs at hlo hhi <;> omega
  by_cases h4 : 0xf0 ≤ b ∧ b ≤ 0xf4
  · rw [begin_four h4]
    refine ⟨1, ⟨⟨Nat.le_refl 1, by omega⟩, .inr (.inr rfl), ?_, ?_, fun n hlo hhi => ?_⟩,
      Nat.le_add_left 1 _⟩
    · simp only
      split_ifs <;> omega
    · simp only
      split_ifs <;> omega
    · simp only [Nat.reduceSub, Nat.reducePow] at hlo hhi
      refine utf8Size_four ?_
      split_ifs at hlo hhi <;> omega
  have hnone : ∃ c, begin b = ([c], none) := by
    rw [begin]
    split_ifs <;> first | omega | exact ⟨_, rfl⟩
  obtain ⟨c, hc⟩ := hnone
  rw [hc]
  refine ⟨0, rfl, ?_⟩
  rw [length_encode_cons]
  exact Nat.le_trans c.utf8Size_pos (Nat.le_add_right _ _)

/-- The characters that may still follow an octet are among those that might have. -/
theorem Pending.Fits.size_of_next {p : Pending} {k b n : ℕ} (h : p.Fits k)
    (hb : p.lower ≤ b ∧ b ≤ p.upper) (hlast : p.lacking ≠ 1)
    (hlo : 64 * (64 * p.value + (b - 0x80)) * 64 ^ (p.lacking - 1 - 1) ≤ n)
    (hhi : n < (64 * (64 * p.value + (b - 0x80)) + 0x3f + 1) * 64 ^ (p.lacking - 1 - 1)) :
    (Char.ofNat n).utf8Size = k + p.lacking := by
  have hlower := h.lower
  have hpow : ∀ v, 64 * v * 64 ^ (p.lacking - 1 - 1) = v * 64 ^ (p.lacking - 1) := by
    intro v
    have hlacking : p.lacking - 1 = p.lacking - 1 - 1 + 1 := by
      have := h.lacking
      omega
    conv_rhs => rw [hlacking, Nat.pow_succ]
    rw [Nat.mul_comm 64 v, Nat.mul_assoc, Nat.mul_comm 64]
  refine h.size n (Nat.le_trans ?_ hlo) (Nat.lt_of_lt_of_le hhi ?_)
  · rw [hpow]
    exact Nat.mul_le_mul_right _ (by omega)
  · rw [show 64 * (64 * p.value + (b - 0x80)) + 0x3f + 1 =
      64 * (64 * p.value + (b - 0x80) + 1) from rfl, hpow]
    exact Nat.mul_le_mul_right _ (by omega)

theorem fits_accept {state : Option Pending} {k : ℕ} (h : Fits state k) (b : ℕ) :
    ∃ k', Fits (accept state b).2 k' ∧ k + 1 ≤ (encode (accept state b).1).length + k' := by
  cases state with
  | none =>
    cases h
    exact fits_begin b
  | some p =>
    have hfits : p.Fits k := h
    obtain ⟨⟨hone, hthree⟩, hlacking, hlower, hupper, hsize⟩ := hfits
    by_cases hb : p.lower ≤ b ∧ b ≤ p.upper
    · by_cases hlast : p.lacking = 1
      · rw [accept_last hb hlast]
        refine ⟨0, rfl, ?_⟩
        rw [hlast] at hsize
        simp only [Nat.sub_self, Nat.pow_zero, Nat.mul_one] at hsize
        rw [length_encode_cons, hsize _ (by omega) (by omega)]
        exact Nat.le_add_right _ _
      · rw [accept_next hb hlast]
        have hwithin := fun n => @Pending.Fits.size_of_next p k b n h hb hlast
        have hfour : k + p.lacking ≤ 4 := by
          rw [← hwithin (64 * (64 * p.value + (b - 0x80)) * 64 ^ (p.lacking - 1 - 1))
            (Nat.le_refl _) (Nat.mul_lt_mul_of_pos_right (by omega) (Nat.pow_pos (by decide)))]
          exact Char.utf8Size_le_four _
        refine ⟨k + 1, ⟨⟨by omega, by omega⟩, ?_, Nat.le_refl _, Nat.le_refl _,
          fun n hlo hhi => ?_⟩, Nat.le_add_left _ _⟩
        · simp only
          omega
        · simp only [Nat.sub_self, Nat.add_zero, Nat.reduceSub] at hlo hhi
          rw [hwithin n hlo hhi]
          simp only
          omega
    · rw [accept, if_neg hb]
      obtain ⟨k', hfits, hle⟩ := fits_begin b
      refine ⟨k', hfits, ?_⟩
      have hreplacement : replacement.utf8Size = 3 := by decide
      rw [length_encode_cons, hreplacement]
      omega

theorem le_length_encode_run {state : Option Pending} {k : ℕ} (h : Fits state k)
    (bs : List UInt8) :
    k + bs.length ≤ (encode ((run state bs).1 ++ finish (run state bs).2)).length := by
  induction bs generalizing state k with
  | nil =>
    cases state with
    | none => exact Nat.le_of_eq h
    | some p =>
      have hthree : k ≤ 3 := Pending.Fits.taken h |>.2
      exact hthree
  | cons b bs ih =>
    obtain ⟨k', hfits, hle⟩ := fits_accept h b.toNat
    have hrest := ih hfits
    simp only [run, List.append_assoc, length_encode_append, List.length_cons] at hrest ⊢
    omega

/-- Encoding what has been decoded gives no fewer octets. -/
theorem length_le_length_encode_decode (bs : List UInt8) :
    bs.length ≤ (encode (decode bs)).length := by
  have h := @le_length_encode_run none 0 rfl bs
  rwa [Nat.zero_add] at h

/-- Octets that are decoded in pieces come out as they were just if every piece is a text. -/
theorem encode_flatMap_decode_iff (pieces : List (List UInt8)) :
    encode (pieces.flatMap decode) = pieces.flatten ↔ ∀ piece ∈ pieces, ∃ s, piece = encode s := by
  have hlength : ∀ pieces : List (List UInt8),
      pieces.flatten.length ≤ (encode (pieces.flatMap decode)).length := by
    intro pieces
    induction pieces with
    | nil => exact Nat.zero_le _
    | cons piece pieces ih =>
      rw [List.flatten_cons, List.flatMap_cons, List.length_append, length_encode_append]
      exact Nat.add_le_add (length_le_length_encode_decode piece) ih
  induction pieces with
  | nil => exact iff_of_true rfl (by simp)
  | cons piece pieces ih =>
    have happend : encode ((piece :: pieces).flatMap decode) =
        encode (decode piece) ++ encode (pieces.flatMap decode) := by
      rw [List.flatMap_cons, encode, List.flatMap_append, encode, encode]
    rw [happend, List.flatten_cons, List.forall_mem_cons]
    constructor
    · intro heq
      have hsum := congrArg List.length heq
      rw [List.length_append, List.length_append] at hsum
      have hpiece := length_le_length_encode_decode piece
      have hrest := hlength pieces
      obtain ⟨hfirst, hrest⟩ := List.append_inj heq (by omega)
      exact ⟨⟨decode piece, hfirst.symm⟩, ih.mp hrest⟩
    · rintro ⟨⟨s, rfl⟩, hrest⟩
      rw [decode_encode, ih.mpr hrest]

end TextLines

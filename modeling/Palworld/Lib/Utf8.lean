import Palworld.Lib.Base64
import Mathlib.Data.Char

/-!
# Lenient UTF-8

A decoder that puts a replacement character in the place of what is no UTF-8, as much at a time as
could have begun a character.
-/

namespace Lib

def replacementChar : Char := '\uFFFD'

/-- What the first byte of a character asks for: how many bytes behind it, between which bounds the next one, and its own bits. -/
def utf8Lead (b : Nat) : Option (Nat × Nat × Nat × Nat) :=
  if 0xC2 ≤ b ∧ b ≤ 0xDF then some (1, 0x80, 0xBF, b - 0xC0)
  else if b = 0xE0 then some (2, 0xA0, 0xBF, 0)
  else if b = 0xED then some (2, 0x80, 0x9F, 0xD)
  else if 0xE1 ≤ b ∧ b ≤ 0xEF then some (2, 0x80, 0xBF, b - 0xE0)
  else if b = 0xF0 then some (3, 0x90, 0xBF, 0)
  else if 0xF1 ≤ b ∧ b ≤ 0xF3 then some (3, 0x80, 0xBF, b - 0xF0)
  else if b = 0xF4 then some (3, 0x80, 0x8F, 4)
  else none

/-- The bytes behind the first one, as far as they go on with the character. -/
def utf8Rest : Nat → Nat → Nat → Nat → List UInt8 → Char × List UInt8
  | 0, _, _, bits, bs => (Char.ofNat bits, bs)
  | _ + 1, _, _, _, [] => (replacementChar, [])
  | n + 1, low, high, bits, b :: bs =>
    if low ≤ b.toNat ∧ b.toNat ≤ high then utf8Rest n 0x80 0xBF (bits * 64 + (b.toNat - 0x80)) bs else (replacementChar, b :: bs)

def utf8Next (b : UInt8) (bs : List UInt8) : Char × List UInt8 :=
  if b.toNat < 0x80 then (Char.ofNat b.toNat, bs)
  else
    match utf8Lead b.toNat with
    | none => (replacementChar, bs)
    | some (n, low, high, bits) => utf8Rest n low high bits bs

def utf8DecodeFuel : Nat → List UInt8 → Text
  | 0, _ => []
  | _ + 1, [] => []
  | fuel + 1, b :: bs => (utf8Next b bs).1 :: utf8DecodeFuel fuel (utf8Next b bs).2

/-- `bs.decode("utf-8", errors="replace")`. -/
def utf8DecodeReplace (bs : List UInt8) : Text := utf8DecodeFuel bs.length bs

variable {c : Char} {t : Text} {bs : List UInt8}

theorem utf8Encode_nil : utf8Encode [] = [] := rfl

theorem utf8Encode_cons (c : Char) (t : Text) : utf8Encode (c :: t) = String.utf8EncodeChar c ++ utf8Encode t := by
  unfold utf8Encode
  rw [String.toByteArray_ofList, String.toByteArray_ofList, List.utf8Encode_cons, List.utf8Encode_singleton]
  simp

/-- A code point is no surrogate. -/
theorem val_range (c : Char) : c.val.toNat < 0xD800 ∨ (0xDFFF < c.val.toNat ∧ c.val.toNat < 0x110000) := c.valid

theorem toNat_ofNat {n : Nat} (h : n < 256) : (UInt8.ofNat n).toNat = n := by
  rw [UInt8.toNat_ofNat']
  exact Nat.mod_eq_of_lt h

theorem utf8Rest_step {n low high bits k : Nat} (hlow : low ≤ k + 0x80) (hhigh : k + 0x80 ≤ high) (hk : k < 64) (bs : List UInt8) :
    utf8Rest (n + 1) low high bits (UInt8.ofNat (k + 0x80) :: bs) = utf8Rest n 0x80 0xBF (bits * 64 + k) bs := by
  rw [utf8Rest, toNat_ofNat (by omega), if_pos ⟨hlow, hhigh⟩, Nat.add_sub_cancel]

theorem utf8Next_lead {b n low high bits : Nat} (hb : 0x80 ≤ b) (hbyte : b < 256) (hlead : utf8Lead b = some (n, low, high, bits)) (bs : List UInt8) :
    utf8Next (UInt8.ofNat b) bs = utf8Rest n low high bits bs := by
  unfold utf8Next
  rw [toNat_ofNat hbyte, if_neg (by omega), hlead]

theorem utf8Lead_two {b : Nat} (h : 0xC2 ≤ b) (h' : b ≤ 0xDF) : utf8Lead b = some (1, 0x80, 0xBF, b - 0xC0) := if_pos ⟨h, h'⟩

/-- The bounds rule out what a shorter sequence could say, and the surrogates. -/
theorem utf8Lead_three {k j : Nat} (hk : k < 16) (hsmall : k = 0 → 32 ≤ j) (hsurrogate : k = 13 → j < 32) (hj : j < 64) :
    ∃ low high, utf8Lead (k + 0xE0) = some (2, low, high, k) ∧ low ≤ j + 0x80 ∧ j + 0x80 ≤ high := by
  unfold utf8Lead
  rw [if_neg (by omega)]
  split
  · obtain rfl : k = 0 := by omega
    exact ⟨_, _, rfl, by omega, by omega⟩
  split
  · obtain rfl : k = 13 := by omega
    exact ⟨_, _, rfl, by omega, by omega⟩
  · rw [if_pos (by omega), Nat.add_sub_cancel]
    exact ⟨_, _, rfl, by omega, by omega⟩

theorem utf8Lead_four {k j : Nat} (hk : k < 5) (hsmall : k = 0 → 16 ≤ j) (hlast : k = 4 → j < 16) (hj : j < 64) :
    ∃ low high, utf8Lead (k + 0xF0) = some (3, low, high, k) ∧ low ≤ j + 0x80 ∧ j + 0x80 ≤ high := by
  unfold utf8Lead
  rw [if_neg (by omega), if_neg (by omega), if_neg (by omega), if_neg (by omega)]
  split
  · obtain rfl : k = 0 := by omega
    exact ⟨_, _, rfl, by omega, by omega⟩
  split
  · rw [Nat.add_sub_cancel]
    exact ⟨_, _, rfl, by omega, by omega⟩
  · obtain rfl : k = 4 := by omega
    exact ⟨_, _, rfl, by omega, by omega⟩

/-- A character is read back. -/
theorem utf8Next_encode (c : Char) (bs : List UInt8) : ∃ b cs, String.utf8EncodeChar c = b :: cs ∧ utf8Next b (cs ++ bs) = (c, bs) := by
  have hrange := val_range c
  have hchar : ∀ n, n = c.val.toNat → Char.ofNat n = c := by
    rintro n rfl
    exact Char.ofNat_toNat c
  unfold String.utf8EncodeChar
  dsimp only
  split
  · refine ⟨_, _, rfl, ?_⟩
    unfold utf8Next
    rw [toNat_ofNat (by omega), if_pos (by omega), hchar _ rfl]
    rfl
  split
  · refine ⟨_, _, rfl, ?_⟩
    rw [utf8Next_lead (by omega) (by omega) (utf8Lead_two (by omega) (by omega))]
    simp only [List.cons_append, List.nil_append]
    rw [utf8Rest_step (by omega) (by omega) (by omega), utf8Rest, hchar _ (by omega)]
  split
  · obtain ⟨low, high, hlead, hlow, hhigh⟩ := @utf8Lead_three (c.val.toNat / 4096 % 0x10) (c.val.toNat / 64 % 0x40)
      (by omega) (by omega) (by omega) (by omega)
    refine ⟨_, _, rfl, ?_⟩
    rw [utf8Next_lead (by omega) (by omega) hlead]
    simp only [List.cons_append, List.nil_append]
    rw [utf8Rest_step hlow hhigh (by omega), utf8Rest_step (by omega) (by omega) (by omega), utf8Rest, hchar _ (by omega)]
  · obtain ⟨low, high, hlead, hlow, hhigh⟩ := @utf8Lead_four (c.val.toNat / 262144 % 0x08) (c.val.toNat / 4096 % 0x40)
      (by omega) (by omega) (by omega) (by omega)
    refine ⟨_, _, rfl, ?_⟩
    rw [utf8Next_lead (by omega) (by omega) hlead]
    simp only [List.cons_append, List.nil_append]
    rw [utf8Rest_step hlow hhigh (by omega), utf8Rest_step (by omega) (by omega) (by omega), utf8Rest_step (by omega) (by omega) (by omega),
      utf8Rest, hchar _ (by omega)]

theorem utf8DecodeFuel_encode {fuel : Nat} (hfuel : (utf8Encode t).length ≤ fuel) : utf8DecodeFuel fuel (utf8Encode t) = t := by
  induction t generalizing fuel with
  | nil =>
    cases fuel with
    | zero => rfl
    | succ fuel => rfl
  | cons c t ih =>
    obtain ⟨b, cs, hencode, hnext⟩ := utf8Next_encode c (utf8Encode t)
    rw [utf8Encode_cons, hencode, List.cons_append] at hfuel ⊢
    rw [List.length_cons, List.length_append] at hfuel
    cases fuel with
    | zero => omega
    | succ fuel => rw [utf8DecodeFuel, hnext, ih (by omega)]

/-- What is UTF-8 is read back. -/
theorem utf8DecodeReplace_encode (t : Text) : utf8DecodeReplace (utf8Encode t) = t := utf8DecodeFuel_encode (Nat.le_refl _)

/-- The byte zero is the character zero. -/
theorem zero_notMem_encodeChar (h : c ≠ Char.ofNat 0) : 0 ∉ String.utf8EncodeChar c := by
  have hrange := val_range c
  have hzero : c.val.toNat ≠ 0 := by
    intro hval
    refine h ?_
    rw [← Char.ofNat_toNat c]
    exact congrArg Char.ofNat hval
  have hne : ∀ n, 0 < n → n < 256 → (0 : UInt8) ≠ UInt8.ofNat n := by
    intro n hpos hbyte heq
    have hnat := congrArg UInt8.toNat heq
    rw [toNat_ofNat hbyte] at hnat
    have hzero : (0 : UInt8).toNat = 0 := rfl
    omega
  unfold String.utf8EncodeChar
  dsimp only
  intro hmem
  split at hmem
  · simp only [List.mem_singleton] at hmem
    exact hne _ (by omega) (by omega) hmem
  split at hmem
  · simp only [List.mem_cons, List.not_mem_nil, or_false] at hmem
    rcases hmem with hmem | hmem
    all_goals exact hne _ (by omega) (by omega) hmem
  split at hmem
  · simp only [List.mem_cons, List.not_mem_nil, or_false] at hmem
    rcases hmem with hmem | hmem | hmem
    all_goals exact hne _ (by omega) (by omega) hmem
  · simp only [List.mem_cons, List.not_mem_nil, or_false] at hmem
    rcases hmem with hmem | hmem | hmem | hmem
    all_goals exact hne _ (by omega) (by omega) hmem

theorem zero_notMem_utf8Encode (h : Char.ofNat 0 ∉ t) : 0 ∉ utf8Encode t := by
  induction t with
  | nil =>
    rw [utf8Encode_nil]
    exact List.not_mem_nil
  | cons c t ih =>
    rw [List.mem_cons, not_or] at h
    rw [utf8Encode_cons, List.mem_append, not_or]
    exact ⟨zero_notMem_encodeChar (Ne.symm h.1), ih h.2⟩

example : utf8DecodeReplace [0x61, 0xE2, 0x82, 0x41, 0xC0, 0xF0, 0x9F, 0x98, 0x80, 0xED, 0xA0] =
    ['a', replacementChar, 'A', replacementChar, Char.ofNat 0x1F600, replacementChar, replacementChar] := by decide

end Lib

import Palworld.Lib.Text
import Mathlib.Tactic.Common

/-!
# Base64 and UTF-8

The URL-safe encoder, the lenient decoder of `binascii.a2b_base64` and strict UTF-8.
-/

namespace Lib

def utf8Encode (t : Text) : List UInt8 := (String.ofList t).toByteArray.data.toList

/-- `bs.decode("utf-8")`. `none` is the `UnicodeDecodeError`. -/
def utf8Decode (bs : List UInt8) : Option Text := (String.fromUTF8? ⟨bs.toArray⟩).map String.toList

def isAscii (c : Char) : Bool := c.toNat < 128

def base64urlChar (n : Nat) : Char :=
  if n < 26 then Char.ofNat (65 + n)
  else if n < 52 then Char.ofNat (97 + (n - 26))
  else if n < 62 then Char.ofNat (48 + (n - 52))
  else if n = 62 then '-'
  else '_'

def urlsafeB64encode : List UInt8 → Text
  | [] => []
  | [a] => [base64urlChar (a.toNat / 4), base64urlChar (a.toNat % 4 * 16), '=', '=']
  | [a, b] =>
    [base64urlChar (a.toNat / 4), base64urlChar (a.toNat % 4 * 16 + b.toNat / 16),
      base64urlChar (b.toNat % 16 * 4), '=']
  | a :: b :: c :: rest =>
    base64urlChar (a.toNat / 4) :: base64urlChar (a.toNat % 4 * 16 + b.toNat / 16) ::
      base64urlChar (b.toNat % 16 * 4 + c.toNat / 64) :: base64urlChar (c.toNat % 64) :: urlsafeB64encode rest

def base64Value (b : UInt8) : Option Nat :=
  let n := b.toNat
  if 65 ≤ n ∧ n ≤ 90 then some (n - 65)
  else if 97 ≤ n ∧ n ≤ 122 then some (n - 97 + 26)
  else if 48 ≤ n ∧ n ≤ 57 then some (n - 48 + 52)
  else if n = 43 then some 62
  else if n = 47 then some 63
  else none

/-- The loop of `binascii.a2b_base64`. Bytes outside the alphabet are skipped, and a padding that
completes a group of four ends the input. -/
def a2bLoop (quadPos leftchar pads : Nat) (out : List UInt8) : List UInt8 → Option (List UInt8)
  | [] => if quadPos = 0 then some out.reverse else none
  | b :: rest =>
    if b = 61 then
      if quadPos ≥ 2 then
        if quadPos + (pads + 1) ≥ 4 then some out.reverse else a2bLoop quadPos leftchar (pads + 1) out rest
      else a2bLoop quadPos leftchar pads out rest
    else
      match base64Value b with
      | none => a2bLoop quadPos leftchar pads out rest
      | some v =>
        match quadPos with
        | 0 => a2bLoop 1 v 0 out rest
        | 1 => a2bLoop 2 (v % 16) 0 (UInt8.ofNat (leftchar * 4 + v / 16) :: out) rest
        | 2 => a2bLoop 3 (v % 4) 0 (UInt8.ofNat (leftchar * 16 + v / 4) :: out) rest
        | _ => a2bLoop 0 0 0 (UInt8.ofNat (leftchar * 64 + v) :: out) rest

/-- `base64.b64decode` of bytes. `none` is the `binascii.Error`. -/
def b64decode (bs : List UInt8) : Option (List UInt8) := a2bLoop 0 0 0 [] bs

/-- `base64.b64decode` of a `str`, which has to be ASCII. -/
def b64decodeStr (t : Text) : Option (List UInt8) := if t.all isAscii then b64decode (utf8Encode t) else none

def urlsafeB64decode (bs : List UInt8) : Option (List UInt8) :=
  b64decode (bs.map fun b => if b = 45 then 43 else if b = 95 then 47 else b)

theorem isAscii_base64urlChar (n : Nat) : isAscii (base64urlChar n) = true := by
  have hsmall : ∀ m < 128, isAscii (Char.ofNat m) = true := by decide
  unfold base64urlChar
  split_ifs
  · exact hsmall _ (by omega)
  · exact hsmall _ (by omega)
  · exact hsmall _ (by omega)
  · rfl
  · rfl

theorem isAscii_urlsafeB64encode (bs : List UInt8) : (urlsafeB64encode bs).all isAscii = true := by
  fun_induction urlsafeB64encode bs with
  | case1 => rfl
  | case2 a =>
    simp only [List.all_cons, isAscii_base64urlChar]
    rfl
  | case3 a b =>
    simp only [List.all_cons, isAscii_base64urlChar]
    rfl
  | case4 a b c rest ih => simp only [List.all_cons, isAscii_base64urlChar, ih, Bool.and_self]

/-! ## Round trip -/

theorem utf8Decode_utf8Encode (t : Text) : utf8Decode (utf8Encode t) = some t := by
  have harray : (⟨(utf8Encode t).toArray⟩ : ByteArray) = (String.ofList t).toByteArray := by
    unfold utf8Encode
    simp
  have htext : String.fromUTF8 (String.ofList t).toByteArray (String.ofList t).isValidUTF8 = String.ofList t :=
    String.toByteArray_inj.mp rfl
  unfold utf8Decode String.fromUTF8?
  rw [harray, dif_pos (String.ofList t).isValidUTF8, htext]
  simp

theorem utf8Encode_cons_ascii {c : Char} (t : Text) (h : isAscii c = true) :
    utf8Encode (c :: t) = UInt8.ofNat c.toNat :: utf8Encode t := by
  have hchar : String.utf8EncodeChar c = [UInt8.ofNat c.toNat] := by
    have hle : c.val.toNat ≤ 127 := by
      have hlt : c.toNat < 128 := of_decide_eq_true h
      have hc : c.val.toNat = c.toNat := rfl
      omega
    unfold String.utf8EncodeChar
    simp only [hle]
    rfl
  unfold utf8Encode
  rw [String.toByteArray_ofList, String.toByteArray_ofList, List.utf8Encode_cons, List.utf8Encode_singleton, hchar]
  simp

theorem utf8Encode_ascii {t : Text} (h : t.all isAscii = true) : utf8Encode t = t.map fun c => UInt8.ofNat c.toNat := by
  induction t with
  | nil => rfl
  | cons c t ih =>
    simp only [List.all_cons, Bool.and_eq_true] at h
    rw [utf8Encode_cons_ascii t h.1, ih h.2, List.map_cons]

/-- The byte of a character as `urlsafe_b64decode` hands it on. -/
def standardByte (c : Char) : UInt8 :=
  let b := UInt8.ofNat c.toNat
  if b = 45 then 43 else if b = 95 then 47 else b

theorem urlsafeB64decode_ascii {t : Text} (h : t.all isAscii = true) :
    urlsafeB64decode (utf8Encode t) = a2bLoop 0 0 0 [] (t.map standardByte) := by
  rw [utf8Encode_ascii h, urlsafeB64decode, b64decode, List.map_map]
  rfl

theorem base64Value_base64urlChar {n : Nat} (h : n < 64) :
    standardByte (base64urlChar n) ≠ 61 ∧ base64Value (standardByte (base64urlChar n)) = some n := by
  revert n
  decide

theorem a2bLoop_value {n quadPos leftchar pads : Nat} {out rest : List UInt8} (h : n < 64) :
    a2bLoop quadPos leftchar pads out (standardByte (base64urlChar n) :: rest) =
      match quadPos with
      | 0 => a2bLoop 1 n 0 out rest
      | 1 => a2bLoop 2 (n % 16) 0 (UInt8.ofNat (leftchar * 4 + n / 16) :: out) rest
      | 2 => a2bLoop 3 (n % 4) 0 (UInt8.ofNat (leftchar * 16 + n / 4) :: out) rest
      | _ => a2bLoop 0 0 0 (UInt8.ofNat (leftchar * 64 + n) :: out) rest := by
  obtain ⟨hpad, hvalue⟩ := base64Value_base64urlChar h
  rw [a2bLoop, if_neg hpad, hvalue]

theorem a2bLoop_first {a b : Nat} (leftchar pads : Nat) (out rest : List UInt8) (ha : a < 256) (hb : b < 256) :
    a2bLoop 0 leftchar pads out
        (standardByte (base64urlChar (a / 4)) :: standardByte (base64urlChar (a % 4 * 16 + b / 16)) :: rest) =
      a2bLoop 2 (b / 16) 0 (UInt8.ofNat a :: out) rest := by
  have hbyte : a / 4 * 4 + (a % 4 * 16 + b / 16) / 16 = a := by omega
  have hleft : (a % 4 * 16 + b / 16) % 16 = b / 16 := by omega
  rw [a2bLoop_value (by omega), a2bLoop_value (by omega), hbyte, hleft]
  rfl

theorem a2bLoop_second {b c : Nat} (pads : Nat) (out rest : List UInt8) (hc : c < 256) :
    a2bLoop 2 (b / 16) pads out (standardByte (base64urlChar (b % 16 * 4 + c / 64)) :: rest) =
      a2bLoop 3 (c / 64) 0 (UInt8.ofNat b :: out) rest := by
  have hbyte : b / 16 * 16 + (b % 16 * 4 + c / 64) / 4 = b := by omega
  have hleft : (b % 16 * 4 + c / 64) % 4 = c / 64 := by omega
  rw [a2bLoop_value (by omega), hbyte, hleft]
  rfl

theorem a2bLoop_third {c pads : Nat} {out rest : List UInt8} :
    a2bLoop 3 (c / 64) pads out (standardByte (base64urlChar (c % 64)) :: rest) =
      a2bLoop 0 0 0 (UInt8.ofNat c :: out) rest := by
  have hbyte : c / 64 * 64 + c % 64 = c := by omega
  rw [a2bLoop_value (by omega), hbyte]
  rfl

theorem a2bLoop_urlsafeB64encode (bs out : List UInt8) :
    a2bLoop 0 0 0 out ((urlsafeB64encode bs).map standardByte) = some (out.reverse ++ bs) := by
  fun_induction urlsafeB64encode bs generalizing out with
  | case1 => simp [a2bLoop]
  | case2 a =>
    have h := a2bLoop_first (b := 0) 0 0 out [61, 61] a.toNat_lt (by omega)
    simp only [Nat.zero_div, Nat.add_zero] at h
    simp only [List.map_cons, List.map_nil]
    rw [show standardByte '=' = 61 from rfl, h]
    simp [a2bLoop]
  | case3 a b =>
    have h := a2bLoop_second (b := b.toNat) (c := 0) 0 (a :: out) [61] (by omega)
    simp only [Nat.zero_div, Nat.add_zero] at h
    simp only [List.map_cons, List.map_nil]
    rw [show standardByte '=' = 61 from rfl, a2bLoop_first _ _ _ _ a.toNat_lt b.toNat_lt, UInt8.ofNat_toNat, h]
    simp [a2bLoop]
  | case4 a b c rest ih =>
    simp only [List.map_cons]
    rw [a2bLoop_first _ _ _ _ a.toNat_lt b.toNat_lt, a2bLoop_second _ _ _ c.toNat_lt, a2bLoop_third, ih]
    simp

/-- **Round trip**: the decoder reads what the encoder wrote. -/
theorem urlsafeB64decode_urlsafeB64encode (bs : List UInt8) :
    urlsafeB64decode (utf8Encode (urlsafeB64encode bs)) = some bs := by
  rw [urlsafeB64decode_ascii (isAscii_urlsafeB64encode bs), a2bLoop_urlsafeB64encode]
  simp

/-! ## Padding -/

theorem base64urlChar_notMem (n : Nat) : base64urlChar n ≠ '=' ∧ base64urlChar n ≠ '.' := by
  have hsmall : ∀ m < 64, base64urlChar m ≠ '=' ∧ base64urlChar m ≠ '.' := by decide
  by_cases h : n < 64
  · exact hsmall n h
  · have hlast : base64urlChar n = '_' := by
      unfold base64urlChar
      simp only [show ¬ n < 26 by omega, show ¬ n < 52 by omega, show ¬ n < 62 by omega, show ¬ n = 62 by omega, if_false]
    rw [hlast]
    decide

/-- The text of the encoder: characters of the alphabet, then the padding of the last group. -/
theorem urlsafeB64encode_padded (bs : List UInt8) :
    ∃ body k, urlsafeB64encode bs = body ++ List.replicate k '=' ∧ '=' ∉ body ∧ '.' ∉ body ∧
      k = (4 - body.length % 4) % 4 := by
  fun_induction urlsafeB64encode bs with
  | case1 => exact ⟨[], 0, rfl, by simp⟩
  | case2 a =>
    refine ⟨[base64urlChar (a.toNat / 4), base64urlChar (a.toNat % 4 * 16)], 2, rfl, ?_⟩
    simp [Ne.symm (base64urlChar_notMem _).1, Ne.symm (base64urlChar_notMem _).2]
  | case3 a b =>
    refine ⟨[base64urlChar (a.toNat / 4), base64urlChar (a.toNat % 4 * 16 + b.toNat / 16),
      base64urlChar (b.toNat % 16 * 4)], 1, rfl, ?_⟩
    simp [Ne.symm (base64urlChar_notMem _).1, Ne.symm (base64urlChar_notMem _).2]
  | case4 a b c rest ih =>
    obtain ⟨body, k, hbody, hpad, hdot, hk⟩ := ih
    refine ⟨base64urlChar (a.toNat / 4) :: base64urlChar (a.toNat % 4 * 16 + b.toNat / 16) ::
      base64urlChar (b.toNat % 16 * 4 + c.toNat / 64) :: base64urlChar (c.toNat % 64) :: body, k, ?_, ?_, ?_, ?_⟩
    · rw [hbody]
      rfl
    · simp [Ne.symm (base64urlChar_notMem _).1, hpad]
    · simp [Ne.symm (base64urlChar_notMem _).2, hdot]
    · simp only [List.length_cons]
      omega

end Lib

import Palworld.Lib.Numeral
import Mathlib.Tactic.IntervalCases
import Mathlib.Data.List.TakeWhile

/-!
# Decimal texts and their values

A printed number reads back: an integer to itself, and six places behind the point to the
millionths that they count. Rationals are the numbers for which nothing is rounded on reading.
-/

namespace Lib

/-! ## Digits -/

theorem isDigit_toDigits {n : Nat} : (Nat.toDigits 10 n).all Char.isDigit = true :=
  List.all_eq_true.mpr fun _ hc => Nat.isDigit_of_mem_toDigits (by decide) (by decide) hc

theorem digitsValue_toDigits (n : Nat) : digitsValue (Nat.toDigits 10 n) = n := Nat.ofDigitChars_ten_toDigits

theorem digitsValue_append (a b : Text) : digitsValue (a ++ b) = 10 ^ b.length * digitsValue a + digitsValue b := by
  unfold digitsValue
  rw [Nat.ofDigitChars_append, Nat.ofDigitChars_eq_ofDigitChars_zero]

/-- Six digits, with zeros in front. -/
theorem sixDigits_spec (n : Nat) :
    (sixDigits n).length = 6 ∧ (sixDigits n).all Char.isDigit = true ∧ digitsValue (sixDigits n) = n % 10 ^ 6 := by
  have hlt : n % 10 ^ 6 < 10 ^ 6 := Nat.mod_lt _ (by decide)
  have hlength : (Nat.toDigits 10 (10 ^ 6 + n % 10 ^ 6)).length = 7 := by
    apply Nat.le_antisymm
    · rw [Nat.length_toDigits_le_iff (by decide) (by decide)]
      omega
    · rw [← Nat.not_lt, Nat.lt_succ_iff, Nat.length_toDigits_le_iff (by decide) (by decide)]
      omega
  have hdigits : (Nat.toDigits 10 (10 ^ 6 + n % 10 ^ 6)).all Char.isDigit = true := isDigit_toDigits
  have hvalue := digitsValue_toDigits (10 ^ 6 + n % 10 ^ 6)
  unfold sixDigits
  cases htext : Nat.toDigits 10 (10 ^ 6 + n % 10 ^ 6) with
  | nil => rw [htext] at hlength; cases hlength
  | cons c rest =>
    rw [htext] at hlength hdigits hvalue
    simp only [List.length_cons, Nat.reduceEqDiff] at hlength
    rw [List.all_cons, Bool.and_eq_true] at hdigits
    rw [← List.singleton_append, digitsValue_append, hlength] at hvalue
    have hrest : digitsValue rest < 10 ^ 6 := hlength ▸ digitsValue_lt hdigits.2
    refine ⟨hlength, hdigits.2, ?_⟩
    rw [List.drop_one, List.tail_cons]
    omega

/-! ## What reading leaves alone -/

theorem isDigit_toNat {c : Char} (h : c.isDigit = true) : 48 ≤ c.toNat ∧ c.toNat ≤ 57 := Char.isDigit_iff_toNat.mp h

theorem digitChar_of_isDigit {c : Char} (h : c.isDigit = true) : Nat.digitChar (c.toNat - 48) = c := by
  have hbounds := isDigit_toNat h
  obtain ⟨d, hd⟩ : ∃ d, c.toNat = 48 + d := ⟨c.toNat - 48, by omega⟩
  have hd10 : d < 10 := by omega
  have hchar : c = Char.ofNat (48 + d) := by rw [← hd, Char.ofNat_toNat]
  rw [hd, hchar, Nat.add_sub_cancel_left]
  interval_cases d <;> rfl

theorem dropUnderscores_eq {afterDigit : Bool} {t : Text} (h : '_' ∉ t) : dropUnderscores afterDigit t = some t := by
  induction t generalizing afterDigit with
  | nil => rfl
  | cons c t ih =>
    rw [List.mem_cons, not_or] at h
    rw [dropUnderscores, ih h.2]
    · rfl
    · rintro d rest rfl rfl
      exact h.1 rfl
    · rintro rfl rfl
      exact h.1 rfl

/-- A numeral with its sign in front. -/
def signed (neg : Bool) (t : Text) : Text := (if neg then ['-'] else []) ++ t

theorem readSign_signed (neg : Bool) {t : Text} (h : ∀ c ∈ t.head?, c.isDigit = true) :
    readSign (signed neg t) = (neg, t) := by
  unfold signed
  cases neg with
  | true => rfl
  | false =>
    rw [if_neg (by decide), List.nil_append, readSign]
    · rintro rest rfl
      exact absurd (h '-' rfl) (by decide)
    · rintro rest rfl
      exact absurd (h '+' rfl) (by decide)

/-- What a printed number is made of. -/
def isPlainChar (c : Char) : Bool := c.isDigit || c == '.' || c == '-'

theorem underscore_notMem {t : Text} (h : t.all isPlainChar = true) : '_' ∉ t := by
  intro hmem
  exact absurd (List.all_eq_true.mp h '_' hmem) (by decide)

theorem isPlainChar_of_isDigit {t : Text} (h : t.all Char.isDigit = true) : t.all isPlainChar = true := by
  rw [List.all_eq_true] at h ⊢
  intro c hc
  simp [isPlainChar, h c hc]

theorem isPlainChar_signed (neg : Bool) {t : Text} (h : t.all isPlainChar = true) :
    (signed neg t).all isPlainChar = true := by
  cases neg with
  | false => exact h
  | true => simpa [signed, isPlainChar] using h

theorem isPlainChar_toText (n : PyInt) : n.toText.all isPlainChar = true ∧ '.' ∉ n.toText := by
  have hdigits := isDigit_toDigits (n := n.val.natAbs)
  have hpoint : '.' ∉ Nat.toDigits 10 n.val.natAbs := fun hmem => absurd (List.all_eq_true.mp hdigits _ hmem) (by decide)
  have hplain := isPlainChar_of_isDigit hdigits
  unfold PyInt.toText
  split
  · rw [List.all_cons, hplain]
    simp [isPlainChar, hpoint]
  · exact ⟨hplain, hpoint⟩

theorem takeWhile_dropWhile_digits {a b : Text} {c : Char} (ha : a.all Char.isDigit = true) (hc : c.isDigit = false) :
    (a ++ c :: b).takeWhile Char.isDigit = a ∧ (a ++ c :: b).dropWhile Char.isDigit = c :: b := by
  rw [List.all_eq_true] at ha
  rw [takeWhile_append_stop hc, dropWhile_append_stop hc, List.takeWhile_eq_self_iff.mpr ha,
    List.dropWhile_eq_nil_iff.mpr ha]
  exact ⟨rfl, rfl⟩

/-- Digits, a point and digits write their value with as many places as stand behind the point. -/
theorem decimalValue_point {whole frac : Text} (hne : whole ≠ []) (hwhole : whole.all Char.isDigit = true)
    (hfrac : frac.all Char.isDigit = true) :
    decimalValue (whole ++ '.' :: frac) = some ((digitsValue (whole ++ frac) : ℚ) * 10 ^ (-frac.length : Int)) := by
  obtain ⟨htake, hdrop⟩ := takeWhile_dropWhile_digits (b := frac) hwhole (show Char.isDigit '.' = false by decide)
  rw [List.all_eq_true] at hfrac
  have hend : frac.dropWhile Char.isDigit = [] := List.dropWhile_eq_nil_iff.mpr hfrac
  have hall : frac.takeWhile Char.isDigit = frac := List.takeWhile_eq_self_iff.mpr hfrac
  simp [decimalValue, htake, hdrop, hend, hall, hne, readExponent]

/-! ## Six places -/

/-- As many millionths, with six places behind the point. -/
def decimalText (neg : Bool) (n : Nat) : Text := signed neg (Nat.toDigits 10 (n / 10 ^ 6) ++ '.' :: sixDigits n)

theorem format6f_finite (neg : Bool) (mag : Magnitude) :
    format6f (.finite neg mag) = decimalText neg (roundHalfEven (mag.toRat * 10 ^ 6)) := by
  simp only [format6f, decimalText, signed, List.append_assoc]

theorem decimalValue_sixDigits (n : Nat) :
    decimalValue (Nat.toDigits 10 (n / 10 ^ 6) ++ '.' :: sixDigits n) = some ((n : ℚ) / 10 ^ 6) := by
  obtain ⟨hlength, hdigits, hvalue⟩ := sixDigits_spec n
  have hsum : 10 ^ 6 * (n / 10 ^ 6) + n % 10 ^ 6 = n := Nat.div_add_mod ..
  rw [decimalValue_point Nat.toDigits_ne_nil isDigit_toDigits hdigits, digitsValue_append, hlength, hvalue,
    digitsValue_toDigits, hsum]
  norm_num [div_eq_mul_inv]

theorem isPlainChar_decimalText (neg : Bool) (n : Nat) : (decimalText neg n).all isPlainChar = true := by
  apply isPlainChar_signed
  rw [List.all_append, List.all_cons, isPlainChar_of_isDigit isDigit_toDigits,
    isPlainChar_of_isDigit (sixDigits_spec n).2.1]
  rfl

theorem head?_toDigits_append {n : Nat} {t : Text} : ∀ c ∈ (Nat.toDigits 10 n ++ t).head?, c.isDigit = true := by
  intro c hc
  rw [List.head?_append_of_ne_nil _ Nat.toDigits_ne_nil] at hc
  exact List.all_eq_true.mp isDigit_toDigits c (List.mem_of_mem_head? hc)

theorem roundHalfEven_natCast (n : Nat) : roundHalfEven (n : ℚ) = n := by
  simp [roundHalfEven]

theorem decimalText_spec (neg : Bool) (n : Nat) :
    decimalText neg n ≠ [] ∧ ∀ c ∈ decimalText neg n, isNumeralChar c = true := by
  refine ⟨by simp [decimalText, signed], fun c hc => ?_⟩
  have hplain := List.all_eq_true.mp (isPlainChar_decimalText neg n) c hc
  simp only [isPlainChar, Bool.or_eq_true] at hplain
  rcases hplain with (hdigit | hpoint) | hminus
  · exact isNumeralChar_of_isDigit hdigit
  · simp [isNumeralChar, hpoint]
  · simp [isNumeralChar, hminus]

section Read

variable [Unicode]

theorem asciiDigits_eq {t : Text} (h : t.all isPlainChar = true) : asciiDigits t = t := by
  rw [List.all_eq_true] at h
  unfold asciiDigits
  have hsame : ∀ c ∈ t, (Unicode.digit c).elim c Nat.digitChar = c := by
    intro c hc
    have hplain := h c hc
    simp only [isPlainChar, Bool.or_eq_true, beq_iff_eq] at hplain
    rcases hplain with (hdigit | rfl) | rfl
    · rw [Unicode.digit_ascii c (by have := isDigit_toNat hdigit; omega), if_pos hdigit]
      exact digitChar_of_isDigit hdigit
    · rw [Unicode.digit_ascii _ (by decide)]
      rfl
    · rw [Unicode.digit_ascii _ (by decide)]
      rfl
  rw [List.map_congr_left hsame, List.map_id']

/-- The sign and the magnitude that a text with a point in it writes. `none` is the `ValueError`. -/
def signedDecimal (t : Text) : Option (Bool × ℚ) :=
  (dropUnderscores false (asciiDigits t)).bind fun t =>
    let (neg, decimal) := readSign t
    (decimalValue decimal).map fun r => (neg, r)

theorem pyFloat_eq (t : Text) : pyFloat t = (signedDecimal t).map fun x => Binary64.round x.1 x.2 := by
  unfold pyFloat signedDecimal
  rw [Option.map_bind]
  simp only [Function.comp_def, Option.map_map]

/-- **Six places read back exactly.** -/
theorem signedDecimal_decimalText (neg : Bool) (n : Nat) :
    signedDecimal (decimalText neg n) = some (neg, (n : ℚ) / 10 ^ 6) := by
  have hplain := isPlainChar_decimalText neg n
  unfold signedDecimal
  rw [asciiDigits_eq hplain, dropUnderscores_eq (underscore_notMem hplain), Option.bind_some, decimalText,
    readSign_signed _ head?_toDigits_append]
  simp only [decimalValue_sixDigits, Option.map_some]

/-! ## Integers -/

omit [Unicode] in
theorem intOfDigits_toDigits (n : PyInt) : intOfDigits (decide (n.val < 0)) (Nat.toDigits 10 n.val.natAbs) = some n := by
  have hdigits : (Nat.toDigits 10 n.val.natAbs).all Char.isDigit = true := isDigit_toDigits
  have hlength : (Nat.toDigits 10 n.val.natAbs).length ≤ intMaxStrDigits := by
    rw [Nat.length_toDigits_le_iff (by decide) (by decide)]
    exact n.val_lt
  rw [intOfDigits, if_neg Nat.toDigits_ne_nil, dif_pos hdigits, dif_pos hlength]
  obtain ⟨val, hval⟩ := n
  simp only [digitsValue_toDigits, Option.some.injEq, decide_eq_true_eq]
  split
  · rename_i hneg
    rw [PyInt.mk.injEq, Int.ofNat_natAbs_of_nonpos hneg.le, neg_neg]
  · rename_i hneg
    rw [PyInt.mk.injEq, Int.natAbs_of_nonneg (not_lt.mp hneg)]

/-- **An integer reads back from its text.** -/
theorem pyInt_toText (n : PyInt) : pyInt n.toText = some n := by
  have htext : n.toText = signed (decide (n.val < 0)) (Nat.toDigits 10 n.val.natAbs) := by
    unfold PyInt.toText signed
    split <;> simp_all
  have hplain := isPlainChar_signed (decide (n.val < 0))
    (isPlainChar_of_isDigit (isDigit_toDigits (n := n.val.natAbs)))
  have hsign := readSign_signed (decide (n.val < 0)) (t := Nat.toDigits 10 n.val.natAbs)
    (by simpa using head?_toDigits_append (n := n.val.natAbs) (t := []))
  have hdigits : (Nat.toDigits 10 n.val.natAbs).all Char.isDigit = true := isDigit_toDigits
  unfold pyInt
  rw [htext, asciiDigits_eq hplain, hsign]
  simp only
  rw [dropUnderscores_eq (underscore_notMem (isPlainChar_of_isDigit hdigits)), Option.bind_some, intOfDigits_toDigits]

/-! ## Decimals that are read exactly -/

/-- A decimal without rounding on the way in. Six places are printed. -/
instance exactDecimal : PyFloat ℚ where
  read t := (signedDecimal t).map fun x => if x.1 then -x.2 else x.2
  format6f q := decimalText (decide (q < 0)) (roundHalfEven (|q| * 10 ^ 6))
  format6f_ne_nil _ := (decimalText_spec _ _).1
  format6f_chars _ := (decimalText_spec _ _).2

/-- At most six digits behind the point. -/
def AtMostSixPlaces (q : ℚ) : Prop := ∃ n : Int, q = n / 10 ^ 6

theorem format6f_rat {q : ℚ} {n : Int} (h : q = n / 10 ^ 6) :
    PyFloat.format6f q = decimalText (decide (q < 0)) n.natAbs := by
  have habs : |q| * 10 ^ 6 = (n.natAbs : ℚ) := by
    rw [h, abs_div, Nat.cast_natAbs, Int.cast_abs]
    norm_num
  simp only [PyFloat.format6f]
  rw [habs, roundHalfEven_natCast]

theorem read_format6f_rat {q : ℚ} (h : AtMostSixPlaces q) : PyFloat.read (PyFloat.format6f q) = some q := by
  obtain ⟨n, hn⟩ := h
  rw [format6f_rat hn]
  simp only [PyFloat.read, signedDecimal_decimalText, Option.map_some, Option.some.injEq, decide_eq_true_eq]
  have habs : (n.natAbs : ℚ) / 10 ^ 6 = |q| := by
    rw [hn, abs_div, Nat.cast_natAbs, Int.cast_abs]
    norm_num
  rw [habs]
  split
  · rename_i hneg
    rw [abs_of_neg hneg, neg_neg]
  · rename_i hneg
    rw [abs_of_nonneg (not_lt.mp hneg)]

end Read

end Lib

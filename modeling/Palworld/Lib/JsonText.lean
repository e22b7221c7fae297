import Palworld.Lib.Json
import Palworld.Lib.SixPlaces

/-!
# Numbers and strings of JSON, read back

What `json.dumps` writes for a number or a string is read as that number or string, with any
text behind it that can follow a value.
-/

namespace Lib

/-! ## Runs of digits -/

/-- What stands behind a value in a document. -/
def Follows (rest : Text) : Prop := ∀ c ∈ rest.head?, c = ',' ∨ c = '\n'

section

variable {t rest behind : Text} {c : Char} {p : Char → Bool} {n : Nat}

theorem follows_nil : Follows [] := by
  simp [Follows]

theorem follows_comma (t : Text) : Follows (',' :: t) := by
  simp [Follows]

theorem follows_newLine (level : Nat) (t : Text) : Follows (newLine level ++ t) := by
  simp [Follows, newLine]

theorem takeWhile_append_of_head (h : ∀ c ∈ rest.head?, p c = false) :
    (t ++ rest).takeWhile p = t.takeWhile p ∧ (t ++ rest).dropWhile p = t.dropWhile p ++ rest := by
  induction t with
  | nil =>
    cases rest with
    | nil => simp
    | cons c rest =>
      have hc := h c rfl
      simp [hc]
  | cons c t ih =>
    by_cases hc : p c = true
    · simp [hc, ih]
    · simp [hc]

theorem Follows.digits (h : Follows rest) :
    (t ++ rest).takeWhile Char.isDigit = t.takeWhile Char.isDigit ∧ (t ++ rest).dropWhile Char.isDigit = t.dropWhile Char.isDigit ++ rest := by
  apply takeWhile_append_of_head
  intro c hc
  rcases h c hc with rfl | rfl
  · rfl
  · rfl

/-- What reads nothing from the empty text, and stops at a comma and at a newline, leaves what follows. -/
theorem Follows.unread {α : Type} {scan : Text → α × Text} {nothing : α} (hfollows : Follows rest)
    (hnil : scan [] = (nothing, [])) (hcomma : ∀ t, scan (',' :: t) = (nothing, ',' :: t))
    (hnewline : ∀ t, scan ('\n' :: t) = (nothing, '\n' :: t)) :
    scan ([] ++ rest) = ((scan []).1, (scan []).2 ++ rest) := by
  rw [List.nil_append, hnil]
  cases rest with
  | nil => exact hnil
  | cons c rest =>
    rcases hfollows c rfl with rfl | rfl
    · exact hcomma rest
    · exact hnewline rest

theorem scanWhole_append {whole : Text} (hfollows : Follows rest) (h : scanWhole t = some (whole, behind)) :
    scanWhole (t ++ rest) = some (whole, behind ++ rest) := by
  unfold scanWhole at h
  split at h
  · cases h
    rfl
  · rename_i hzero
    split at h
    · cases h
    · rename_i hdigits
      cases h
      obtain ⟨htake, hdrop⟩ := hfollows.digits (t := t)
      unfold scanWhole
      split
      · rename_i tail heq
        cases t with
        | nil => simp at hdigits
        | cons c t =>
          obtain ⟨rfl, -⟩ := List.cons.inj heq
          exact absurd rfl (hzero t)
      · rw [htake, hdrop, if_neg hdigits]

theorem scanFraction_append (hfollows : Follows rest) :
    scanFraction (t ++ rest) = ((scanFraction t).1, (scanFraction t).2 ++ rest) := by
  cases t with
  | nil => exact hfollows.unread rfl (fun _ => rfl) (fun _ => rfl)
  | cons c t =>
    obtain ⟨htake, hdrop⟩ := hfollows.digits (t := t)
    by_cases hpoint : c = '.'
    · subst hpoint
      simp only [List.cons_append, scanFraction, htake, hdrop]
      by_cases hdigits : t.takeWhile Char.isDigit = []
      · simp [hdigits]
      · simp [hdigits]
    · simp [scanFraction, hpoint]

theorem readSign_append (hfollows : Follows rest) : readSign (t ++ rest) = ((readSign t).1, (readSign t).2 ++ rest) := by
  cases t with
  | nil => exact hfollows.unread rfl (fun _ => rfl) (fun _ => rfl)
  | cons c t =>
    by_cases hminus : c = '-'
    · subst hminus
      rfl
    by_cases hplus : c = '+'
    · subst hplus
      rfl
    simp [readSign, hminus, hplus]

theorem scanExponent_append (hfollows : Follows rest) :
    scanExponent (t ++ rest) = ((scanExponent t).1, (scanExponent t).2 ++ rest) := by
  cases t with
  | nil => exact hfollows.unread rfl (fun _ => by simp [scanExponent]) (fun _ => by simp [scanExponent])
  | cons c t =>
    rw [List.cons_append]
    obtain ⟨htake, hdrop⟩ := hfollows.digits (t := (readSign t).2)
    simp only [scanExponent, readSign_append hfollows, htake, hdrop]
    split
    · rfl
    · rfl

theorem scanMinus_append (hfollows : Follows rest) : scanMinus (t ++ rest) = ((scanMinus t).1, (scanMinus t).2 ++ rest) := by
  cases t with
  | nil => exact hfollows.unread rfl (fun _ => rfl) (fun _ => rfl)
  | cons c t =>
    by_cases hminus : c = '-'
    · subst hminus
      rfl
    · simp [scanMinus, hminus]

/-- A number is read up to what follows it. -/
theorem scanNumber_append {number : NumberText} (hfollows : Follows rest) (h : scanNumber t = some (number, behind)) :
    scanNumber (t ++ rest) = some (number, behind ++ rest) := by
  unfold scanNumber at h ⊢
  rw [scanMinus_append hfollows]
  simp only [Option.bind_eq_bind] at h ⊢
  obtain ⟨⟨whole, tail⟩, hwhole, h⟩ := Option.bind_eq_some_iff.mp h
  rw [scanWhole_append hfollows hwhole]
  simp only [Option.bind_some, scanFraction_append hfollows, scanExponent_append hfollows]
  simp only [Option.pure_def, Option.some.injEq, Prod.mk.injEq] at h ⊢
  obtain ⟨hnumber, hbehind⟩ := h
  exact ⟨hnumber, by rw [hbehind]⟩

/-! ## Integers -/

theorem digits_toDigits (n : Nat) (hfollows : ∀ c ∈ rest.head?, c.isDigit = false) :
    (Nat.toDigits 10 n ++ rest).takeWhile Char.isDigit = Nat.toDigits 10 n ∧ (Nat.toDigits 10 n ++ rest).dropWhile Char.isDigit = rest := by
  have hdigits : ∀ c ∈ Nat.toDigits 10 n, c.isDigit = true := List.all_eq_true.mp isDigit_toDigits
  obtain ⟨htake, hdrop⟩ := takeWhile_append_of_head (t := Nat.toDigits 10 n) hfollows
  rw [htake, hdrop, List.takeWhile_eq_self_iff.mpr hdigits, List.dropWhile_eq_nil_iff.mpr hdigits]
  exact ⟨rfl, rfl⟩

/-- Only zero is written with a zero in front. -/
theorem toDigits_zero_head (h : Nat.toDigits 10 n = '0' :: t) : t = [] := by
  induction n using Nat.strongRecOn generalizing t with
  | ind n ih =>
    by_cases hsmall : n < 10
    · rw [Nat.toDigits_of_lt_base hsmall] at h
      exact (List.cons.inj h).2.symm
    · rw [Nat.toDigits_of_base_le (by decide) (by omega)] at h
      cases hfront : Nat.toDigits 10 (n / 10) with
      | nil => exact absurd hfront Nat.toDigits_ne_nil
      | cons c front =>
        rw [hfront, List.cons_append] at h
        obtain ⟨rfl, -⟩ := List.cons.inj h
        have hnil := ih (n / 10) (by omega) hfront
        rw [hnil] at hfront
        have hvalue := digitsValue_toDigits (n / 10)
        rw [hfront] at hvalue
        have hzero : digitsValue ['0'] = 0 := by decide
        omega

theorem scanWhole_toDigits (hfollows : ∀ c ∈ rest.head?, c.isDigit = false) :
    scanWhole (Nat.toDigits 10 n ++ rest) = some (Nat.toDigits 10 n, rest) := by
  obtain ⟨htake, hdrop⟩ := digits_toDigits n hfollows
  unfold scanWhole
  split
  · rename_i tail heq
    cases hdigits : Nat.toDigits 10 n with
    | nil => exact absurd hdigits Nat.toDigits_ne_nil
    | cons c front =>
      rw [hdigits, List.cons_append] at heq
      obtain ⟨rfl, rfl⟩ := List.cons.inj heq
      rw [toDigits_zero_head hdigits]
      rfl
  · rw [htake, hdrop, if_neg Nat.toDigits_ne_nil]

theorem scanMinus_sign (neg : Bool) (hdigit : ∀ c ∈ t.head?, c.isDigit = true) : scanMinus (signText neg ++ t) = (neg, t) := by
  cases neg with
  | true => rfl
  | false =>
    cases t with
    | nil => rfl
    | cons c t =>
      have hc := hdigit c rfl
      show scanMinus (c :: t) = _
      unfold scanMinus
      split
      · rename_i tail heq
        obtain ⟨rfl, -⟩ := List.cons.inj heq
        cases hc
      · rfl

theorem scanNumber_int (n : PyInt) (hfollows : Follows rest) :
    ∃ number, scanNumber (n.toText ++ rest) = some (number, rest) ∧ number.value = .ok (.int n) := by
  have hstop : ∀ c ∈ rest.head?, c.isDigit = false := by
    intro c hc
    rcases hfollows c hc with rfl | rfl
    · rfl
    · rfl
  have hhead : ∀ c ∈ (Nat.toDigits 10 n.val.natAbs ++ rest).head?, c.isDigit = true := head?_toDigits_append
  have htext : n.toText = signText (decide (n.val < 0)) ++ Nat.toDigits 10 n.val.natAbs := by
    unfold PyInt.toText signText
    split <;> simp_all
  refine ⟨⟨decide (n.val < 0), Nat.toDigits 10 n.val.natAbs, [], none⟩, ?_, ?_⟩
  · have hfraction : scanFraction rest = ([], rest) := scanFraction_append (t := []) hfollows
    have hexponent : scanExponent rest = (none, rest) := scanExponent_append (t := []) hfollows
    unfold scanNumber
    rw [htext, List.append_assoc, scanMinus_sign _ hhead]
    simp only [scanWhole_toDigits hstop, Option.bind_eq_bind, Option.bind_some, hfraction, hexponent]
    rfl
  · unfold NumberText.value
    rw [if_pos ⟨rfl, rfl⟩]
    simp only [intOfDigits_toDigits]

end

/-! ## Floats -/

namespace Binary64

theorem toRat_lt (mag : Magnitude) : mag.toRat < 2 ^ ((53 : Int) + mag.exponent) := by
  have hpow : (0 : ℚ) < 2 ^ mag.exponent := zpow_pos (by norm_num) _
  have hlt : (mag.significand : ℚ) < 2 ^ 53 := by exact_mod_cast mag.significand_lt
  rw [Magnitude.toRat, zpow_add₀ (by norm_num)]
  exact mul_lt_mul_of_pos_right hlt hpow

/-- The exponent of a number is that of its value. -/
theorem exponentOf_toRat (mag : Magnitude) (hpos : 0 < mag.toRat) : exponentOf mag.toRat = mag.exponent := by
  have hlt := toRat_lt mag
  rcases mag.normal with ⟨hlarge, hexponent⟩ | hexponent
  · refine exponentOf_eq hexponent ?_ hlt
    have hle : (2 : ℚ) ^ 52 ≤ mag.significand := by exact_mod_cast hlarge
    rw [Magnitude.toRat, zpow_add₀ (by norm_num)]
    exact mul_le_mul_of_nonneg_right hle (zpow_pos (by norm_num) _).le
  · have hlog : Int.log 2 mag.toRat < 53 + mag.exponent := (Int.lt_zpow_iff_log_lt (by norm_num) hpos).mp (by exact_mod_cast hlt)
    unfold exponentOf
    omega

/-- A number is what its exact value rounds to. -/
theorem round_toRat (neg : Bool) (mag : Magnitude) : round neg mag.toRat = .finite neg mag := by
  have hpow : (0 : ℚ) < 2 ^ mag.exponent := zpow_pos (by norm_num) _
  have hmag : roundMagnitude mag.toRat = some mag := by
    by_cases hpos : 0 < mag.toRat
    · refine roundMagnitude_of_near hpos (exponentOf_toRat mag hpos) ?_
      rw [Magnitude.toRat, mul_div_cancel_right₀ _ hpow.ne', sub_self, abs_zero]
      norm_num
    · have hzero : mag.significand = 0 := by
        by_contra hne
        have hsig : (0 : ℚ) < mag.significand := by exact_mod_cast Nat.pos_of_ne_zero hne
        exact hpos (mul_pos hsig hpow)
      obtain ⟨significand, exponent, hlt, hle, hnormal⟩ := mag
      dsimp only at hzero
      subst hzero
      rcases hnormal with ⟨hlarge, -⟩ | rfl
      · omega
      · unfold roundMagnitude
        rw [dif_neg hpos]
        rfl
  unfold round
  rw [hmag]

end Binary64

section

variable {t rest : Text} {x : Binary64}

/-- An integer with an exponent is read as their value. -/
theorem readsAs_digits (neg sign : Bool) (n places : Nat) (mark : Text)
    (hmark : readSign (mark ++ Nat.toDigits 10 places) = (sign, Nat.toDigits 10 places)) (mag : Magnitude)
    (hvalue : (n : ℚ) * 10 ^ (if sign then -(places : Int) else places) = mag.toRat) :
    readsAs (signText neg ++ (Nat.toDigits 10 n ++ 'e' :: (mark ++ Nat.toDigits 10 places))) (.finite neg mag) = true := by
  have hwhole : scanWhole (Nat.toDigits 10 n ++ 'e' :: (mark ++ Nat.toDigits 10 places)) =
      some (Nat.toDigits 10 n, 'e' :: (mark ++ Nat.toDigits 10 places)) := scanWhole_toDigits (by simp)
  obtain ⟨htake, hdrop⟩ := digits_toDigits places (show ∀ c ∈ ([] : Text).head?, c.isDigit = false by simp)
  rw [List.append_nil] at htake hdrop
  have hexponent : scanExponent ('e' :: (mark ++ Nat.toDigits 10 places)) = (some (sign, Nat.toDigits 10 places), []) := by
    unfold scanExponent
    simp [hmark, htake, hdrop, Nat.toDigits_ne_nil]
  have hfraction : scanFraction ('e' :: (mark ++ Nat.toDigits 10 places)) = ([], 'e' :: (mark ++ Nat.toDigits 10 places)) := rfl
  have hnumber : scanNumber (signText neg ++ (Nat.toDigits 10 n ++ 'e' :: (mark ++ Nat.toDigits 10 places))) =
      some (⟨neg, Nat.toDigits 10 n, [], some (sign, Nat.toDigits 10 places)⟩, []) := by
    unfold scanNumber
    rw [scanMinus_sign neg head?_toDigits_append]
    simp only [hwhole, Option.bind_eq_bind, Option.bind_some, hfraction, hexponent]
    rfl
  have hmagnitude : NumberText.magnitude ⟨neg, Nat.toDigits 10 n, [], some (sign, Nat.toDigits 10 places)⟩ = mag.toRat := by
    unfold NumberText.magnitude NumberText.exponentValue
    rw [← hvalue]
    cases sign with
    | true => simp [digitsValue_toDigits]
    | false => simp [digitsValue_toDigits]
  unfold readsAs
  rw [hnumber]
  simp [hmagnitude, Binary64.round_toRat]

theorem readsAs_exactRepr (neg : Bool) (mag : Magnitude) : readsAs (exactRepr neg mag) (.finite neg mag) = true := by
  unfold exactRepr
  dsimp only
  split
  · rename_i hneg
    have hplaces : mag.exponent = -(mag.exponent.natAbs : Int) := by omega
    rw [List.append_assoc]
    refine readsAs_digits neg true _ _ ['-'] rfl mag ?_
    rw [Magnitude.toRat]
    conv_rhs => rw [hplaces]
    rw [if_pos rfl, zpow_neg, zpow_neg, zpow_natCast, zpow_natCast]
    push_cast
    have hten : (10 : ℚ) ^ mag.exponent.natAbs = 2 ^ mag.exponent.natAbs * 5 ^ mag.exponent.natAbs := by
      rw [← mul_pow]
      norm_num
    rw [hten]
    field_simp
  · rename_i hnonneg
    have hplaces : mag.exponent = (mag.exponent.natAbs : Int) := by omega
    rw [List.append_assoc]
    refine readsAs_digits neg false _ 0 [] rfl mag ?_
    rw [Magnitude.toRat]
    conv_rhs => rw [hplaces]
    rw [zpow_natCast]
    push_cast
    simp

/-- What `float.__repr__` writes is read back as the number. -/
theorem readsAs_finiteRepr (neg : Bool) (mag : Magnitude) : readsAs (finiteRepr neg mag) (.finite neg mag) = true := by
  unfold finiteRepr
  dsimp only
  cases hfind : List.find? (fun t => readsAs t (.finite neg mag))
      (((List.range 17).flatMap fun n => nearestDecimals mag.toRat (n + 1)).map fun decimal => trimmedRepr neg decimal.1 decimal.2) with
  | none => exact readsAs_exactRepr neg mag
  | some t => exact List.find?_some (p := fun t => readsAs t (.finite neg mag)) hfind

theorem readsAs_spec (h : readsAs t x = true) : ∃ number, scanNumber t = some (number, []) ∧ number.value = .ok (.float x) := by
  unfold readsAs at h
  split at h
  · rename_i number hnumber
    rw [Bool.and_eq_true, decide_eq_true_eq] at h
    refine ⟨number, hnumber, ?_⟩
    unfold NumberText.value
    rw [if_neg, h.2]
    rintro ⟨hfraction, hexponent⟩
    simp [hfraction, hexponent] at h
  · cases h

theorem scanNumber_float (neg : Bool) (mag : Magnitude) (hfollows : Follows rest) :
    ∃ number, scanNumber (finiteRepr neg mag ++ rest) = some (number, rest) ∧ number.value = .ok (.float (.finite neg mag)) := by
  obtain ⟨number, hnumber, hvalue⟩ := readsAs_spec (readsAs_finiteRepr neg mag)
  exact ⟨number, scanNumber_append hfollows hnumber, hvalue⟩

end

/-! ## Strings -/

theorem hexValue_hexDigit : ∀ n < 16, hexValue (hexDigit n) = some n := by decide

theorem unitOf_escapeUnit {n : Nat} (h : n < 0x10000) :
    unitOf (hexDigit (n / 4096 % 16)) (hexDigit (n / 256 % 16)) (hexDigit (n / 16 % 16)) (hexDigit (n % 16)) = some n := by
  unfold unitOf
  simp only [hexValue_hexDigit _ (Nat.mod_lt _ (by decide : 0 < 16)), Option.bind_eq_bind, Option.bind_some, Option.pure_def, Option.some.injEq]
  omega

section

variable {t rest : Text} {s : PyStr} {c : PyChar}

theorem scanUnits_escapeUnit {n : Nat} (h : n < 0x10000) (t : Text) : scanUnits (escapeUnit n ++ t) = onto (.ofUnit n) (scanUnits t) := by
  unfold escapeUnit
  simp only [List.cons_append, List.nil_append, scanUnits, unitOf_escapeUnit h]

theorem scanUnits_letter {letter d : Char} (h : unescape letter = some d) (t : Text) :
    scanUnits ('\\' :: letter :: t) = onto (.char d) (scanUnits t) := by
  rw [scanUnits]
  · rw [h]
  · rintro a b c e rest rfl
    simp [unescape] at h

theorem scanUnits_plain {d : Char} (hquote : d ≠ '"') (hslash : d ≠ '\\') (hcontrol : 32 ≤ d.toNat) (t : Text) :
    scanUnits (d :: t) = onto (.char d) (scanUnits t) := by
  rw [scanUnits]
  · rw [if_neg]
    rintro (h | h)
    · exact hslash h
    · omega
  · exact hquote
  · rintro a b c e rest rfl
    exact absurd rfl hslash
  · rintro c rest rfl
    exact absurd rfl hslash

theorem ofUnit_surrogate (unit : Fin 2048) : PyChar.ofUnit (0xD800 + unit.val) = .surrogate unit := by
  have hlt := unit.isLt
  have hvalue : 0xD800 + unit.val - 0xD800 = unit.val := by omega
  unfold PyChar.ofUnit
  rw [dif_pos (by omega), PyChar.surrogate.injEq, Fin.ext_iff]
  exact hvalue

theorem ofUnit_char {d : Char} : PyChar.ofUnit d.toNat = .char d := by
  unfold PyChar.ofUnit
  have hvalid : d.toNat < 0xD800 ∨ 0xDFFF < d.toNat ∧ d.toNat < 0x110000 := d.valid
  rw [dif_neg (by omega), Char.ofNat_toNat]

/-- The code units of a character. -/
def unitsOf : PyChar → PyStr
  | .surrogate unit => [.surrogate unit]
  | .char d =>
    if d.toNat < 0x10000 then [.char d]
    else [.ofUnit (0xD800 + (d.toNat - 0x10000) / 0x400), .ofUnit (0xDC00 + (d.toNat - 0x10000) % 0x400)]

def ontoAll (units : PyStr) (scanned : Scanned PyStr) : Scanned PyStr := scanned.map fun (s, rest) => (units ++ s, rest)

theorem onto_ontoAll (c : PyChar) (units : PyStr) (scanned : Scanned PyStr) :
    onto c (ontoAll units scanned) = ontoAll (c :: units) scanned := by
  cases scanned with
  | error e => rfl
  | ok scanned => rfl

theorem escapeLetter_spec {d letter : Char} (h : escapeLetter d = some letter) : unescape letter = some d ∧ d.toNat < 0x10000 := by
  unfold escapeLetter at h
  split at h
  · cases h; subst d; decide
  split at h
  · cases h; subst d; decide
  split at h
  · cases h; subst d; decide
  split at h
  · cases h; subst d; decide
  split at h
  · cases h; subst d; decide
  split at h
  · cases h; subst d; decide
  split at h
  · cases h; subst d; decide
  · cases h

theorem escapeLetter_none {d : Char} (h : escapeLetter d = none) : d ≠ '"' ∧ d ≠ '\\' := by
  constructor
  · rintro rfl
    cases h
  · rintro rfl
    cases h

theorem scanUnits_escapeChar (c : PyChar) (t : Text) : scanUnits (escapeChar c ++ t) = ontoAll (unitsOf c) (scanUnits t) := by
  have hone : ∀ (d : PyChar) (scanned : Scanned PyStr), onto d scanned = ontoAll [d] scanned := fun d scanned => rfl
  cases c with
  | surrogate unit =>
    have hlt := unit.isLt
    show scanUnits (escapeUnit (0xD800 + unit.val) ++ t) = _
    rw [scanUnits_escapeUnit (by omega), ofUnit_surrogate]
    rfl
  | char d =>
    simp only [escapeChar, unitsOf]
    cases hletter : escapeLetter d with
    | some letter =>
      obtain ⟨hback, hsmall⟩ := escapeLetter_spec hletter
      dsimp only
      rw [if_pos hsmall]
      exact scanUnits_letter hback t
    | none =>
      obtain ⟨hquote, hslash⟩ := escapeLetter_none hletter
      dsimp only
      by_cases hplain : 32 ≤ d.toNat ∧ d.toNat ≤ 126
      · rw [if_pos hplain, if_pos (by omega)]
        exact scanUnits_plain hquote hslash hplain.1 t
      · rw [if_neg hplain]
        by_cases hsmall : d.toNat < 0x10000
        · rw [if_pos hsmall, if_pos hsmall, scanUnits_escapeUnit hsmall, ofUnit_char]
          rfl
        · have hlt : d.toNat < 0x110000 := by
            have hvalid : d.toNat < 0xD800 ∨ 0xDFFF < d.toNat ∧ d.toNat < 0x110000 := d.valid
            omega
          rw [if_neg hsmall, if_neg hsmall, List.append_assoc, scanUnits_escapeUnit (by omega), scanUnits_escapeUnit (by omega)]
          exact onto_ontoAll _ [_] _

theorem scanUnits_quoted (s : PyStr) (rest : Text) :
    scanUnits (s.flatMap escapeChar ++ '"' :: rest) = .ok (s.flatMap unitsOf, rest) := by
  induction s with
  | nil => rfl
  | cons c s ih =>
    rw [List.flatMap_cons, List.append_assoc, scanUnits_escapeChar, ih]
    rfl

/-- No first half stands before a second half, so a reader does not join any. -/
def Joined (s : PyStr) : Prop := s.IsChain fun c d => ¬ (c.IsHigh ∧ d.IsLow)

theorem toText?_ofText (t : Text) : (PyStr.ofText t).toText? = some t := by
  induction t with
  | nil => rfl
  | cons c t ih =>
    show ((PyStr.ofText t).toText?).map (c :: ·) = _
    rw [ih]
    rfl

theorem joined_ofText (t : Text) : Joined (PyStr.ofText t) := by
  induction t with
  | nil => exact List.IsChain.nil
  | cons c t ih =>
    cases t with
    | nil => exact List.IsChain.singleton _
    | cons d t => exact List.isChain_cons_cons.mpr ⟨fun hpair => hpair.1, ih⟩

theorem joinOnto_of_not (h : ∀ d ∈ s.head?, ¬ (c.IsHigh ∧ d.IsLow)) : joinOnto c s = c :: s := by
  unfold joinOnto
  split
  · rename_i high low rest
    have hpair := h (.surrogate low) rfl
    unfold PyChar.IsHigh PyChar.IsLow at hpair
    rw [if_neg hpair]
  · rfl

theorem joinOnto_low {l : Fin 2048} (h : 0x400 ≤ l.val) (s : PyStr) : joinOnto (.surrogate l) s = .surrogate l :: s := by
  apply joinOnto_of_not
  rintro d - ⟨hhigh, -⟩
  unfold PyChar.IsHigh at hhigh
  omega

theorem joinOnto_pair {high low : Fin 2048} (hhigh : high.val < 0x400) (hlow : 0x400 ≤ low.val) (s : PyStr) :
    joinOnto (.surrogate high) (.surrogate low :: s) = joined high low :: s := by
  unfold joinOnto
  exact if_pos ⟨hhigh, hlow⟩

theorem joinOnto_units (h : Joined (c :: s)) : (unitsOf c).foldr joinOnto s = c :: s := by
  have hhead : ∀ d ∈ s.head?, ¬ (c.IsHigh ∧ d.IsLow) := by
    intro d hd
    cases s with
    | nil => cases hd
    | cons e s =>
      cases hd
      exact (List.isChain_cons_cons.mp h).1
  cases c with
  | surrogate unit => exact joinOnto_of_not hhead
  | char d =>
    by_cases hsmall : d.toNat < 0x10000
    · simp only [unitsOf, hsmall, if_true]
      exact joinOnto_of_not hhead
    · simp only [unitsOf, hsmall, if_false]
      have hlt : d.toNat < 0x110000 := by
        have hvalid : d.toNat < 0xD800 ∨ 0xDFFF < d.toNat ∧ d.toNat < 0x110000 := d.valid
        omega
      have hhigh := ofUnit_surrogate ⟨(d.toNat - 0x10000) / 0x400, by omega⟩
      have hlow := ofUnit_surrogate ⟨0x400 + (d.toNat - 0x10000) % 0x400, by omega⟩
      have hback : 0xDC00 + (d.toNat - 0x10000) % 0x400 = 0xD800 + (0x400 + (d.toNat - 0x10000) % 0x400) := by omega
      have hvalue : 0x10000 + 0x400 * ((d.toNat - 0x10000) / 0x400) + (0x400 + (d.toNat - 0x10000) % 0x400 - 0x400) = d.toNat := by omega
      rw [hback, hhigh, hlow, List.foldr_cons, List.foldr_cons, List.foldr_nil]
      rw [joinOnto_low (l := ⟨0x400 + (d.toNat - 0x10000) % 0x400, by omega⟩) (Nat.le_add_right _ _)]
      rw [joinOnto_pair (show (d.toNat - 0x10000) / 0x400 < 0x400 by omega) (Nat.le_add_right _ _)]
      simp only [joined, hvalue, Char.ofNat_toNat]

/-- **Strings.** What is quoted is read as the string. -/
theorem scanString_quoted (h : Joined s) (rest : Text) : scanString (s.flatMap escapeChar ++ '"' :: rest) = .ok (s, rest) := by
  have hjoin : (s.flatMap unitsOf).foldr joinOnto [] = s := by
    induction s with
    | nil => rfl
    | cons c s ih => rw [List.flatMap_cons, List.foldr_append, ih h.tail, joinOnto_units h]
  unfold scanString
  rw [scanUnits_quoted]
  show Except.ok ((s.flatMap unitsOf).foldr joinOnto [], rest) = _
  rw [hjoin]

theorem joined_joinOnto (h : Joined s) : Joined (joinOnto c s) := by
  unfold joinOnto
  split
  · rename_i high low rest
    split
    · cases rest with
      | nil => exact List.IsChain.singleton _
      | cons d rest => exact List.isChain_cons_cons.mpr ⟨fun hpair => hpair.1, h.tail⟩
    · rename_i hpair
      exact List.isChain_cons_cons.mpr ⟨hpair, h⟩
  · rename_i hpair
    cases s with
    | nil => exact List.IsChain.singleton _
    | cons d s =>
      refine List.isChain_cons_cons.mpr ⟨?_, h⟩
      rintro ⟨hhigh, hlow⟩
      cases c with
      | char c => exact hhigh
      | surrogate high =>
        cases d with
        | char d => exact hlow
        | surrogate low => exact hpair high low s rfl rfl

theorem joined_foldr (units : PyStr) : Joined (units.foldr joinOnto []) := by
  induction units with
  | nil => exact List.IsChain.nil
  | cons c units ih => exact joined_joinOnto ih

/-- What is read has its halves joined. -/
theorem joined_of_scanString (h : scanString t = .ok (s, rest)) : Joined s := by
  unfold scanString at h
  cases hunits : scanUnits t with
  | error e =>
    rw [hunits] at h
    cases h
  | ok scanned =>
    obtain ⟨units, behind⟩ := scanned
    rw [hunits] at h
    cases h
    exact joined_foldr units

end

end Lib

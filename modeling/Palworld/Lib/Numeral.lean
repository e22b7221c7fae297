import Palworld.Lib.Str
import Palworld.Lib.Binary64

/-!
# Numerals as Python reads and prints them

`int` and `str` of an integer, `float` and the format `.6f` of a binary64 number.
-/

namespace Lib

/-- The most digits that `int` reads and `str` prints. -/
def intMaxStrDigits : Nat := 4300

/-- An integer that has a text. -/
structure PyInt where
  val : Int
  val_lt : val.natAbs < 10 ^ intMaxStrDigits
  deriving DecidableEq

theorem PyInt.zero_lt : Int.natAbs 0 < 10 ^ intMaxStrDigits := Nat.pow_pos (by decide)

def PyInt.zero : PyInt := ⟨0, PyInt.zero_lt⟩

theorem PyInt.one_lt : Int.natAbs 1 < 10 ^ intMaxStrDigits := Nat.one_lt_pow (by decide) (by decide)

def PyInt.one : PyInt := ⟨1, PyInt.one_lt⟩

def PyInt.toText (n : PyInt) : Text :=
  if n.val < 0 then '-' :: Nat.toDigits 10 n.val.natAbs else Nat.toDigits 10 n.val.natAbs

/-- Drop the underscores. Each of them has to stand between two digits. -/
def dropUnderscores (afterDigit : Bool) : Text → Option Text
  | [] => some []
  | '_' :: c :: rest => if afterDigit && c.isDigit then dropUnderscores false (c :: rest) else none
  | ['_'] => none
  | c :: rest => (dropUnderscores c.isDigit rest).map (c :: ·)

def readSign : Text → Bool × Text
  | '-' :: rest => (true, rest)
  | '+' :: rest => (false, rest)
  | rest => (false, rest)

def digitsValue (t : Text) : Nat := Nat.ofDigitChars 10 t 0

theorem ofDigitChars_lt {t : Text} (h : t.all Char.isDigit = true) (n : Nat) :
    Nat.ofDigitChars 10 t n < (n + 1) * 10 ^ t.length := by
  induction t generalizing n with
  | nil => simp
  | cons c rest ih =>
    rw [List.all_cons, Bool.and_eq_true] at h
    rw [Nat.ofDigitChars_cons, List.length_cons]
    have hc : c.toNat ≤ 57 := (Char.isDigit_iff_toNat.mp h.1).2
    have h0 : '0'.toNat = 48 := rfl
    calc Nat.ofDigitChars 10 rest (10 * n + (c.toNat - '0'.toNat))
        < (10 * n + (c.toNat - '0'.toNat) + 1) * 10 ^ rest.length := ih h.2 _
      _ ≤ ((n + 1) * 10) * 10 ^ rest.length := Nat.mul_le_mul_right _ (by omega)
      _ = (n + 1) * 10 ^ (rest.length + 1) := by rw [Nat.pow_succ, Nat.mul_assoc, Nat.mul_comm 10]

theorem digitsValue_lt {t : Text} (h : t.all Char.isDigit = true) : digitsValue t < 10 ^ t.length := by
  have hlt := ofDigitChars_lt h 0
  simpa [digitsValue] using hlt

/-- The integer that a sign and digits write. `none` is the `ValueError`. -/
def intOfDigits (neg : Bool) (digits : Text) : Option PyInt :=
  if digits = [] then none
  else if hd : digits.all Char.isDigit = true then
    if hl : digits.length ≤ intMaxStrDigits then
      let n := digitsValue digits
      have hn : n < 10 ^ intMaxStrDigits :=
        Nat.lt_of_lt_of_le (digitsValue_lt hd) (Nat.pow_le_pow_right (by decide) hl)
      some (if neg then ⟨-(n : Int), by omega⟩ else ⟨(n : Int), by omega⟩)
    else none
  else none

def readExponent : Text → Option Int
  | [] => some 0
  | c :: rest =>
    let (neg, digits) := readSign rest
    if (c = 'e' || c = 'E') && digits ≠ [] && digits.all Char.isDigit then
      some (if neg then -(digitsValue digits : Int) else digitsValue digits)
    else none

/-- `PyOS_string_to_double` on a text with a point in it. -/
def decimalValue (t : Text) : Option ℚ :=
  let whole := t.takeWhile Char.isDigit
  match t.dropWhile Char.isDigit with
  | '.' :: rest =>
    let frac := rest.takeWhile Char.isDigit
    if whole = [] ∧ frac = [] then none
    else (readExponent (rest.dropWhile Char.isDigit)).map fun (e : Int) =>
      (digitsValue (whole ++ frac) : ℚ) * 10 ^ (e - frac.length)
  | _ => none

section Read

variable [Unicode]

def asciiDigits (t : Text) : Text := t.map fun c => (Unicode.digit c).elim c Nat.digitChar

/-- `int(t)` for a text without spaces around it. `none` is the `ValueError`. -/
def pyInt (t : Text) : Option PyInt :=
  let (neg, digits) := readSign (asciiDigits t)
  (dropUnderscores false digits).bind (intOfDigits neg)

/-- `float(t)` for a text with a point in it and without spaces around it. -/
def pyFloat (t : Text) : Option Binary64 :=
  (dropUnderscores false (asciiDigits t)).bind fun t =>
    let (neg, decimal) := readSign t
    (decimalValue decimal).map (Binary64.round neg)

end Read

def sixDigits (n : Nat) : Text := (Nat.toDigits 10 (10 ^ 6 + n % 10 ^ 6)).drop 1

/-- `f"{x:.6f}"`. -/
def format6f : Binary64 → Text
  | .finite neg mag =>
    let n := roundHalfEven (mag.toRat * 10 ^ 6)
    (if neg then ['-'] else []) ++ Nat.toDigits 10 (n / 10 ^ 6) ++ '.' :: sixDigits n
  | .infinite neg => if neg then ['-', 'i', 'n', 'f'] else ['i', 'n', 'f']
  | .nan => ['n', 'a', 'n']

/-! ## What a printed number is made of -/

def isNumeralChar (c : Char) : Bool := c.isAlphanum || c == '.' || c == '-'

theorem isSpace_of_isNumeralChar {c : Char} (h : isNumeralChar c = true) : isSpace c = false := by
  simp only [isNumeralChar, Bool.or_eq_true, beq_iff_eq] at h
  rcases h with (h | rfl) | rfl
  · cases hs : isSpace c with
    | false => rfl
    | true => rw [isAlphanum_of_isSpace hs] at h; cases h
  · decide
  · decide

theorem isNumeralChar_of_isDigit {c : Char} (h : c.isDigit = true) : isNumeralChar c = true := by
  simp [isNumeralChar, Char.isAlphanum, h]

theorem isNumeralChar_toDigits {n : Nat} {c : Char} (h : c ∈ Nat.toDigits 10 n) : isNumeralChar c = true :=
  isNumeralChar_of_isDigit (Nat.isDigit_of_mem_toDigits (by decide) (by decide) h)

theorem PyInt.toText_spec (n : PyInt) : n.toText ≠ [] ∧ ∀ c ∈ n.toText, isNumeralChar c = true := by
  unfold PyInt.toText
  split
  · refine ⟨by simp, fun c hc => ?_⟩
    rcases List.mem_cons.mp hc with rfl | hc
    · decide
    · exact isNumeralChar_toDigits hc
  · exact ⟨Nat.toDigits_ne_nil, fun c hc => isNumeralChar_toDigits hc⟩

theorem format6f_spec (x : Binary64) : format6f x ≠ [] ∧ ∀ c ∈ format6f x, isNumeralChar c = true := by
  cases x with
  | finite neg mag =>
    refine ⟨by simp [format6f], fun c hc => ?_⟩
    simp only [format6f, List.mem_append, List.mem_cons] at hc
    rcases hc with (hc | hc) | rfl | hc
    · cases neg
      · cases hc
      · rw [if_pos rfl, List.mem_singleton] at hc
        subst hc
        decide
    · exact isNumeralChar_toDigits hc
    · decide
    · exact isNumeralChar_toDigits (List.mem_of_mem_drop hc)
  | infinite neg => cases neg <;> exact ⟨by decide, List.all_eq_true.mp (by decide)⟩
  | nan => exact ⟨by decide, List.all_eq_true.mp (by decide)⟩

/-- A type of floating point numbers: how a literal with a point is read, and the format `.6f`. -/
class PyFloat (F : Type) where
  read : Text → Option F
  format6f : F → Text
  format6f_ne_nil (x : F) : format6f x ≠ []
  format6f_chars (x : F) (c : Char) : c ∈ format6f x → isNumeralChar c = true

instance [Unicode] : PyFloat Binary64 where
  read := pyFloat
  format6f := format6f
  format6f_ne_nil x := (format6f_spec x).1
  format6f_chars x := (format6f_spec x).2

end Lib

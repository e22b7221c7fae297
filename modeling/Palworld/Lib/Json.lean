import Palworld.Lib.Dict
import Palworld.Lib.Numeral

/-!
# JSON as Python reads and writes it

`json.loads`, with its strict strings, its three constants beyond the standard and its limit on
nesting, and `json.dumps` with an indent of two.
-/

namespace Lib

/-! ## Strings

A Python string may hold half of a surrogate pair, which no text has.
-/

inductive PyChar
  | char (c : Char)
  | surrogate (unit : Fin 2048)
  deriving DecidableEq

abbrev PyStr := List PyChar

def PyStr.ofText (t : Text) : PyStr := t.map .char

/-- The text of a string. `none` where half of a surrogate pair stands in it. -/
def PyStr.toText? : PyStr → Option Text
  | [] => some []
  | .char c :: s => (PyStr.toText? s).map (c :: ·)
  | .surrogate _ :: _ => none

/-- A code unit as `\uXXXX` gives it. -/
def PyChar.ofUnit (n : Nat) : PyChar :=
  if h : 0xD800 ≤ n ∧ n < 0xE000 then .surrogate ⟨n - 0xD800, by omega⟩ else .char (Char.ofNat n)

def PyChar.IsHigh : PyChar → Prop
  | .surrogate unit => unit.val < 0x400
  | .char _ => False

def PyChar.IsLow : PyChar → Prop
  | .surrogate unit => 0x400 ≤ unit.val
  | .char _ => False

instance (c : PyChar) : Decidable c.IsHigh := by
  cases c <;> unfold PyChar.IsHigh <;> infer_instance

instance (c : PyChar) : Decidable c.IsLow := by
  cases c <;> unfold PyChar.IsLow <;> infer_instance

/-! ## Values -/

inductive JsonValue
  | null
  | bool (b : Bool)
  | int (n : PyInt)
  | float (x : Binary64)
  | str (s : PyStr)
  | array (items : List JsonValue)
  | object (fields : List (PyStr × JsonValue))

/-! ## Reading -/

inductive DecodeError
  | malformed                     -- `JSONDecodeError`
  | tooManyDigits                 -- `ValueError` from `int`
  | tooDeep                       -- `RecursionError`
  deriving DecidableEq

/-- A scanner returns what it has read and the rest. -/
abbrev Scanned (α : Type) := Except DecodeError (α × Text)

def isJsonBlank (c : Char) : Bool := c == ' ' || c == '\t' || c == '\n' || c == '\r'

def skipBlanks (t : Text) : Text := t.dropWhile isJsonBlank

def hexValue (c : Char) : Option Nat :=
  if c.isDigit then some (c.toNat - 48)
  else if 'a' ≤ c ∧ c ≤ 'f' then some (c.toNat - 87)
  else if 'A' ≤ c ∧ c ≤ 'F' then some (c.toNat - 55)
  else none

/-- Four hexadecimal digits. -/
def unitOf (a b c d : Char) : Option Nat := do
  let a ← hexValue a
  let b ← hexValue b
  let c ← hexValue c
  let d ← hexValue d
  return 4096 * a + 256 * b + 16 * c + d

/-- The escapes of one letter. -/
def unescape : Char → Option Char
  | '"' => some '"'
  | '\\' => some '\\'
  | '/' => some '/'
  | 'b' => some '\x08'
  | 'f' => some '\x0c'
  | 'n' => some '\n'
  | 'r' => some '\r'
  | 't' => some '\t'
  | _ => none

def onto (c : PyChar) (scanned : Scanned PyStr) : Scanned PyStr := scanned.map fun (s, rest) => (c :: s, rest)

/-- What is quoted, with the two halves of a pair still apart. -/
def scanUnits : Text → Scanned PyStr
  | [] => .error .malformed
  | '"' :: rest => .ok ([], rest)
  | '\\' :: 'u' :: a :: b :: c :: d :: rest =>
    match unitOf a b c d with
    | some n => onto (.ofUnit n) (scanUnits rest)
    | none => .error .malformed
  | '\\' :: c :: rest =>
    match unescape c with
    | some c => onto (.char c) (scanUnits rest)
    | none => .error .malformed
  | c :: rest => if c = '\\' ∨ c.toNat < 32 then .error .malformed else onto (.char c) (scanUnits rest)

/-- The character of a surrogate pair. -/
def joined (high low : Fin 2048) : PyChar := .char (Char.ofNat (0x10000 + 0x400 * high.val + (low.val - 0x400)))

/-- A first half takes the second half behind it. -/
def joinOnto (c : PyChar) (s : PyStr) : PyStr :=
  match c, s with
  | .surrogate high, .surrogate low :: rest =>
    if high.val < 0x400 ∧ 0x400 ≤ low.val then joined high low :: rest else .surrogate high :: .surrogate low :: rest
  | c, s => c :: s

/-- `scanstring`, behind the opening quote. Only escapes give halves of a pair. -/
def scanString (t : Text) : Scanned PyStr := (scanUnits t).map fun (s, rest) => (s.foldr joinOnto [], rest)

/-- The text of a number: a sign, an integer without leading zeros, and perhaps a fraction and an exponent. -/
structure NumberText where
  neg : Bool
  whole : Text
  fraction : Text
  exponent : Option (Bool × Text)

def scanMinus : Text → Bool × Text
  | '-' :: rest => (true, rest)
  | rest => (false, rest)

def scanWhole (t : Text) : Option (Text × Text) :=
  match t with
  | '0' :: rest => some (['0'], rest)
  | _ => if t.takeWhile Char.isDigit = [] then none else some (t.takeWhile Char.isDigit, t.dropWhile Char.isDigit)

def scanFraction (t : Text) : Text × Text :=
  match t with
  | '.' :: rest => if rest.takeWhile Char.isDigit = [] then ([], t) else (rest.takeWhile Char.isDigit, rest.dropWhile Char.isDigit)
  | _ => ([], t)

def scanExponent (t : Text) : Option (Bool × Text) × Text :=
  match t with
  | c :: rest =>
    let (neg, digits) := readSign rest
    if (c = 'e' ∨ c = 'E') ∧ digits.takeWhile Char.isDigit ≠ [] then
      (some (neg, digits.takeWhile Char.isDigit), digits.dropWhile Char.isDigit)
    else (none, t)
  | [] => (none, [])

def scanNumber (t : Text) : Option (NumberText × Text) := do
  let (neg, unsigned) := scanMinus t
  let (whole, rest) ← scanWhole unsigned
  let (fraction, rest) := scanFraction rest
  let (exponent, rest) := scanExponent rest
  return (⟨neg, whole, fraction, exponent⟩, rest)

def NumberText.exponentValue (number : NumberText) : Int :=
  match number.exponent with
  | some (neg, digits) => if neg then -(digitsValue digits : Int) else digitsValue digits
  | none => 0

/-- The magnitude that the text of a number stands for. -/
def NumberText.magnitude (number : NumberText) : ℚ :=
  (digitsValue (number.whole ++ number.fraction) : ℚ) * 10 ^ (number.exponentValue - number.fraction.length)

/-- `int` of the text where it has neither a fraction nor an exponent, else `float`. -/
def NumberText.value (number : NumberText) : Except DecodeError JsonValue :=
  if number.fraction = [] ∧ number.exponent = none then
    match intOfDigits number.neg number.whole with
    | some n => .ok (.int n)
    | none => .error .tooManyDigits
  else .ok (.float (Binary64.round number.neg number.magnitude))

def constants : List (Text × JsonValue) :=
  [(lit "null", .null), (lit "true", .bool true), (lit "false", .bool false), (lit "NaN", .float .nan),
    (lit "Infinity", .float (.infinite false)), (lit "-Infinity", .float (.infinite true))]

def scanConstant (t : Text) : Option (JsonValue × Text) :=
  (constants.find? fun entry => entry.1.isPrefixOf t).map fun entry => (entry.2, t.drop entry.1.length)

/-- The items of an array, from the first one on. -/
def scanItems (value : Text → Scanned JsonValue) : Nat → Text → Except DecodeError (List JsonValue × Text)
  | 0, _ => .error .malformed
  | n + 1, t => do
    let (item, rest) ← value t
    match skipBlanks rest with
    | ']' :: rest => return ([item], rest)
    | ',' :: rest =>
      let (items, rest) ← scanItems value n (skipBlanks rest)
      return (item :: items, rest)
    | _ => .error .malformed

def scanArray (value : Text → Scanned JsonValue) (t : Text) : Scanned JsonValue :=
  match skipBlanks t with
  | ']' :: rest => .ok (.array [], rest)
  | t => (scanItems value t.length t).map fun (items, rest) => (.array items, rest)

/-- The fields of an object, from the first key on. -/
def scanFields (value : Text → Scanned JsonValue) : Nat → Text → Except DecodeError (List (PyStr × JsonValue) × Text)
  | n + 1, '"' :: t => do
    let (key, rest) ← scanString t
    match skipBlanks rest with
    | ':' :: rest =>
      let (item, rest) ← value (skipBlanks rest)
      match skipBlanks rest with
      | '\x7d' :: rest => return ([(key, item)], rest)
      | ',' :: rest =>
        let (fields, rest) ← scanFields value n (skipBlanks rest)
        return ((key, item) :: fields, rest)
      | _ => .error .malformed
    | _ => .error .malformed
  | _, _ => .error .malformed

/-- Of equal keys the last one counts, at the place of the first one. -/
def scanObject (value : Text → Scanned JsonValue) (t : Text) : Scanned JsonValue :=
  match skipBlanks t with
  | '\x7d' :: rest => .ok (.object [], rest)
  | t => (scanFields value t.length t).map fun (fields, rest) => (.object (Dict.ofList fields).entries, rest)

/-- `scan_once`, with a scanner for what an array or an object holds. -/
def scanValue (nested : Option (Text → Scanned JsonValue)) (t : Text) : Scanned JsonValue :=
  match t with
  | '"' :: rest => (scanString rest).map fun (s, rest) => (.str s, rest)
  | '\x7b' :: rest => (nested.map fun value => scanObject value rest).getD (.error .tooDeep)
  | '[' :: rest => (nested.map fun value => scanArray value rest).getD (.error .tooDeep)
  | t =>
    match scanConstant t with
    | some scanned => .ok scanned
    | none =>
      match scanNumber t with
      | some (number, rest) => number.value.map fun value => (value, rest)
      | none => .error .malformed

/-- A value whose arrays and objects are nested at most `depth` deep. -/
def scanOnce : Nat → Text → Scanned JsonValue
  | 0 => scanValue none
  | depth + 1 => scanValue (some (scanOnce depth))

/-- `json.loads`. Deeper nesting than the interpreter allows is a `RecursionError`. -/
def loads (depth : Nat) (t : Text) : Except DecodeError JsonValue := do
  let (value, rest) ← scanOnce depth (skipBlanks t)
  if skipBlanks rest = [] then return value else .error .malformed

/-! ## Writing -/

/-- A text is read back as this float. -/
def readsAs (t : Text) (x : Binary64) : Bool :=
  match scanNumber t with
  | some (number, []) => (number.fraction ≠ [] || number.exponent ≠ none) && Binary64.round number.neg number.magnitude = x
  | _ => false

def signText (neg : Bool) : Text := if neg then ['-'] else []

/-- `float.__repr__` of `digits * 10 ^ (point - digits.length)`. Large and small numbers have an exponent of two digits or more. -/
def decimalRepr (neg : Bool) (digits : Text) (point : Int) : Text :=
  signText neg ++
    if -4 < point ∧ point ≤ 16 then
      if point ≤ 0 then '0' :: '.' :: (List.replicate point.natAbs '0' ++ digits)
      else if digits.length ≤ point then digits ++ List.replicate (point.natAbs - digits.length) '0' ++ ['.', '0']
      else digits.take point.natAbs ++ '.' :: digits.drop point.natAbs
    else
      let exponent := Nat.toDigits 10 (point - 1).natAbs
      digits.take 1 ++ (if digits.length ≤ 1 then [] else '.' :: digits.drop 1) ++
        'e' :: (if point < 1 then '-' else '+') :: (if exponent.length < 2 then '0' :: exponent else exponent)

/-- A decimal without the zeros at its end. -/
def trimmedRepr (neg : Bool) (n : Nat) (unit : Int) : Text :=
  let digits := ((Nat.toDigits 10 n).reverse.dropWhile (· == '0')).reverse
  if n = 0 then decimalRepr neg ['0'] 1 else decimalRepr neg digits ((Nat.toDigits 10 n).length + unit)

/-- The two decimals of `places` digits next to a number, the nearer one first. -/
def nearestDecimals (r : ℚ) (places : Nat) : List (Nat × Int) :=
  let unit := Int.log 10 r + 1 - places
  let scaled := r / 10 ^ unit
  let nearest := roundHalfEven scaled
  [(nearest, unit), (if (nearest : ℚ) ≤ scaled then nearest + 1 else nearest - 1, unit)]

/-- All digits of a finite number. -/
def exactRepr (neg : Bool) (mag : Magnitude) : Text :=
  let places := mag.exponent.natAbs
  if mag.exponent < 0 then signText neg ++ Nat.toDigits 10 (mag.significand * 5 ^ places) ++ 'e' :: '-' :: Nat.toDigits 10 places
  else signText neg ++ Nat.toDigits 10 (mag.significand * 2 ^ places) ++ ['e', '0']

/-- `float.__repr__`: the shortest text that is read back as the number. Seventeen digits are always enough. -/
def finiteRepr (neg : Bool) (mag : Magnitude) : Text :=
  let decimals := (List.range 17).flatMap fun n => nearestDecimals mag.toRat (n + 1)
  let texts := decimals.map fun decimal => trimmedRepr neg decimal.1 decimal.2
  (texts.find? fun t => readsAs t (.finite neg mag)).getD (exactRepr neg mag)

def floatText : Binary64 → Text
  | .finite neg mag => finiteRepr neg mag
  | .infinite neg => signText neg ++ lit "Infinity"
  | .nan => lit "NaN"

def hexDigit (n : Nat) : Char := if n < 10 then Char.ofNat (48 + n) else Char.ofNat (87 + n)

def escapeUnit (n : Nat) : Text :=
  ['\\', 'u', hexDigit (n / 4096 % 16), hexDigit (n / 256 % 16), hexDigit (n / 16 % 16), hexDigit (n % 16)]

/-- The letter of a short escape. -/
def escapeLetter (c : Char) : Option Char :=
  if c = '"' then some '"'
  else if c = '\\' then some '\\'
  else if c = '\n' then some 'n'
  else if c = '\r' then some 'r'
  else if c = '\t' then some 't'
  else if c = '\x08' then some 'b'
  else if c = '\x0c' then some 'f'
  else none

/-- A character of a string, in printable ASCII. -/
def escapeChar : PyChar → Text
  | .surrogate unit => escapeUnit (0xD800 + unit.val)
  | .char c =>
    match escapeLetter c with
    | some letter => ['\\', letter]
    | none =>
      if 32 ≤ c.toNat ∧ c.toNat ≤ 126 then [c]
      else if c.toNat < 0x10000 then escapeUnit c.toNat
      else escapeUnit (0xD800 + (c.toNat - 0x10000) / 0x400) ++ escapeUnit (0xDC00 + (c.toNat - 0x10000) % 0x400)

def quoted (s : PyStr) : Text := '"' :: (s.flatMap escapeChar ++ ['"'])

def newLine (level : Nat) : Text := '\n' :: List.replicate (2 * level) ' '

mutual

/-- `json.dumps` with an indent of two. -/
def JsonValue.dump (level : Nat) : JsonValue → Text
  | .null => lit "null"
  | .bool b => if b then lit "true" else lit "false"
  | .int n => n.toText
  | .float x => floatText x
  | .str s => quoted s
  | .array [] => ['[', ']']
  | .array (item :: items) =>
    '[' :: (newLine (level + 1) ++ (item.dump (level + 1) ++ (dumpItems (level + 1) items ++ (newLine level ++ [']']))))
  | .object [] => ['\x7b', '\x7d']
  | .object ((key, item) :: fields) =>
    '\x7b' :: (newLine (level + 1) ++ (quoted key ++ (':' :: ' ' :: (item.dump (level + 1) ++
      (dumpFields (level + 1) fields ++ (newLine level ++ ['\x7d']))))))

def dumpItems (level : Nat) : List JsonValue → Text
  | [] => []
  | item :: items => ',' :: (newLine level ++ (item.dump level ++ dumpItems level items))

def dumpFields (level : Nat) : List (PyStr × JsonValue) → Text
  | [] => []
  | (key, item) :: fields =>
    ',' :: (newLine level ++ (quoted key ++ (':' :: ' ' :: (item.dump level ++ dumpFields level fields))))

end

mutual

/-- How deep arrays and objects are nested. -/
def JsonValue.depth : JsonValue → Nat
  | .array items => depthItems items + 1
  | .object fields => depthFields fields + 1
  | _ => 0

def depthItems : List JsonValue → Nat
  | [] => 0
  | item :: items => max item.depth (depthItems items)

def depthFields : List (PyStr × JsonValue) → Nat
  | [] => 0
  | (_, item) :: fields => max item.depth (depthFields fields)

end

/-- `json.dumps(value, indent=2)`. Deeper nesting than the interpreter allows is a `RecursionError`. -/
def dumps (depth : Nat) (value : JsonValue) : Option Text := if value.depth ≤ depth then some (value.dump 0) else none

end Lib

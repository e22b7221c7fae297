import Palworld.Lib.Json

/-!
# `str` and `repr` of a value read from JSON
-/

namespace Lib

def hexDigits (places n : Nat) : Text := (List.range places).reverse.map fun i => hexDigit (n / 16 ^ i % 16)

section

variable (isPrintable : Char → Bool)

/-- A character between quotes. -/
def reprChar (quote : Char) : PyChar → Text
  | .surrogate unit => escapeUnit (0xD800 + unit.val)
  | .char c =>
    if c = quote ∨ c = '\\' then ['\\', c]
    else if c = '\t' then ['\\', 't']
    else if c = '\n' then ['\\', 'n']
    else if c = '\r' then ['\\', 'r']
    else if 32 ≤ c.toNat ∧ c.toNat < 127 ∨ 127 < c.toNat ∧ isPrintable c then [c]
    else if c.toNat < 0x100 then '\\' :: 'x' :: hexDigits 2 c.toNat
    else if c.toNat < 0x10000 then '\\' :: 'u' :: hexDigits 4 c.toNat
    else '\\' :: 'U' :: hexDigits 8 c.toNat

/-- Double quotes stand only where they save escapes. -/
def reprStr (s : PyStr) : Text :=
  let quote := if PyChar.char '\'' ∈ s ∧ PyChar.char '"' ∉ s then '"' else '\''
  quote :: (s.flatMap (reprChar isPrintable quote) ++ [quote])

def reprFloat : Binary64 → Text
  | .finite neg mag => finiteRepr neg mag
  | .infinite neg => signText neg ++ lit "inf"
  | .nan => lit "nan"

mutual

def JsonValue.repr : JsonValue → Text
  | .null => lit "None"
  | .bool b => if b then lit "True" else lit "False"
  | .int n => n.toText
  | .float x => reprFloat x
  | .str s => reprStr isPrintable s
  | .array items => '[' :: (reprItems items ++ [']'])
  | .object fields => '\x7b' :: (reprFields fields ++ ['\x7d'])

def reprItems : List JsonValue → Text
  | [] => []
  | [item] => item.repr
  | item :: items => item.repr ++ ',' :: ' ' :: reprItems items

def reprFields : List (PyStr × JsonValue) → Text
  | [] => []
  | [(key, item)] => reprStr isPrintable key ++ ':' :: ' ' :: item.repr
  | (key, item) :: fields => reprStr isPrintable key ++ ':' :: ' ' :: (item.repr ++ ',' :: ' ' :: reprFields fields)

end

/-- `str(value)`. Deeper nesting than the interpreter allows is a `RecursionError`. -/
def JsonValue.toStr (depth : Nat) (value : JsonValue) : Option PyStr :=
  match value with
  | .str s => some s
  | value => if value.depth ≤ depth then some (PyStr.ofText (value.repr isPrintable)) else none

end

/-- `bool(value)`. -/
def JsonValue.truth : JsonValue → Bool
  | .null => false
  | .bool b => b
  | .int n => n.val ≠ 0
  | .float (.finite _ mag) => mag.significand ≠ 0
  | .float _ => true
  | .str s => s ≠ []
  | .array items => !items.isEmpty
  | .object fields => !fields.isEmpty

inductive IntError
  | typeError
  | overflowError
  | valueError
  deriving DecidableEq

/-- `int(value)`. -/
def JsonValue.toInt [Unicode] : JsonValue → Except IntError Int
  | .bool b => .ok (if b then 1 else 0)
  | .int n => .ok n.val
  | .float (.finite neg mag) => .ok (if neg then -mag.toRat.floor else mag.toRat.floor)
  | .float (.infinite _) => .error .overflowError
  | .float .nan => .error .valueError
  | .str s =>
    match s.toText?.bind fun t => pyInt (strip t) with
    | some n => .ok n.val
    | none => .error .valueError
  | _ => .error .typeError

end Lib

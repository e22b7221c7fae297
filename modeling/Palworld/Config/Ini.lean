import Palworld.Lib.Dict
import Palworld.Lib.Numeral

/-!
# The INI parser and serializer

A model of `parse_ini_file` and `serialize_ini_settings`. The regular expression of
the parser is a scan: it tries to match a token at each position and goes on
behind the token when there is one.
-/

open Lib

namespace Palworld.Config

/-- The values that a settings dict holds. `other` is any other object, with its `str`. -/
inductive PyValue (F : Type) where
  | bool (b : Bool)
  | int (n : PyInt)
  | float (x : F)
  | str (s : Text)
  | none
  | other (shown : Text)
  deriving DecidableEq

abbrev Settings (F : Type) := Dict Text (PyValue F)

abbrev Token (F : Type) := Text × PyValue F

def iniHeader : Text := lit "[/Script/Pal.PalGameWorldSettings]\n"

def payloadOpen : Text := lit "OptionSettings=("

def payloadClose : Text := [')', '\n']

section Parser

variable {F : Type} [Unicode] [PyFloat F]

/-- `OptionSettings=\((.*)\)`: from the first `OptionSettings=(` to the last parenthesis. -/
def optionSettings (content : Text) : Option Text :=
  (afterFirst payloadOpen content).bind (beforeLast ')')

def bareValue (raw : Text) : PyValue F :=
  let raw := strip raw
  if raw = lit "True" then .bool true
  else if raw = lit "False" then .bool false
  else if '.' ∈ raw then ((PyFloat.read raw).map .float).getD (.str raw)
  else ((pyInt raw).map .int).getD (.str raw)

/-- `([^,]+)`, with what follows it. -/
def bareRun (t : Text) : Option (PyValue F × Text) :=
  if t.takeWhile (· ≠ ',') = [] then none
  else some (bareValue (t.takeWhile (· ≠ ',')), t.dropWhile (· ≠ ','))

/-- `"([^"]*)"|(\([^)]*\))|([^,]+)`, with what follows it. -/
def tokenValue : Text → Option (PyValue F × Text)
  | [] => none
  | c :: rest =>
    if c = '"' ∧ '"' ∈ rest then
      some (.str (rest.takeWhile (· ≠ '"')), (rest.dropWhile (· ≠ '"')).tail)
    else if c = '(' ∧ ')' ∈ rest then
      some (.str ('(' :: rest.takeWhile (· ≠ ')') ++ [')']), (rest.dropWhile (· ≠ ')')).tail)
    else bareRun (c :: rest)

def tokenAt (t : Text) : Option (Token F × Text) :=
  match t.dropWhile isWordChar with
  | '=' :: rest =>
    if t.takeWhile isWordChar = [] then none
    else (tokenValue rest).map fun v => ((t.takeWhile isWordChar, v.1), v.2)
  | _ => none

def nextTry (F : Type) [PyFloat F] (t : Text) : Text :=
  match (tokenAt t : Option (Token F × Text)) with
  | some (_, rest) => rest
  | none => t.tail

/-- The positions that the scan tries, given enough fuel. -/
def triesFrom (F : Type) [PyFloat F] : Nat → Text → List Text
  | 0, _ => []
  | _ + 1, [] => []
  | fuel + 1, c :: t => (c :: t) :: triesFrom F fuel (nextTry F (c :: t))

/-- `pattern.finditer`. -/
def tries (F : Type) [PyFloat F] (t : Text) : List Text := triesFrom F t.length t

def tokens (t : Text) : List (Token F) := (tries F t).filterMap fun t => (tokenAt t).map Prod.fst

def parseIniFile (file : Text) : Settings F :=
  match optionSettings (universalNewlines file) with
  | none => Dict.empty
  | some raw => Dict.ofList (tokens (strip raw))

end Parser

section Serializer

variable {F : Type} [Unicode] [PyFloat F]

/-- What `serialize_ini_settings` writes for a value. -/
def valueText : PyValue F → Text
  | .bool true => lit "True"
  | .bool false => lit "False"
  | .float x => PyFloat.format6f x
  | .int n => n.toText
  | .str s => if ['('].isPrefixOf s ∧ [')'].isSuffixOf s then s else '"' :: s ++ ['"']
  | .none => lit "\"None\""
  | .other shown => '"' :: shown ++ ['"']

omit [Unicode] in
theorem valueText_str (s : Text) : valueText (.str s : PyValue F)
    = if ['('].isPrefixOf s ∧ [')'].isSuffixOf s then s else '"' :: s ++ ['"'] := rfl

def entryText (kv : Text × PyValue F) : Text := kv.1 ++ '=' :: valueText kv.2

def serializeIniSettings (settings : Settings F) : Text :=
  iniHeader ++ payloadOpen ++ commaJoin (settings.entries.map entryText) ++ payloadClose

end Serializer

end Palworld.Config

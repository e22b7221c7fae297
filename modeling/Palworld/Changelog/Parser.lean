import Palworld.Lib.Dict
import Palworld.Lib.Regex
import Palworld.Logs.Redaction
import Mathlib.Data.List.DropRight

/-!
# The changelog parser

The parser reads a line at a time. The section, the category and the release that it has come to are
carried from line to line.
-/

open Lib Lib.Re

namespace Palworld.Changelog

/-! ## The lines -/

/-- `^##\s+\[?[Uu]nreleased\]?\s*$`, where case is ignored. -/
def reUnreleasedHeader : Re Unit := do
  let _ ← word id (lit "##")
  let _ ← many1 isSpace
  let _ ← (char (· == '[')).orEmpty
  let _ ← word Logs.foldCase (lit "unreleased")
  let _ ← (char (· == ']')).orEmpty
  let _ ← many isSpace
  atEnd

/-- `[a-zA-Z0-9_.-]`. -/
def isLabelChar (c : Char) : Bool := c.isAlphanum || ['_', '.', '-'].contains c

/-- `[0-9]+\.[0-9]+(?:\.[0-9]+)?(?:-[a-zA-Z0-9_.-]+)?`. -/
def reVersion : Re Text := do
  let major ← many1 Char.isDigit
  let dot ← char (· == '.')
  let minor ← many1 Char.isDigit
  let patch ← orEmpty do
    let dot ← char (· == '.')
    let n ← many1 Char.isDigit
    return dot ++ n
  let label ← orEmpty do
    let dash ← char (· == '-')
    let l ← many1 isLabelChar
    return dash ++ l
  return major ++ (dot ++ (minor ++ (patch ++ label)))

/-- `[0-9]{4}-[0-9]{2}-[0-9]{2}`. -/
def reDate : Re Text := do
  let year ← exactly Char.isDigit 4
  let dash ← char (· == '-')
  let month ← exactly Char.isDigit 2
  let dash' ← char (· == '-')
  let day ← exactly Char.isDigit 2
  return year ++ (dash ++ (month ++ (dash' ++ day)))

/-- `\s*-\s*(?P<date>…)`. -/
def reDatePart : Re Text := do
  let _ ← many isSpace
  let _ ← char (· == '-')
  let _ ← many isSpace
  reDate

/-- `^##\s+\[?(?:v|V)?(?P<version>…)\]?(?:\s*-\s*(?P<date>…))?\s*$`. -/
def reReleaseHeader : Re (Text × Option Text) := do
  let _ ← word id (lit "##")
  let _ ← many1 isSpace
  let _ ← (char (· == '[')).orEmpty
  let _ ← (char fun c => c == 'v' || c == 'V').orEmpty
  let version ← reVersion
  let _ ← (char (· == ']')).orEmpty
  let date ← reDatePart.opt
  let _ ← many isSpace
  atEnd
  return (version, date)

/-- `[A-Za-z0-9_\- ]`. -/
def isCategoryChar (c : Char) : Bool := c.isAlphanum || ['_', '-', ' '].contains c

/-- `^###\s+(?P<category>[A-Za-z0-9_\- ]+)\s*$`. -/
def reCategoryHeader : Re Text := do
  let _ ← word id (lit "###")
  let _ ← many1 isSpace
  let category ← many1 isCategoryChar
  let _ ← many isSpace
  atEnd
  return category

/-- `^\s*[*-]\s+(?P<item>.+)$`. -/
def reBulletItem : Re Text := do
  let _ ← many isSpace
  let _ ← char fun c => c == '*' || c == '-'
  let _ ← many1 isSpace
  let item ← many1 (· != '\n')
  atEnd
  return item

def isNewline (c : Char) : Bool := c == '\r' || c == '\n'

/-- `line.rstrip("\r\n")`. -/
def rstripNewlines (line : Text) : Text := line.rdropWhile isNewline

/-! ## The state -/

structure ChangelogCategoryItem where
  category : Text
  items : List Text
  deriving DecidableEq

structure ChangelogRelease where
  version : Text
  date : Option Text
  categories : List ChangelogCategoryItem
  raw_body : Text

/-- The list of items of a map from category names to items. -/
def categoryItems (cats : Dict Text (List Text)) : List ChangelogCategoryItem := cats.entries.map fun kv => ⟨kv.1, kv.2⟩

structure ReleaseState where
  version : Text := []
  date : Option Text := none
  categories : Dict Text (List Text) := Dict.empty
  raw_lines : List Text := []

def ReleaseState.buildRelease (state : ReleaseState) : Option ChangelogRelease :=
  if state.version = [] then none
  else some ⟨state.version, state.date, categoryItems state.categories, strip (['\n'].intercalate state.raw_lines)⟩

def ReleaseState.reset (version : Text) (date : Option Text) : ReleaseState := { version, date }

inductive Section
  | preamble
  | unreleased
  | release
  deriving DecidableEq

/-- The local variables of `_parse_lines`. -/
structure ParserState where
  releases : List ChangelogRelease := []
  unreleased_cats : Dict Text (List Text) := Dict.empty
  active_section : Section := .preamble
  current_cat : Option Text := none
  state : ReleaseState := {}

def flushActiveRelease (releases : List ChangelogRelease) (state : ReleaseState) : List ChangelogRelease :=
  releases ++ state.buildRelease.toList

/-- `cats.setdefault(cat, [])`. -/
def setdefault (cats : Dict Text (List Text)) (cat : Text) : Dict Text (List Text) :=
  match cats.get? cat with
  | some _ => cats
  | none => cats.set cat []

/-- `cats.setdefault(cat, []).append(item)`. -/
def appendItem (cats : Dict Text (List Text)) (cat item : Text) : Dict Text (List Text) :=
  cats.set cat ((cats.get? cat).getD [] ++ [item])

/-- `current_cat or ("Planned" if active_section == "unreleased" else "Other")`. -/
def targetCat (current_cat : Option Text) (active_section : Section) : Text :=
  let cat := current_cat.getD []
  if cat = [] then (if active_section = .unreleased then lit "Planned" else lit "Other") else cat

namespace ParserState

def openUnreleased (st : ParserState) : ParserState :=
  { st with releases := flushActiveRelease st.releases st.state, active_section := .unreleased, current_cat := none }

def openRelease (st : ParserState) (version : Text) (date : Option Text) : ParserState :=
  { st with
    releases := flushActiveRelease st.releases st.state
    active_section := .release
    state := .reset version date
    current_cat := none }

def openCategory (st : ParserState) (line_str cat : Text) : ParserState :=
  match st.active_section with
  | .preamble => { st with current_cat := some cat }
  | .unreleased => { st with current_cat := some cat, unreleased_cats := setdefault st.unreleased_cats cat }
  | .release =>
    { st with
      current_cat := some cat
      state := { st.state with categories := setdefault st.state.categories cat, raw_lines := st.state.raw_lines ++ [line_str] } }

def addItem (st : ParserState) (line_str item_text : Text) : ParserState :=
  let target_cat := targetCat st.current_cat st.active_section
  match st.active_section with
  | .preamble => st
  | .unreleased => { st with unreleased_cats := appendItem st.unreleased_cats target_cat item_text }
  | .release =>
    { st with
      state := { st.state with
        categories := appendItem st.state.categories target_cat item_text, raw_lines := st.state.raw_lines ++ [line_str] } }

def keepRaw (st : ParserState) (line_str : Text) : ParserState :=
  if st.active_section = .release ∧ strip line_str ≠ [] then
    { st with state := { st.state with raw_lines := st.state.raw_lines ++ [line_str] } }
  else st

end ParserState

/-- The body of the loop of `_parse_lines`. -/
def parseLine (st : ParserState) (line : Text) : ParserState :=
  let line_str := rstripNewlines line
  match reUnreleasedHeader.firstMatch line_str with
  | some _ => st.openUnreleased
  | none =>
    match reReleaseHeader.firstMatch line_str with
    | some (version, date) => st.openRelease version date
    | none =>
      match reCategoryHeader.firstMatch line_str with
      | some category => st.openCategory line_str (strip category)
      | none =>
        match reBulletItem.firstMatch line_str with
        | some item => st.addItem line_str (strip item)
        | none => st.keepRaw line_str

def parseLines (lines : List Text) : List ChangelogRelease × List ChangelogCategoryItem :=
  let st := lines.foldl parseLine {}
  (flushActiveRelease st.releases st.state, categoryItems st.unreleased_cats)

end Palworld.Changelog

import Palworld.Logs.Scraper

/-!
# The EOS session in the logs

`_extract_session_from_lines` and `_scan_historical_log_files`. The scan of a list of lines
ends at the first one that matches the pattern, whether or not it carries a session id.
-/

open Lib

namespace Palworld.Logs

section

variable [Unicode]

/-! ## The patterns -/

/-- `a.*b` from here, where case is ignored. The dot does not match a line feed. -/
def wordThen (a b : Text) (s : Text) : Bool :=
  match stripWord a s with
  | none => false
  | some after => hasWord [b] (after.takeWhile (· != '\n'))

def anyCase (s : String) : Text := (lit s).map foldCase

/-- `re.search(LOG_SEARCH_PATTERN, line, re.IGNORECASE)`. -/
def logSearchPattern (line : Text) : Bool :=
  line.tails.any fun s =>
    (stripWord (anyCase "Created public lobby session") s).isSome || wordThen (anyCase "EOS-SDK") (anyCase "sessions") s ||
    wordThen (anyCase "Lobby") (anyCase "Registered") s || (stripWord (anyCase "PublicSession") s).isSome ||
    (stripWord (anyCase "Steam server initialized") s).isSome ||
    (stripWord (anyCase "Server registration succeeded") s).isSome || (stripWord (anyCase "LogPalServer") s).isSome

/-- What is left behind a text that a text begins with. -/
def behind (pat s : Text) : Option Text := if pat.isPrefixOf s then some (s.drop pat.length) else none

/-- `[A-Za-z0-9_\-]`. -/
def isSessionIdChar (c : Char) : Bool := c.isAlphanum || c == '_' || c == '-'

/-- `re.search(r"SessionId:\s*([A-Za-z0-9_\-]+)", line)`, and its group. -/
def sessionIdIn (line : Text) : Option Text :=
  line.tails.findSome? fun s => do
    let after ← behind (lit "SessionId:") s
    let id := (after.dropWhile isSpace).takeWhile isSessionIdChar
    if id = [] then none else some id

/-- `\d{4}\.\d{2}\.\d{2}-\d{2}\.\d{2}\.\d{2}`, with `none` for a digit. -/
def timestampShape : List (Option Char) :=
  [none, none, none, none, some '.', none, none, some '.', none, none, some '-', none, none, some '.', none, none,
    some '.', none, none]

def hasShape : List (Option Char) → Text → Bool
  | [], _ => true
  | _ :: _, [] => false
  | none :: shape, c :: s => (Unicode.digit c).isSome && hasShape shape s
  | some d :: shape, c :: s => c == d && hasShape shape s

/-- `re.search(r"\[(...)", line)`, and its group. -/
def timestampIn (line : Text) : Option Text :=
  line.tails.findSome? fun s => do
    let after ← behind ['['] s
    if hasShape timestampShape after then some (after.take timestampShape.length) else none

/-- `text.replace(old, new, 1)`, of single characters. -/
def replaceFirst (old new : Char) : Text → Text
  | [] => []
  | c :: s => if c = old then new :: s else c :: replaceFirst old new s

/-! ## The scan -/

structure PalLogScraper where
  registered : Bool
  firstSeen : Option Text
  sessionId : Option Text
  deriving DecidableEq

def PalLogScraper.new : PalLogScraper := ⟨false, none, none⟩

/-- Python's `not text`, of a text that may be missing. -/
def isBlank : Option Text → Bool
  | none | some [] => true
  | some _ => false

/-- What a line that matches the pattern leads to. `now` is the time that `strftime` formats. -/
def PalLogScraper.register (now : Text) (s : PalLogScraper) (line : Text) : PalLogScraper where
  registered := true
  sessionId :=
    match sessionIdIn line with
    | some id => some id
    | none => s.sessionId
  firstSeen :=
    if isBlank s.firstSeen then
      match timestampIn line with
      | some stamp => some (replaceFirst '-' ' ' (stamp.map fun c => if c = '.' then '-' else c))
      | none => some now
    else s.firstSeen

def extractSessionFromLines (now : Text) (s : PalLogScraper) : List Text → PalLogScraper × Bool
  | [] => (s, false)
  | line :: lines => if logSearchPattern line then (s.register now line, true) else extractSessionFromLines now s lines

/-- A file of the scan: the time it is read at, and its lines unless `open` or `readlines` raises. -/
structure ScannedFile where
  now : Text
  lines : Option (List Text)

/-- The files in order, up to the first that matches and after which there is a session id. -/
def scanHistoricalLogFiles (s : PalLogScraper) : List ScannedFile → PalLogScraper
  | [] => s
  | file :: files =>
    match file.lines with
    | none => scanHistoricalLogFiles s files
    | some lines =>
      let (s', found) := extractSessionFromLines file.now s (lines.take 10000)
      if found && !isBlank s'.sessionId then s' else scanHistoricalLogFiles s' files

/-! ## What is found -/

/-- A line that matches the pattern and carries this session id. -/
def Carries (line id : Text) : Prop := logSearchPattern line = true ∧ sessionIdIn line = some id

/-- The stored session id is the one of such a line. -/
def HasSessionOf (lines : List Text) (s : PalLogScraper) : Prop := ∃ line ∈ lines, ∃ id, Carries line id ∧ s.sessionId = some id

theorem register_carried {now line id : Text} {s : PalLogScraper} (h : sessionIdIn line = some id) :
    (s.register now line).sessionId = some id := by
  simp only [PalLogScraper.register, h]

theorem register_kept {now line : Text} {s : PalLogScraper} (h : sessionIdIn line = none) :
    (s.register now line).sessionId = s.sessionId := by
  simp only [PalLogScraper.register, h]

theorem hasSession_register {now line id : Text} {s : PalLogScraper} {lines : List Text}
    (hline : lines.find? logSearchPattern = some line) (hid : sessionIdIn line = some id) :
    HasSessionOf lines (s.register now line) :=
  ⟨line, List.mem_of_find?_eq_some hline, id, ⟨List.find?_some hline, hid⟩, register_carried hid⟩

/-- The scan registers the first line that matches. -/
theorem extractSessionFromLines_eq (now : Text) (s : PalLogScraper) (lines : List Text) :
    extractSessionFromLines now s lines =
      match lines.find? logSearchPattern with
      | none => (s, false)
      | some line => (s.register now line, true) := by
  induction lines with
  | nil => rfl
  | cons line lines ih =>
    unfold extractSessionFromLines
    rw [ih, List.find?_cons]
    cases logSearchPattern line <;> rfl

theorem extractSession_sound (now : Text) (s : PalLogScraper) (lines : List Text) :
    (extractSessionFromLines now s lines).1.sessionId = s.sessionId ∨
      HasSessionOf lines (extractSessionFromLines now s lines).1 := by
  rw [extractSessionFromLines_eq]
  cases hline : lines.find? logSearchPattern with
  | none => exact Or.inl rfl
  | some line =>
    cases hcarries : sessionIdIn line with
    | none => exact Or.inl (register_kept hcarries)
    | some id => exact Or.inr (hasSession_register hline hcarries)

/-- A session id that the scan of the files stores is one that a line of them carries. -/
theorem scanHistorical_sound (s : PalLogScraper) (files : List ScannedFile) :
    (scanHistoricalLogFiles s files).sessionId = s.sessionId ∨
      ∃ file ∈ files, ∃ lines, file.lines = some lines ∧ HasSessionOf lines (scanHistoricalLogFiles s files) := by
  induction files generalizing s with
  | nil => exact Or.inl rfl
  | cons file files ih =>
    have hrest : ∀ s', (scanHistoricalLogFiles s' files).sessionId = s'.sessionId ∨
        ∃ f ∈ file :: files, ∃ lines, f.lines = some lines ∧ HasSessionOf lines (scanHistoricalLogFiles s' files) := by
      intro s'
      refine (ih s').imp_right ?_
      rintro ⟨f, hf, hlines⟩
      exact ⟨f, List.mem_cons_of_mem _ hf, hlines⟩
    unfold scanHistoricalLogFiles
    cases hlines : file.lines with
    | none => exact hrest s
    | some lines =>
      have hhere : (extractSessionFromLines file.now s (lines.take 10000)).1.sessionId = s.sessionId ∨
          HasSessionOf lines (extractSessionFromLines file.now s (lines.take 10000)).1 := by
        refine (extractSession_sound file.now s (lines.take 10000)).imp_right ?_
        rintro ⟨line, hline, hid⟩
        exact ⟨line, List.mem_of_mem_take hline, hid⟩
      dsimp only
      split
      · exact hhere.imp_right fun h => ⟨file, List.mem_cons_self, lines, hlines, h⟩
      -- The scan goes on, and a later file may store nothing of its own.
      · rcases hrest (extractSessionFromLines file.now s (lines.take 10000)).1 with hkept | hfound
        · rcases hhere with hsame | ⟨line, hline, id, hcarries, hid⟩
          · exact Or.inl (hkept.trans hsame)
          · exact Or.inr ⟨file, List.mem_cons_self, lines, hlines, line, hline, id, hcarries, hkept.trans hid⟩
        · exact Or.inr hfound

/-! ## What is missed -/

/-- **When the scan finds a session.** Where some line matches and carries a session id, the stored
one is that of such a line exactly when the first line that matches carries one, or it was so before. -/
theorem extractSession_finds_iff (now : Text) (s : PalLogScraper) (lines : List Text)
    (hsome : ∃ line ∈ lines, ∃ id, Carries line id) :
    HasSessionOf lines (extractSessionFromLines now s lines).1 ↔
      (∃ line id, lines.find? logSearchPattern = some line ∧ sessionIdIn line = some id) ∨ HasSessionOf lines s := by
  obtain ⟨carrier, hcarrier, id, hmatch, hid⟩ := hsome
  have hfound : ∃ line, lines.find? logSearchPattern = some line :=
    Option.isSome_iff_exists.mp (List.find?_isSome.mpr ⟨carrier, hcarrier, hmatch⟩)
  obtain ⟨line, hline⟩ := hfound
  rw [extractSessionFromLines_eq, hline]
  cases hcarries : sessionIdIn line with
  | some id =>
    constructor
    · exact fun _ => Or.inl ⟨line, id, rfl, hcarries⟩
    · exact fun _ => hasSession_register hline hcarries
  | none =>
    simp only [HasSessionOf, register_kept hcarries]
    constructor
    · exact Or.inr
    · rintro (⟨line', id, hline', hid⟩ | hbefore)
      · cases hline'
        rw [hcarries] at hid
        cases hid
      · exact hbefore

end

attribute [local instance] Unicode.ascii

def lobbyLines : List Text := ["boot", "LogPalServer: SessionId: abc", "LogPalServer: up", "Created public lobby session SessionId: def"].map lit

/-- Three lines match, and the first of them carries its id. A line without one stands before the last. -/
theorem extractSession_finds_sample : HasSessionOf lobbyLines (extractSessionFromLines [] .new lobbyLines).1 ∧
    ¬ HasSessionOf (lobbyLines.drop 2) (extractSessionFromLines [] .new (lobbyLines.drop 2)).1 := by
  have hcarries : Carries (lit "LogPalServer: SessionId: abc") (lit "abc") := ⟨by decide, by decide⟩
  have hlast : Carries (lit "Created public lobby session SessionId: def") (lit "def") := ⟨by decide, by decide⟩
  have hfirst : lobbyLines.find? logSearchPattern = some (lit "LogPalServer: SessionId: abc") := by decide
  have hbare : (lobbyLines.drop 2).find? logSearchPattern = some (lit "LogPalServer: up") ∧ sessionIdIn (lit "LogPalServer: up") = none := by
    decide
  refine ⟨(extractSession_finds_iff [] .new lobbyLines ⟨_, by decide, _, hcarries⟩).mpr (.inl ⟨_, _, hfirst, hcarries.2⟩), fun hfound => ?_⟩
  have hiff := extractSession_finds_iff [] .new (lobbyLines.drop 2) ⟨_, by decide, _, hlast⟩
  rcases hiff.mp hfound with ⟨line, id, hline, hid⟩ | ⟨_, _, _, _, hnew⟩
  · obtain rfl := Option.some.inj (hbare.1.symm.trans hline)
    cases hbare.2.symm.trans hid
  · cases hnew

/-- A line of the server that matches before the one with the session hides it. -/
theorem session_hidden : ¬ ∀ now s lines, (∃ line ∈ lines, ∃ id, Carries line id) →
    HasSessionOf lines (extractSessionFromLines now s lines).1 := by
  intro h
  have hcarries : Carries (lit "Created public lobby session SessionId: abc") (lit "abc") := ⟨by decide, by decide⟩
  obtain ⟨_, _, _, _, hid⟩ := h [] .new [lit "LogPalServer: up", lit "Created public lobby session SessionId: abc"]
    ⟨_, List.mem_cons_of_mem _ (List.mem_singleton_self _), _, hcarries⟩
  have hnone : (extractSessionFromLines [] .new
      [lit "LogPalServer: up", lit "Created public lobby session SessionId: abc"]).1.sessionId = none := by decide
  rw [hnone] at hid
  cases hid

end Palworld.Logs

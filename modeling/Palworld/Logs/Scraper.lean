import Palworld.Lib.Lines
import Palworld.Logs.Redaction
import Mathlib.Data.List.Forall2

/-!
# The log lines of the console

`read_server_logs` takes the last lines of the log, filters them by level and query, and
sanitizes what is left. The filters see the lines before they are sanitized.
-/

open Lib

namespace Palworld.Logs

/-- `str.lower`, and `re.search` where case is ignored. A query that is no pattern raises `re.error`. -/
structure TextLibrary where
  lower : Text → Text
  search : Text → Option (Text → Bool)

/-- What is read in text mode. Each `\r` has become a `\n`. -/
abbrev ReadText := { text : Text // '\r' ∉ text }

/-- A candidate for the log file. -/
inductive LogFile
  | missing
  | forbidden                     -- `exists` raises `PermissionError`
  | unreadable                    -- `OSError` from `open` or `readlines`
  | content (text : ReadText)

/-- The host of the logs. The journal gives the output for `-n`, or nothing where `journalctl` fails. -/
structure LogHost where
  files : Text → LogFile
  posix : Bool
  journal : Nat → Option ReadText

def candidateLogFiles : List Text :=
  ["/home/steam/.steam/steam/steamapps/common/PalServer/Pal/Saved/Logs/Pal.log",
    "/home/steam/Steam/steamapps/common/PalServer/Pal/Saved/Logs/Pal.log",
    "/home/steam/PalServer/Pal/Saved/Logs/Pal.log"].map lit

/-! ## Lines -/

/-- `readlines`. Each line feed ends a line. -/
def readlines (text : ReadText) : List Text := linesWithEnds (· == '\n') text.1

/-- `\n`, `\x0b`, `\x0c`, `\x1c` to `\x1e`, `\x85`, `\u2028` and `\u2029`. -/
def isLineBreak (c : Char) : Bool :=
  let n := c.toNat
  (10 ≤ n && n ≤ 13) || (28 ≤ n && n ≤ 30) || n == 0x85 || n == 0x2028 || n == 0x2029

/-- `splitlines`. -/
def splitlines (text : ReadText) : List Text :=
  (linesWithEnds isLineBreak text.1).map fun line => line.takeWhile fun c => !isLineBreak c

def isLineEnd (c : Char) : Bool := c == '\r' || c == '\n'

/-- `line.strip("\r\n")`. -/
def stripEnds (line : Text) : Text := ((line.dropWhile isLineEnd).reverse.dropWhile isLineEnd).reverse

/-- `items[-n:]`. -/
def lastItems {α : Type} (n : Nat) (items : List α) : List α := items.drop (items.length - n)

/-! ## The filters -/

/-- One of the words is in the line, where case is ignored. -/
def hasWord (words : List Text) (line : Text) : Bool := line.tails.any fun s => words.any fun w => (stripWord w s).isSome

def isSubstring (part line : Text) : Bool := line.tails.any fun s => part.isPrefixOf s

theorem isSubstring_iff {part line : Text} : isSubstring part line = true ↔ part <:+: line := by
  rw [isSubstring, List.any_eq_true, List.infix_iff_prefix_suffix]
  constructor
  · rintro ⟨s, hs, hpart⟩
    exact ⟨s, List.isPrefixOf_iff_prefix.mp hpart, (List.mem_tails s line).mp hs⟩
  · rintro ⟨s, hpart, hs⟩
    exact ⟨s, (List.mem_tails s line).mpr hs, List.isPrefixOf_iff_prefix.mpr hpart⟩

def eosWords : List Text := ["eos", "session", "lobby", "steam"].map lit

def warnErrorWords : List Text := ["warning", "error", "fatal", "crash", "fail"].map lit

variable (lib : TextLibrary)

/-- The line passes the filter of the level. -/
def passesLevel (level line : Text) : Bool :=
  if lib.lower level = lit "engine" then isSubstring (lit "logpalserver") (lib.lower line)
  else if lib.lower level = lit "eos" then hasWord eosWords line
  else if lib.lower level = lit "warn_error" then hasWord warnErrorWords line
  else true

/-- The line passes the query. A query that is no pattern is looked for as it stands. -/
def passesQuery (query : Option Text) (line : Text) : Bool :=
  match query with
  | none => true
  | some [] => true
  | some (c :: q) =>
    match lib.search (c :: q) with
    | some found => found line
    | none => isSubstring (lib.lower (c :: q)) (lib.lower line)

def keepsLine (query : Option Text) (level line : Text) : Bool := passesLevel lib level line && passesQuery lib query line

def filterLogLines (rawLines : List Text) (query : Option Text) (level : Text) : List Text :=
  rawLines.filterMap fun line =>
    let clean := stripEnds line
    if clean = [] then none
    else if keepsLine lib query level clean then some (sanitizeLogText clean) else none

/-! ## The response -/

structure LogResponse where
  status : Text
  source : Text
  totalLinesScanned : Nat
  returnedLines : Nat
  lines : List Text
  deriving DecidableEq

/-- The first candidate that can be read. The outer `none` is an error that leaves `read_server_logs`. -/
def readLogFile (tail : Nat) : List (Text × LogFile) → Option (Text × List Text)
  | [] => some (lit "journalctl", [])
  | (path, file) :: rest =>
    match file with
    | .missing => readLogFile tail rest
    | .forbidden => none
    | .unreadable => readLogFile tail rest
    | .content text => some (path, lastItems (tail * 3) (readlines text))

def LogHost.readJournalTail (host : LogHost) (tail : Nat) : List Text := ((host.journal (tail * 3)).map splitlines).getD []

/-- The path of the log file and its last lines. On a POSIX host the journal stands in for a log without lines. -/
def LogHost.rawLines (host : LogHost) (tail : Nat) : Option (Text × List Text) :=
  (readLogFile tail (candidateLogFiles.map fun path => (path, host.files path))).map fun found =>
    (found.1, if found.2 = [] ∧ host.posix = true then host.readJournalTail tail else found.2)

/-- `max(10, min(tail, 2000))`. -/
def clampTail (tail : Int) : Nat := (max 10 (min tail 2000)).toNat

def logResponse (tail : Nat) (source : Text) (rawLines filtered : List Text) : LogResponse where
  status := lit "success"
  source := source
  totalLinesScanned := rawLines.length
  returnedLines := (lastItems tail filtered).length
  lines := lastItems tail filtered

def readServerLogs (host : LogHost) (tail : Int) (query : Option Text) (level : Text) : Option LogResponse :=
  (host.rawLines (clampTail tail)).map fun found =>
    logResponse (clampTail tail) found.1 found.2 (filterLogLines lib found.2 query level)

/-! ## Logs that are alike -/

/-- The lines show the same once they are sanitized. -/
def SameShown (line line' : Text) : Prop := sanitizeLogText (stripEnds line) = sanitizeLogText (stripEnds line')

def LinesAlike : List Text → List Text → Prop := List.Forall₂ SameShown

inductive FileAlike : LogFile → LogFile → Prop
  | missing : FileAlike .missing .missing
  | forbidden : FileAlike .forbidden .forbidden
  | unreadable : FileAlike .unreadable .unreadable
  | content {text text' : ReadText} (h : LinesAlike (readlines text) (readlines text')) : FileAlike (.content text) (.content text')

/-- The logs of two hosts have pairwise the same lines once they are sanitized. -/
structure HostsAlike (host host' : LogHost) : Prop where
  files : ∀ path, FileAlike (host.files path) (host'.files path)
  posix : host.posix = host'.posix
  journal : ∀ n, Option.Rel (fun out out' => LinesAlike (splitlines out) (splitlines out')) (host.journal n) (host'.journal n)

/-- No two lines that show the same are told apart by the filters. -/
def FiltersBlind (query : Option Text) (level : Text) : Prop :=
  ∀ line line', (∀ c ∈ line, isLineEnd c = false) → (∀ c ∈ line', isLineEnd c = false) →
    sanitizeLogText line = sanitizeLogText line' → keepsLine lib query level line = keepsLine lib query level line'

/-! ## What the filters see -/

/-- Within the ends of a line there is no end of a line. -/
def Whole (line : Text) : Prop := ∀ c ∈ stripEnds line, isLineEnd c = false

section

variable {isEnd : Char → Bool} {text line body stop : Text} {c : Char}

theorem dropWhile_none {p : Char → Bool} (h : ∀ c ∈ body, p c = false) : body.dropWhile p = body := by
  cases body with
  | nil => rfl
  | cons c body => exact List.dropWhile_cons_of_neg (by simp [h c (List.mem_cons_self ..)])

theorem stripEnds_append (hbody : ∀ c ∈ body, isLineEnd c = false) (hstop : ∀ c ∈ stop, isLineEnd c = true) :
    stripEnds (body ++ stop) = body := by
  have hback : ((body ++ stop).reverse.dropWhile isLineEnd).reverse = body := by
    rw [List.reverse_append, List.dropWhile_append_of_pos (by simpa using hstop), dropWhile_none (by simpa using hbody), List.reverse_reverse]
  unfold stripEnds
  cases body with
  | nil =>
    have hnone : ([] ++ stop).dropWhile isLineEnd = [] := List.dropWhile_eq_nil_iff.mpr hstop
    rw [hnone]
    rfl
  | cons c body => rwa [List.cons_append, List.dropWhile_cons_of_neg (by simp [hbody c (List.mem_cons_self ..)])]

theorem stripEnds_self (hline : ∀ c ∈ line, isLineEnd c = false) : stripEnds line = line := by
  have h : stripEnds (line ++ []) = line := stripEnds_append hline nofun
  rwa [List.append_nil] at h

theorem whole_of_mem_readlines {text : ReadText} (h : line ∈ readlines text) : Whole line := by
  obtain ⟨body, stop, rfl, hbody, hstop⟩ := linesWithEnds_spec h
  have hbody : ∀ c ∈ body, isLineEnd c = false := by
    intro c hc
    have hr : (c == '\r') = false := beq_eq_false_iff_ne.mpr fun hcr => text.2 (hcr ▸ (hbody c hc).2)
    rw [isLineEnd, hr, (hbody c hc).1]
    rfl
  have hstop : ∀ c ∈ stop, isLineEnd c = true := by
    rcases hstop with rfl | ⟨c, rfl, hc⟩
    · nofun
    · rw [List.forall_mem_singleton, isLineEnd, hc, Bool.or_true]
  unfold Whole
  rwa [stripEnds_append hbody hstop]

theorem whole_of_mem_splitlines {text : ReadText} (h : line ∈ splitlines text) : Whole line := by
  obtain ⟨line, -, rfl⟩ := List.mem_map.mp h
  have hline : ∀ c ∈ line.takeWhile fun c => !isLineBreak c, isLineEnd c = false := by
    intro c hc
    have hbreak : isLineBreak c = false := by simpa using List.mem_takeWhile_imp hc
    cases hend : isLineEnd c with
    | false => rfl
    | true =>
      simp only [isLineEnd, Bool.or_eq_true, beq_iff_eq] at hend
      rcases hend with rfl | rfl
      · exact absurd hbreak (by decide)
      · exact absurd hbreak (by decide)
  unfold Whole
  rwa [stripEnds_self hline]

end

section

variable {lib : TextLibrary} {query : Option Text} {level line line' : Text} {lines lines' : List Text} {host host' : LogHost}

/-- Filters that are blind keep the same of two logs that show the same. -/
theorem FiltersBlind.filterLogLines_eq (hblind : FiltersBlind lib query level) (halike : LinesAlike lines lines')
    (hwhole : ∀ line ∈ lines, Whole line) (hwhole' : ∀ line ∈ lines', Whole line) :
    filterLogLines lib lines query level = filterLogLines lib lines' query level := by
  induction halike with
  | nil => rfl
  | @cons line line' lines lines' hshown halike ih =>
    rw [List.forall_mem_cons] at hwhole hwhole'
    have hrest := ih hwhole.2 hwhole'.2
    unfold filterLogLines at hrest ⊢
    rw [List.filterMap_cons, List.filterMap_cons, hrest]
    have hshown : sanitizeLogText (stripEnds line) = sanitizeLogText (stripEnds line') := hshown
    have hempty : stripEnds line = [] ↔ stripEnds line' = [] := by
      constructor
      · intro h
        rw [h] at hshown
        exact sanitizeLogText_eq_nil hshown.symm
      · intro h
        rw [h] at hshown
        exact sanitizeLogText_eq_nil hshown
    have hkeeps := hblind _ _ hwhole.1 hwhole'.1 hshown
    by_cases hnil : stripEnds line = []
    · simp only [hnil, hempty.mp hnil, if_true]
    · simp only [hnil, mt hempty.mpr hnil, if_false, hkeeps, hshown]

theorem LinesAlike.last (h : LinesAlike lines lines') (n : Nat) : LinesAlike (lastItems n lines) (lastItems n lines') := by
  unfold lastItems
  rw [h.length_eq]
  exact List.forall₂_drop _ h

theorem whole_of_mem_lastItems {n : Nat} (h : ∀ line ∈ lines, Whole line) : ∀ line ∈ lastItems n lines, Whole line :=
  fun line hline => h line (List.mem_of_mem_drop hline)

theorem readLogFile_whole {tail : Nat} {files : List (Text × LogFile)} {source : Text}
    (h : readLogFile tail files = some (source, lines)) : ∀ line ∈ lines, Whole line := by
  induction files with
  | nil =>
    cases h
    nofun
  | cons file files ih =>
    obtain ⟨path, file⟩ := file
    cases file with
    | missing => exact ih h
    | forbidden => cases h
    | unreadable => exact ih h
    | content text =>
      cases h
      exact whole_of_mem_lastItems fun line hline => whole_of_mem_readlines hline

/-- Of two hosts that are alike the same candidate is read. -/
theorem readLogFile_alike (h : HostsAlike host host') (tail : Nat) (paths : List Text) :
    Option.Rel (fun found found' => found.1 = found'.1 ∧ LinesAlike found.2 found'.2)
      (readLogFile tail (paths.map fun path => (path, host.files path)))
      (readLogFile tail (paths.map fun path => (path, host'.files path))) := by
  induction paths with
  | nil => exact .some ⟨rfl, .nil⟩
  | cons path paths ih =>
    rw [List.map_cons, List.map_cons]
    have hfile := h.files path
    generalize host.files path = file at hfile
    generalize host'.files path = file' at hfile
    cases hfile with
    | missing => exact ih
    | forbidden => exact .none
    | unreadable => exact ih
    | content hlines => exact .some ⟨rfl, LinesAlike.last hlines _⟩

theorem readJournalTail_alike (h : HostsAlike host host') (tail : Nat) :
    LinesAlike (host.readJournalTail tail) (host'.readJournalTail tail) := by
  have hjournal := h.journal (tail * 3)
  unfold LogHost.readJournalTail
  generalize host.journal (tail * 3) = out at hjournal
  generalize host'.journal (tail * 3) = out' at hjournal
  cases hjournal with
  | none => exact .nil
  | some hlines => exact hlines

theorem readJournalTail_whole (tail : Nat) : ∀ line ∈ host.readJournalTail tail, Whole line := by
  unfold LogHost.readJournalTail
  cases host.journal (tail * 3) with
  | none => nofun
  | some out => exact fun line hline => whole_of_mem_splitlines hline

theorem rawLines_alike (h : HostsAlike host host') (tail : Nat) :
    Option.Rel (fun found found' => found.1 = found'.1 ∧ LinesAlike found.2 found'.2) (host.rawLines tail) (host'.rawLines tail) := by
  have hfound := readLogFile_alike h tail candidateLogFiles
  unfold LogHost.rawLines
  generalize readLogFile tail (candidateLogFiles.map fun path => (path, host.files path)) = found at hfound ⊢
  generalize readLogFile tail (candidateLogFiles.map fun path => (path, host'.files path)) = found' at hfound ⊢
  cases hfound with
  | none => exact .none
  | @some found found' hfound =>
    obtain ⟨hsource, hlines⟩ := hfound
    refine .some ⟨hsource, ?_⟩
    have hempty : found.2 = [] ↔ found'.2 = [] := by
      rw [← List.length_eq_zero_iff, ← List.length_eq_zero_iff, hlines.length_eq]
    simp only [hempty, h.posix]
    split
    · exact readJournalTail_alike h tail
    · exact hlines

theorem rawLines_whole {tail : Nat} {source : Text} (h : host.rawLines tail = some (source, lines)) : ∀ line ∈ lines, Whole line := by
  obtain ⟨found, hfound, h⟩ := Option.map_eq_some_iff.mp h
  cases h
  split
  · exact readJournalTail_whole tail
  · exact readLogFile_whole hfound

/-- Blind filters give the same response on two hosts that are alike. -/
theorem FiltersBlind.readServerLogs_eq (hblind : FiltersBlind lib query level) (halike : HostsAlike host host') (tail : Int) :
    readServerLogs lib host tail query level = readServerLogs lib host' tail query level := by
  have hlines := rawLines_alike halike (clampTail tail)
  unfold readServerLogs
  cases hraw : host.rawLines (clampTail tail) with
  | none =>
    rw [hraw] at hlines
    generalize host'.rawLines (clampTail tail) = raw' at hlines ⊢
    cases hlines
    rfl
  | some found =>
    cases hraw' : host'.rawLines (clampTail tail) with
    | none =>
      rw [hraw, hraw'] at hlines
      cases hlines
    | some found' =>
      rw [hraw, hraw'] at hlines
      obtain ⟨source, lines⟩ := found
      obtain ⟨source', lines'⟩ := found'
      cases hlines with
      | some hfound =>
        obtain ⟨hsource, hlines⟩ := hfound
        have hfiltered := hblind.filterLogLines_eq hlines (rawLines_whole hraw) (rawLines_whole hraw')
        have hlength : lines.length = lines'.length := hlines.length_eq
        obtain rfl : source = source' := hsource
        simp only [Option.map_some, logResponse, hfiltered, hlength]

end

/-! ## A log of one line -/

/-- A host whose log file has one line. -/
def oneLine (line : ReadText) : LogHost where
  files _ := .content line
  posix := false
  journal _ := none

section

variable {lib : TextLibrary} {query : Option Text} {level : Text} {line line' : ReadText}

theorem readlines_single (hline : ∀ c ∈ line.1, isLineEnd c = false) (hne : line.1 ≠ []) : readlines line = [line.1] := by
  refine linesWithEnds_single (fun c hc => ?_) hne
  have hend := hline c hc
  unfold isLineEnd at hend
  exact (Bool.or_eq_false_iff.mp hend).2

theorem readServerLogs_oneLine (lib : TextLibrary) (query : Option Text) (level : Text) (line : ReadText) (hline : ∀ c ∈ line.1, isLineEnd c = false) (hne : line.1 ≠ []) :
    (readServerLogs lib (oneLine line) 10 query level).map (·.lines) =
      some (if keepsLine lib query level line.1 then [sanitizeLogText line.1] else []) := by
  have hraw : (oneLine line).rawLines (clampTail 10) =
      some (lit "/home/steam/.steam/steam/steamapps/common/PalServer/Pal/Saved/Logs/Pal.log", [line.1]) := by
    simp only [LogHost.rawLines, candidateLogFiles, List.map_cons, readLogFile, oneLine, readlines_single hline hne, Option.map_some]
    rfl
  have hfiltered : filterLogLines lib [line.1] query level =
      if keepsLine lib query level line.1 then [sanitizeLogText line.1] else [] := by
    unfold filterLogLines
    rw [List.filterMap_cons, List.filterMap_nil, stripEnds_self hline]
    simp only [hne, if_false]
    cases keepsLine lib query level line.1 with
    | true => rfl
    | false => rfl
  unfold readServerLogs
  rw [hraw, Option.map_some, Option.map_some, hfiltered]
  split <;> rfl

theorem oneLine_alike (hline : ∀ c ∈ line.1, isLineEnd c = false) (hline' : ∀ c ∈ line'.1, isLineEnd c = false) (hne : line.1 ≠ [])
    (hne' : line'.1 ≠ []) (hshown : sanitizeLogText line.1 = sanitizeLogText line'.1) : HostsAlike (oneLine line) (oneLine line') where
  files _ := by
    refine .content ?_
    rw [readlines_single hline hne, readlines_single hline' hne']
    refine .cons ?_ .nil
    rwa [SameShown, stripEnds_self hline, stripEnds_self hline']
  posix := rfl
  journal _ := .none

/-- Filters that give the same responses on logs of one line are blind. -/
theorem filtersBlind_of_readServerLogs_eq
    (h : ∀ host host', HostsAlike host host' → readServerLogs lib host 10 query level = readServerLogs lib host' 10 query level) :
    FiltersBlind lib query level := by
  intro line line' hline hline' hshown
  by_cases hnil : line = []
  · subst hnil
    rw [sanitizeLogText_eq_nil hshown.symm]
  · have hnil' : line' ≠ [] := by
      rintro rfl
      exact hnil (sanitizeLogText_eq_nil hshown)
    have hread : ∀ {line : Text}, (∀ c ∈ line, isLineEnd c = false) → '\r' ∉ line := fun hline hr => absurd (hline _ hr) (by decide)
    have hlines := readServerLogs_oneLine lib query level ⟨line, hread hline⟩ hline hnil
    have hlines' := readServerLogs_oneLine lib query level ⟨line', hread hline'⟩ hline' hnil'
    have halike : HostsAlike (oneLine ⟨line, hread hline⟩) (oneLine ⟨line', hread hline'⟩) :=
      oneLine_alike hline hline' hnil hnil' hshown
    rw [h _ _ halike, hlines'] at hlines
    cases hkeep : keepsLine lib query level line with
    | true =>
      cases hkeep' : keepsLine lib query level line' with
      | true => rfl
      | false => simp [hkeep, hkeep'] at hlines
    | false =>
      cases hkeep' : keepsLine lib query level line' with
      | true => simp [hkeep, hkeep'] at hlines
      | false => rfl

/-- No two logs that show the same are told apart, whatever the length of the tail, exactly if no two lines that show the same are
told apart by the level and the query. -/
theorem logs_told_apart_iff (lib : TextLibrary) (query : Option Text) (level : Text) :
    (∀ tail host host', HostsAlike host host' →
      readServerLogs lib host tail query level = readServerLogs lib host' tail query level) ↔ FiltersBlind lib query level := by
  constructor
  · intro h
    exact filtersBlind_of_readServerLogs_eq (h 10)
  · intro hblind tail host host' halike
    exact hblind.readServerLogs_eq halike tail

/-- Without a filter nothing is told apart. -/
theorem filtersBlind_all (h : passesLevel lib level = fun _ => true) (hquery : query = none ∨ query = some []) :
    FiltersBlind lib query level := by
  intro line line' _ _ _
  unfold keepsLine
  rw [h]
  rcases hquery with rfl | rfl
  · rfl
  · rfl

end

/-! ## A password that the engine filter finds -/

/-- Queries are looked for as they stand. -/
def plainLibrary : TextLibrary where
  lower t := t.map Char.toLower
  search _ := none

def engineLine : ReadText := ⟨lit "password=logpalserver", by decide⟩

def otherLine : ReadText := ⟨lit "password=hunter2", by decide⟩

theorem engineLine_whole : ∀ c ∈ engineLine.1, isLineEnd c = false := by
  have hall : (engineLine.1.all fun c => !isLineEnd c) = true := by decide
  simpa only [List.all_eq_true, Bool.not_eq_true'] using hall

theorem otherLine_whole : ∀ c ∈ otherLine.1, isLineEnd c = false := by
  have hall : (otherLine.1.all fun c => !isLineEnd c) = true := by decide
  simpa only [List.all_eq_true, Bool.not_eq_true'] using hall

theorem engine_level_tells : HostsAlike (oneLine engineLine) (oneLine otherLine) ∧
    readServerLogs plainLibrary (oneLine engineLine) 10 none (lit "ENGINE") ≠
      readServerLogs plainLibrary (oneLine otherLine) 10 none (lit "ENGINE") := by
  refine ⟨oneLine_alike engineLine_whole otherLine_whole (by decide) (by decide) (by decide +kernel), fun h => ?_⟩
  have hlines := readServerLogs_oneLine plainLibrary none (lit "ENGINE") engineLine engineLine_whole (by decide)
  have hlines' := readServerLogs_oneLine plainLibrary none (lit "ENGINE") otherLine otherLine_whole (by decide)
  rw [h, hlines'] at hlines
  revert hlines
  decide +kernel

end Palworld.Logs

import Palworld.Lib.Keeper
import Palworld.Lib.JsonRoundTrip
import Palworld.Lib.PyRepr
import Palworld.Logs.Session
import Mathlib.Data.Rat.Defs

/-!
# The session that the scraper remembers

A probe tails the log and looks for a session until it has one, which it saves. A scraper that comes up has the one that was saved.
-/

open Lib

namespace Palworld.Logs

structure LogScraper extends PalLogScraper where
  lastMatchedLine : Text
  deriving DecidableEq

def LogScraper.new : LogScraper := ⟨.new, lit "Awaiting initial engine log lines..."⟩

def LogScraper.Ready (s : LogScraper) : Prop := s.registered = true ∧ isBlank s.sessionId = false

instance (s : LogScraper) : Decidable s.Ready := inferInstanceAs (Decidable (_ ∧ _))

/-! ## The files of a probe -/

structure FoundLog where
  mtime : ℚ  -- 0 where the file does not exist
  file : ScannedFile

/-- What `is_dir` or `exists` comes to. Where a directory on the way may not be searched, it raises. -/
inductive Looked (α : Type)
  | missing
  | raises
  | found (value : α)

/-- A directory with logs: `Pal.log` if it exists, and what `glob` finds unless it raises. -/
structure LogDirectory where
  mainLog : Looked ScannedFile
  found : Option (List FoundLog)

def candidateLogDirs : List Text :=
  ["/home/steam/.steam/steam/steamapps/common/PalServer/Pal/Saved/Logs",
    "/home/steam/Steam/steamapps/common/PalServer/Pal/Saved/Logs",
    "/home/steam/PalServer/Pal/Saved/Logs"].map lit

/-- `sorted(..., reverse=True)`, which keeps the order of files that are equally old. -/
def newestFirst (found : List FoundLog) : List ScannedFile := (found.mergeSort fun a b => b.mtime ≤ a.mtime).map FoundLog.file

/-- `none` where a look raises, which nothing catches here. -/
def findLogFilesIn : List (Looked LogDirectory) → Option ScannedFile → Option (Option ScannedFile × List ScannedFile)
  | [], active => some (active, [])
  | .missing :: dirs, active => findLogFilesIn dirs active
  | .raises :: _, _ => none
  | .found dir :: dirs, active => do
    let active ← match dir.mainLog with
      | .missing => some active
      | .raises => none
      | .found file => some (some file)
    match newestFirst (dir.found.getD []) with
    | [] => findLogFilesIn dirs active
    | files => some (active, files)

inductive Journal
  | fails
  | undecodable               -- its output is no text, and `UnicodeDecodeError` gets through
  | output (stdout : ReadText)

/-- What a probe meets. -/
structure LogScan where
  dirs : Text → Looked LogDirectory
  activeRaises : Bool         -- the second look at the active log, before it is read
  posix : Bool
  journal : Journal
  now : Text

def LogScan.findLogFiles (scan : LogScan) : Option (Option ScannedFile × List ScannedFile) :=
  findLogFilesIn (candidateLogDirs.map scan.dirs) none

/-! ## A probe -/

structure LogScraperInfo where
  registered : Bool
  sessionId : Option Text
  firstSeen : Option Text
  lastLine : Text
  statusLabel : Text
  statusColor : Text
  crossplayPlatforms : Text
  deriving DecidableEq

section

variable [Unicode]

/-- The last of the last fifty lines that says something. -/
def recentLine (lines : List Text) : Option Text :=
  (lastItems 50 lines).reverse.findSome? fun line =>
    let clean := strip line
    if clean ≠ [] ∧ clean.head? ≠ some '=' ∧ clean.length > 5 then some (clean.take 120) else none

def LogScraper.tail (s : LogScraper) (lines : List Text) : LogScraper :=
  { s with lastMatchedLine := (recentLine lines).getD s.lastMatchedLine }

def LogScraper.tailActiveLog (scan : LogScan) (s : LogScraper) (active : Option ScannedFile) : Option LogScraper :=
  match active with
  | none => some s
  | some file =>
    if scan.activeRaises then none
    else
      match file.lines with
      | none => some s
      | some lines => some (s.tail lines)

def LogScraper.scanJournalctl (s : LogScraper) (scan : LogScan) : Option LogScraper :=
  if s.registered = true ∨ scan.posix = false then some s
  else
    match scan.journal with
    | .fails => some s
    | .undecodable => none
    | .output stdout =>
      some { s.tail (splitlines stdout) with toPalLogScraper := (extractSessionFromLines scan.now s.toPalLogScraper (splitlines stdout)).1 }

def LogScraper.scanFiles (s : LogScraper) (files : List ScannedFile) : LogScraper :=
  { s with toPalLogScraper := scanHistoricalLogFiles s.toPalLogScraper files }

def LogScraper.info (s : LogScraper) : LogScraperInfo where
  registered := s.registered
  sessionId := if isBlank s.sessionId then (if s.registered then some (lit "EOS-Session-Active") else none) else s.sessionId
  firstSeen := s.firstSeen
  lastLine := s.lastMatchedLine
  statusLabel := if s.registered then lit "CONSOLE SEARCH READY" else lit "AWAITING EOS HANDSHAKE"
  statusColor := if s.registered then lit "emerald" else lit "amber"
  crossplayPlatforms := lit "(Steam, Xbox, PS5, Mac)"

/-- The scraper after a probe, what the probe says unless it raises, and whether the session is saved. `_save_session_cache` leaves
one without an id alone. -/
def probeLocalLogs (scan : LogScan) (s : LogScraper) : LogScraper × Option LogScraperInfo × Bool :=
  match scan.findLogFiles with
  | none => (s, none, false)
  | some (active, files) =>
    match s.tailActiveLog scan active with
    | none => (s, none, false)
    | some tailed =>
      if tailed.Ready then (tailed, some tailed.info, false)
      else
        match (tailed.scanFiles files).scanJournalctl scan with
        | none => (tailed.scanFiles files, none, false)
        | some scanned => (scanned, some scanned.info, decide scanned.Ready)

end

/-! ## The cache -/

def optionJson (t : Option Text) : JsonValue :=
  match t with
  | none => .null
  | some t => .str (PyStr.ofText t)

def cacheJson (updated_at id : Text) (s : LogScraper) : JsonValue :=
  .object [(PyStr.ofText (lit "session_id"), .str (PyStr.ofText id)), (PyStr.ofText (lit "first_seen"), optionJson s.firstSeen),
    (PyStr.ofText (lit "last_line"), .str (PyStr.ofText s.lastMatchedLine)), (PyStr.ofText (lit "updated_at"), .str (PyStr.ofText updated_at))]

/-- The text that `_save_session_cache` writes. The interpreter lets `depth + 1` levels nest. -/
def saveSessionCache (depth : Nat) (updated_at : Text) (s : LogScraper) : Option Text :=
  match s.sessionId with
  | none | some [] => none
  | some id => dumps (depth + 1) (cacheJson updated_at id s)

def textOf : JsonValue → Option Text
  | .str s => s.toText?
  | _ => none

def optionalTextOf : JsonValue → Option (Option Text)
  | .null => some none
  | value => (textOf value).map some

/-- `_load_session_cache`, of a file that can be read. `none` where the scraper does not come up, or takes what is no text. -/
def loadSessionCache (depth : Nat) (raw_text : Text) : Option LogScraper :=
  match loads (depth + 1) raw_text with
  | .error .malformed => some .new
  | .error _ => none
  | .ok (.object fields) =>
    let session_id := (lookup (PyStr.ofText (lit "session_id")) fields).getD .null
    if session_id.truth then do
      let id ← textOf session_id
      let firstSeen ← optionalTextOf ((lookup (PyStr.ofText (lit "first_seen")) fields).getD .null)
      let lastLine ← match lookup (PyStr.ofText (lit "last_line")) fields with
        | none => some LogScraper.new.lastMatchedLine
        | some value => textOf value
      return ⟨⟨true, firstSeen, some id⟩, lastLine⟩
    else some .new
  | .ok _ => none

/-- The scraper, as it keeps its session. -/
def sessionKeeper [Unicode] (depth : Nat) : Keeper LogScraper Text Text LogScan where
  start := .new
  change s scan := some ((probeLocalLogs scan s).1, (probeLocalLogs scan s).2.2)
  encode := saveSessionCache depth
  load := loadSessionCache depth

/-! ## What is saved is read -/

section

variable {depth : Nat} {updated_at raw_text id : Text} {s : LogScraper}

/-- A session id that is there is one of a server that is registered. -/
def Tidy (s : LogScraper) : Prop := isBlank s.sessionId = false → s.registered = true

theorem saveSessionCache_ready (h : saveSessionCache depth updated_at s = some raw_text) :
    ∃ id, s.sessionId = some id ∧ id ≠ [] ∧ raw_text = (cacheJson updated_at id s).dump 0 := by
  unfold saveSessionCache at h
  split at h
  · cases h
  · cases h
  · rename_i id hempty hid
    exact ⟨id, hid, fun h => hempty (h ▸ rfl), (dumps_eq_some.mp h).2⟩

theorem readAt_cacheJson (depth : Nat) (updated_at id : Text) (s : LogScraper) : ReadAt (depth + 1) (cacheJson updated_at id s) := by
  have hflat : ∀ t : Text, ReadAt depth (.str (PyStr.ofText t)) := fun t => ⟨joined_ofText t, Nat.zero_le _⟩
  have hoption : ∀ t : Option Text, ReadAt depth (optionJson t) := by
    intro t
    cases t with
    | none => exact ⟨trivial, Nat.zero_le _⟩
    | some t => exact hflat t
  apply readAt_object
  · show [PyStr.ofText (lit "session_id"), PyStr.ofText (lit "first_seen"), PyStr.ofText (lit "last_line"), PyStr.ofText (lit "updated_at")].Nodup
    decide +kernel
  · simp only [List.mem_cons, List.not_mem_nil, or_false]
    rintro field (rfl | rfl | rfl | rfl)
    · exact ⟨joined_ofText _, hflat _⟩
    · exact ⟨joined_ofText _, hoption _⟩
    · exact ⟨joined_ofText _, hflat _⟩
    · exact ⟨joined_ofText _, hflat _⟩

theorem optionalTextOf_optionJson (t : Option Text) : optionalTextOf (optionJson t) = some t := by
  cases t with
  | none => rfl
  | some t =>
    show ((PyStr.ofText t).toText?).map some = _
    rw [toText?_ofText]
    rfl

/-- **A session that was saved is read.** -/
theorem load_saved (htidy : Tidy s) (h : saveSessionCache depth updated_at s = some raw_text) : loadSessionCache depth raw_text = some s := by
  obtain ⟨id, hid, hne, rfl⟩ := saveSessionCache_ready h
  obtain ⟨⟨registered, firstSeen, sessionId⟩, lastMatchedLine⟩ := s
  obtain rfl : sessionId = some id := hid
  obtain rfl : registered = true := by
    cases id with
    | nil => exact absurd rfl hne
    | cons c rest => exact htidy rfl
  have hread := readAt_cacheJson depth updated_at id ⟨⟨true, firstSeen, some id⟩, lastMatchedLine⟩
  unfold loadSessionCache
  rw [loads_dump hread.1 hread.2]
  have htruth : (JsonValue.str (PyStr.ofText id)).truth = true := by
    simpa [JsonValue.truth, PyStr.ofText] using hne
  show (if (JsonValue.str (PyStr.ofText id)).truth then (do
      let id ← textOf (.str (PyStr.ofText id))
      let firstSeen ← optionalTextOf (optionJson firstSeen)
      let lastLine ← textOf (.str (PyStr.ofText lastMatchedLine))
      return (⟨⟨true, firstSeen, some id⟩, lastLine⟩ : LogScraper)) else some .new) = _
  rw [if_pos htruth, optionalTextOf_optionJson]
  simp [textOf, toText?_ofText]

end

/-! ## What a probe does to the session -/

section

variable [Unicode] {depth : Nat} {s : LogScraper} {scan : LogScan}

theorem extractSession_registered (now : Text) (s : PalLogScraper) (lines : List Text) :
    (extractSessionFromLines now s lines).1 = s ∨ (extractSessionFromLines now s lines).1.registered = true := by
  rw [extractSessionFromLines_eq]
  cases lines.find? logSearchPattern with
  | none => exact .inl rfl
  | some line => exact .inr rfl

theorem scanHistorical_registered (s : PalLogScraper) (files : List ScannedFile) :
    scanHistoricalLogFiles s files = s ∨ (scanHistoricalLogFiles s files).registered = true := by
  induction files generalizing s with
  | nil => exact .inl rfl
  | cons file files ih =>
    unfold scanHistoricalLogFiles
    cases file.lines with
    | none => exact ih s
    | some lines =>
      dsimp only
      rcases extractSession_registered file.now s (lines.take 10000) with hsame | hregistered
      · split
        · exact .inl hsame
        · rw [hsame]
          exact ih s
      · split
        · exact .inr hregistered
        · refine .inr ?_
          rcases ih (extractSessionFromLines file.now s (lines.take 10000)).1 with hsame | h
          · rw [hsame]
            exact hregistered
          · exact h

/-- A line that a probe may look for a session in. -/
def LogScan.Reads (scan : LogScan) (line : Text) : Prop :=
  (∃ active files, scan.findLogFiles = some (active, files) ∧ ∃ file ∈ files, ∃ lines, file.lines = some lines ∧ line ∈ lines) ∨
    ∃ stdout, scan.journal = .output stdout ∧ line ∈ splitlines stdout

/-- The session is the one before, or that of a line of the logs. -/
structure StemsFrom (scan : LogScan) (before after : PalLogScraper) : Prop where
  registered : after = before ∨ after.registered = true
  session : after.sessionId = before.sessionId ∨ ∃ line id, scan.Reads line ∧ Carries line id ∧ after.sessionId = some id

variable {active : Option ScannedFile} {files : List ScannedFile} {tailed scanned : LogScraper}

omit [Unicode] in
theorem StemsFrom.refl (scan : LogScan) (s : PalLogScraper) : StemsFrom scan s s := ⟨.inl rfl, .inl rfl⟩

omit [Unicode] in
theorem toPalLogScraper_tailActiveLog (h : s.tailActiveLog scan active = some tailed) : tailed.toPalLogScraper = s.toPalLogScraper := by
  unfold LogScraper.tailActiveLog at h
  split at h
  · cases h
    rfl
  · split at h
    · cases h
    · split at h
      · cases h
        rfl
      · cases h
        rfl

theorem stems_scanFiles (hfiles : scan.findLogFiles = some (active, files)) (s : LogScraper) :
    StemsFrom scan s.toPalLogScraper (s.scanFiles files).toPalLogScraper := by
  refine ⟨scanHistorical_registered _ _, (scanHistorical_sound _ _).imp_right ?_⟩
  rintro ⟨file, hfile, lines, hlines, line, hline, id, hcarries, hid⟩
  exact ⟨line, id, .inl ⟨active, files, hfiles, file, hfile, lines, hlines, hline⟩, hcarries, hid⟩

theorem stems_scanJournalctl (h : s.scanJournalctl scan = some scanned) : StemsFrom scan s.toPalLogScraper scanned.toPalLogScraper := by
  unfold LogScraper.scanJournalctl at h
  split at h
  · cases h
    exact .refl scan _
  · split at h
    · cases h
      exact .refl scan _
    · cases h
    · rename_i stdout hjournal
      cases h
      refine ⟨extractSession_registered _ _ _, (extractSession_sound _ _ _).imp_right ?_⟩
      rintro ⟨line, hline, id, hcarries, hid⟩
      exact ⟨line, id, .inr ⟨stdout, hjournal, hline⟩, hcarries, hid⟩

omit [Unicode] in
theorem StemsFrom.trans {a b c : PalLogScraper} (h : StemsFrom scan a b) (k : StemsFrom scan b c) : StemsFrom scan a c := by
  constructor
  · rcases k.registered with rfl | hc
    · exact h.registered
    · exact .inr hc
  · rcases k.session with hsame | hfound
    · rw [hsame]
      exact h.session
    · exact .inr hfound

/-- Neither the look for the logs nor the one at the active log raises. -/
def LogScan.Looks (scan : LogScan) : Prop :=
  ∃ active files, scan.findLogFiles = some (active, files) ∧ (active = none ∨ scan.activeRaises = false)

omit [Unicode] in
theorem tailActiveLog_isSome_iff : (s.tailActiveLog scan active).isSome = true ↔ active = none ∨ scan.activeRaises = false := by
  unfold LogScraper.tailActiveLog
  cases active with
  | none => simp
  | some file => cases scan.activeRaises <;> cases hlines : file.lines <;> simp [hlines]

/-- A scraper that has its session only tails the log. It raises exactly if a look does, and keeps its session. -/
theorem probe_ready (scan : LogScan) (h : s.Ready) :
    (probeLocalLogs scan s).1.toPalLogScraper = s.toPalLogScraper ∧ (probeLocalLogs scan s).2.2 = false ∧
      (scan.Looks → (probeLocalLogs scan s).2.1 = some (probeLocalLogs scan s).1.info) ∧
      (¬ scan.Looks → probeLocalLogs scan s = (s, none, false)) := by
  unfold probeLocalLogs LogScan.Looks
  rcases hfiles : scan.findLogFiles with _ | ⟨active, files⟩
  · simp
  · have hlooks : (∃ a fs, some (active, files) = some (a, fs) ∧ (a = none ∨ scan.activeRaises = false)) ↔
        (s.tailActiveLog scan active).isSome = true := by
      rw [tailActiveLog_isSome_iff]
      constructor
      · rintro ⟨a, fs, ⟨⟩, hlooks⟩
        exact hlooks
      · exact fun hlooks => ⟨active, files, rfl, hlooks⟩
    rw [hlooks]
    dsimp only
    cases htail : s.tailActiveLog scan active with
    | none => simp
    | some tailed =>
      have hsame := toPalLogScraper_tailActiveLog htail
      have hready : tailed.Ready := by
        unfold LogScraper.Ready
        rw [hsame]
        exact h
      dsimp only
      rw [if_pos hready]
      exact ⟨hsame, rfl, fun _ => rfl, fun hnone => absurd rfl hnone⟩

theorem stems_probe (scan : LogScan) (s : LogScraper) : StemsFrom scan s.toPalLogScraper (probeLocalLogs scan s).1.toPalLogScraper := by
  unfold probeLocalLogs
  split
  · exact .refl scan _
  · rename_i active files hfiles
    split
    · exact .refl scan _
    · rename_i tailed htail
      rw [← toPalLogScraper_tailActiveLog htail]
      have hscanned := stems_scanFiles hfiles tailed
      split
      · exact .refl scan _
      · split
        · exact hscanned
        · rename_i scanned hjournal
          exact hscanned.trans (stems_scanJournalctl hjournal)

theorem tidy_probe (scan : LogScan) (h : Tidy s) : Tidy (probeLocalLogs scan s).1 := by
  intro hid
  rcases (stems_probe scan s).registered with hsame | hregistered
  · rw [hsame] at hid ⊢
    exact h hid
  · exact hregistered

theorem sound_sessionKeeper (depth : Nat) : (sessionKeeper depth).Sound Tidy where
  start := by
    intro h
    cases h
  change s scan h := ⟨_, _, rfl, tidy_probe scan h⟩
  load _ _ _ htidy h := load_saved htidy h

/-! ## Runs -/

variable {w m w' : Keeper.World LogScraper Text} {acts acts' : List (Keeper.Act Text Text LogScan)}

theorem replay_provenance (scans : List LogScan) {id : Text} (h : ((sessionKeeper depth).replay scans).sessionId = some id) :
    ∃ scan ∈ scans, ∃ line, scan.Reads line ∧ Carries line id := by
  induction scans using List.reverseRecOn with
  | nil => cases h
  | append_singleton scans scan ih =>
    rw [Keeper.replay_snoc] at h
    rcases (stems_probe scan ((sessionKeeper depth).replay scans)).session with hsame | ⟨line, found, hreads, hcarries, hfound⟩
    · obtain ⟨scan, hscan, hline⟩ := ih (hsame.symm.trans h)
      exact ⟨scan, List.mem_append_left _ hscan, hline⟩
    · obtain rfl : found = id := Option.some.inj (hfound.symm.trans h)
      exact ⟨scan, List.mem_append_right _ (List.mem_singleton_self scan), line, hreads, hcarries⟩

/-- **No session is made up.** Whatever dies and whatever fails to be written or read, the session that a scraper has is one that
stood in the logs of a probe. -/
theorem session_provenance (hw : Keeper.Initial w) (h : Run (sessionKeeper depth).Step w acts w') {s : LogScraper} {stage : Keeper.Stage}
    (hprocess : w'.process = some ⟨s, stage⟩) {id : Text} (hid : s.sessionId = some id) :
    ∃ scan ∈ Keeper.changes acts, ∃ line, scan.Reads line ∧ Carries line id := by
  have hholds := Keeper.holds_run (sound_sessionKeeper depth) hw h
  have hvalue : s = _ := hholds.memory _ hprocess
  rw [hvalue] at hid
  obtain ⟨scan, hscan, hline⟩ := replay_provenance _ hid
  exact ⟨scan, (Keeper.history_sublist acts).1.mem hscan, hline⟩

/-- A scraper that has this session, and looks for no other. -/
def At (id : Text) (s : LogScraper) : Prop := s.Ready ∧ s.sessionId = some id

theorem at_probe {id : Text} (scan : LogScan) (h : At id s) : (probeLocalLogs scan s).2.2 = false ∧ At id (probeLocalLogs scan s).1 := by
  obtain ⟨hsame, hsaves, -⟩ := probe_ready scan h.1
  refine ⟨hsaves, ?_⟩
  unfold At LogScraper.Ready
  rw [hsame]
  exact h

/-- What a probe tells once there is a session with this id. It raises, and changes nothing, exactly if a look at the logs does. -/
structure Shows [Unicode] (id : Text) (scan : LogScan) (s : LogScraper) : Prop where
  shown : scan.Looks → ∃ info, (probeLocalLogs scan s).2.1 = some info ∧ info.sessionId = some id ∧ info.statusLabel = lit "CONSOLE SEARCH READY"
  raised : ¬ scan.Looks → probeLocalLogs scan s = (s, none, false)

/-- **A session that was saved stays.** From then on every probe shows it unless it raises, whatever the logs say and however often
the scraper comes up again, and the cache is not written a second time. -/
theorem session_sticks (hw : Keeper.Initial w) (hsaved : Run (sessionKeeper depth).Step w (acts ++ [.replace]) m) :
    ∃ id, id ≠ [] ∧ ∀ acts' w', Run (Only (sessionKeeper depth).Step Keeper.Reads) m acts' w' →
      w'.file = m.file ∧ ∀ s stage, w'.process = some ⟨s, stage⟩ → ∀ scan, Shows id scan s := by
  obtain ⟨s, updated_at, raw_text, rfl, htidy, hencode⟩ := Keeper.replaced (sound_sessionKeeper depth) hw hsaved
  obtain ⟨id, hid, hne, -⟩ := saveSessionCache_ready hencode
  have hat : At id s := by
    have hblank : isBlank s.sessionId = false := by
      rw [hid]
      cases id with
      | nil => exact absurd rfl hne
      | cons c rest => rfl
    exact ⟨⟨htidy hblank, hblank⟩, hid⟩
  have hsettled : (sessionKeeper depth).Settled (At id) raw_text ⟨some ⟨s, .idle⟩, some raw_text, none⟩ := by
    refine ⟨rfl, ⟨s, load_saved htidy hencode, hat⟩, ?_⟩
    rintro _ ⟨⟩
    exact ⟨rfl, hat⟩
  refine ⟨id, hne, fun acts' w' h => ?_⟩
  have hlater := Keeper.settled_run ?_ hsettled h
  · refine ⟨hlater.file, fun s stage hprocess scan => ?_⟩
    have hs := (hlater.memory _ hprocess).2
    obtain ⟨-, -, hreturns, hraises⟩ := probe_ready scan hs.1
    refine ⟨fun hlooks => ⟨_, hreturns hlooks, ?_⟩, hraises⟩
    obtain ⟨hregistered, hblank⟩ := (at_probe scan hs).2.1
    unfold LogScraper.info
    dsimp only
    rw [hregistered, hblank, (at_probe scan hs).2.2]
    exact ⟨rfl, rfl⟩
  · intro s scan s' saves hs hchange
    cases hchange
    exact at_probe scan hs

end

/-! ## A new session in the logs -/

attribute [local instance] Unicode.ascii

def journalOf (line : Text) (h : '\r' ∉ line) : LogScan := ⟨fun _ => .missing, false, true, .output ⟨line, h⟩, lit "2025-01-01 00:00:00"⟩

def firstSession : List (Keeper.Act Text Text LogScan) :=
  [.start true, .change (journalOf (lit "LogPalServer: SessionId: abc") (by decide)), .write (lit "2025-01-01T00:00:01"), .replace]

theorem exec_firstSession : ((exec (sessionKeeper 9).step ⟨none, none, none⟩ firstSession).map fun w =>
    w.process.map fun running => running.value.sessionId) = some (some (some (lit "abc"))) := by decide +kernel

/-- The session that is found first is kept. -/
theorem session_sticks_first : ∃ m : Keeper.World LogScraper Text, (m.process.map fun running => running.value.sessionId) = some (some (lit "abc")) ∧
    ∃ id, id ≠ [] ∧ ∀ acts' w', Run (Only (sessionKeeper 9).Step Keeper.Reads) m acts' w' →
      w'.file = m.file ∧ ∀ s stage, w'.process = some ⟨s, stage⟩ → ∀ scan, Shows id scan s := by
  obtain ⟨m, hexec, hid⟩ := Option.map_eq_some_iff.mp exec_firstSession
  exact ⟨m, hid, @session_sticks _ 9 ⟨none, none, none⟩ m (firstSession.take 3) ⟨rfl, rfl⟩ (Run.of_exec hexec)⟩

theorem session_provenance_first : ∃ scan ∈ Keeper.changes firstSession, ∃ line, scan.Reads line ∧ Carries line (lit "abc") := by
  obtain ⟨m, hexec, hid⟩ := Option.map_eq_some_iff.mp exec_firstSession
  obtain ⟨⟨s, stage⟩, hprocess, hs⟩ := Option.map_eq_some_iff.mp hid
  exact @session_provenance _ 9 ⟨none, none, none⟩ m firstSession ⟨rfl, rfl⟩ (Run.of_exec hexec) s stage hprocess _ hs

end Palworld.Logs

import Palworld.Update.PostUpdate
import Mathlib.Tactic.Tauto

/-!
# Checks for updates

`check_for_updates` asks for the newest commit of the branch and then, with a second request, how
far the deployed commit is behind it. It stores what it learns field by field.
-/

open Lib

namespace Palworld.Update

/-! ## Requests -/

/-- What becomes of a request: an `httpx.RequestError`, something else that is raised, or a response with what its `json()` gives. -/
inductive HttpOutcome
  | requestError
  | raises
  | response (status : Nat) (json : Except DecodeError JsonValue)

/-- An error as the `except` clauses of `check_for_updates` tell it apart. -/
inductive CheckRaise
  | httpStatus (status : Nat)
  | request
  | value
  | uncaught

/-- What a check reports as its error. -/
inductive CheckError
  | slug                                      -- the text of the `ValueError`
  | rateLimit (status : Nat)                  -- `GitHub API rate limit encountered (HTTP ...)`
  | http (status : Nat)                       -- `HTTP ... from upstream GitHub`
  | network                                   -- `Network error connecting to GitHub API`
  | payload                                   -- `Payload value error: ...`
  deriving DecidableEq

def CheckRaise.reported : CheckRaise → Option CheckError
  | .httpStatus status => some (.http status)
  | .request => some .network
  | .value => some .payload
  | .uncaught => none

def ofRecordError (e : RecordError) : CheckRaise := if e = .valueError then .value else .uncaught

/-- What one check meets: the answers to its two requests and what it reads of the host. -/
structure CheckIo where
  now : Text
  localCommit : Option Text                   -- `none` where `get_local_commit` raises
  commits : HttpOutcome
  compare : HttpOutcome
  inspect : InspectIo
  time : ℚ
  lock : Option LockFile
  record : RecordFile

structure UpdateWatcher where
  branch : Text
  slug : Option (Text × Text)                 -- `none` where `parse_repo_slug` raises
  isPrintable : Char → Bool
  limits : Limits

/-- The fields that a check stores. -/
structure CheckState where
  updateAvailable : Bool
  currentCommit : Text
  latestCommit : PyStr
  commitsBehind : Nat
  latestCommitMessage : PyStr
  lastChecked : Text
  lastError : Option CheckError

def newState (now : Text) : CheckState := ⟨false, [], [], 0, [], now, none⟩

structure UpdateStatusResponse where
  updateAvailable : Bool
  currentCommit : Text
  latestCommit : Text
  targetBranch : Text
  commitsBehind : Nat
  latestCommitMessage : Text
  lastChecked : Text
  updateInProgress : Bool
  error : Option CheckError
  lastUpdate : Option PostUpdateSummary

/-! ## A check -/

def orUnknown {α : Type} [DecidableEq α] (t unknown : List α) : List α := if t = [] then unknown else t

section

variable [Unicode] (watcher : UpdateWatcher) (io : CheckIo)

def getStatus (s : CheckState) : Except CheckRaise UpdateStatusResponse := do
  let updateInProgress := (isUpdateInProgress io.inspect io.time io.lock).1
  let lastUpdate ← (getLastUpdateSummary watcher.isPrintable watcher.limits io.record).mapError ofRecordError
  let latestCommit ← (validText (orUnknown s.latestCommit (PyStr.ofText (lit "unknown")))).mapError ofRecordError
  let latestCommitMessage ← (validText s.latestCommitMessage).mapError ofRecordError
  return ⟨s.updateAvailable, orUnknown s.currentCommit (lit "unknown"), latestCommit, watcher.branch, s.commitsBehind, latestCommitMessage,
    s.lastChecked, updateInProgress, s.lastError, lastUpdate⟩

/-- `str.strip`. -/
def stripStr (s : PyStr) : PyStr :=
  let isBlank : PyChar → Bool := fun c => match c with
    | .char c => isSpace c
    | .surrogate _ => false
  ((s.dropWhile isBlank).reverse.dropWhile isBlank).reverse

def fieldsOf : JsonValue → Except CheckRaise Fields
  | .object fields => .ok fields
  | _ => .error .uncaught                     -- `AttributeError`

/-- `message_full.split("\n", 1)[0].strip() if message_full else ""`. -/
def summaryLine (message : JsonValue) : Except CheckRaise PyStr :=
  if message.truth then
    match message with
    | .str s => .ok (stripStr (s.takeWhile (· ≠ .char '\n')))
    | _ => .error .uncaught                   -- `AttributeError`
  else .ok []

def ofDecodeError (e : DecodeError) : CheckRaise := ofRecordError (ofDecode e)

/-- The commit that a response names, and the first line of its message. -/
def readCommit (json : Except DecodeError JsonValue) : Except CheckRaise (PyStr × PyStr) := do
  let data ← fieldsOf (← json.mapError ofDecodeError)
  let sha ← (strOf watcher.isPrintable watcher.limits (field data "sha" (textValue ""))).mapError ofRecordError
  let commitMeta ← fieldsOf (field data "commit" (.object []))
  let summaryLine ← summaryLine (field commitMeta "message" (textValue ""))
  return (stripStr sha, summaryLine)

/-- `max(0, int(compare_data.get("ahead_by", 1)))`. -/
def readAhead (json : Except DecodeError JsonValue) : Except CheckRaise Nat := do
  let data ← fieldsOf (← json.mapError ofDecodeError)
  let aheadBy ← (intOfValue (field data "ahead_by" (.int PyInt.one))).mapError ofRecordError
  return (max 0 aheadBy).toNat

/-- The two hashes name one commit. -/
def sameCommit (localSha remoteSha : PyStr) : Bool :=
  localSha = remoteSha || (remoteSha.take 7).isPrefixOf localSha || (localSha.take 7).isPrefixOf remoteSha

/-- The part of the `try` block that determines the divergence. A state comes back also where it raises, and a response where it returns
from inside. -/
def determineDivergence (localSha : Text) (remoteSha : PyStr) (s : CheckState) : Except CheckRaise (Option UpdateStatusResponse) × CheckState :=
  if localSha ≠ lit "unknown" ∧ sameCommit (PyStr.ofText localSha) remoteSha then
    let s := { s with updateAvailable := false, commitsBehind := 0 }
    (some <$> getStatus watcher io s, s)
  else if localSha ≠ lit "unknown" ∧ localSha ≠ [] ∧ remoteSha ≠ [] then
    match io.compare with
    | .requestError => (.error .request, s)
    | .raises => (.error .uncaught, s)
    | .response status json =>
      if status = 200 then
        match readAhead json with
        | .error e => (.error e, s)
        | .ok behind => (.ok none, { s with commitsBehind := behind, updateAvailable := 0 < behind })
      else (.ok none, { s with commitsBehind := 1, updateAvailable := true })
  else (.ok none, { s with commitsBehind := 0, updateAvailable := false })

/-- The `try` block. -/
def attempt (localSha : Text) (s : CheckState) : Except CheckRaise (Option UpdateStatusResponse) × CheckState :=
  match io.commits with
  | .requestError => (.error .request, s)
  | .raises => (.error .uncaught, s)
  | .response status json =>
    if status = 403 ∨ status = 429 then
      let s := { s with lastError := some (.rateLimit status) }
      (some <$> getStatus watcher io s, s)
    else if ¬ (200 ≤ status ∧ status ≤ 299) then (.error (.httpStatus status), s)
    else
      match readCommit watcher json with
      | .error e => (.error e, s)
      | .ok (remoteSha, summaryLine) =>
        determineDivergence watcher io localSha remoteSha
          { s with latestCommit := remoteSha, latestCommitMessage := summaryLine, lastError := none }

/-- The `except` clauses and the last line. -/
def settle : Except CheckRaise (Option UpdateStatusResponse) × CheckState → Except CheckRaise UpdateStatusResponse × CheckState
  | (.ok (some response), s) => (.ok response, s)
  | (.ok none, s) => (getStatus watcher io s, s)
  | (.error e, s) =>
    match e.reported with
    | some error =>
      let s := { s with lastError := some error }
      (getStatus watcher io s, s)
    | none => (.error e, s)

def checkForUpdates (s : CheckState) : Except CheckRaise UpdateStatusResponse × CheckState :=
  let s := { s with lastChecked := io.now }
  match io.localCommit with
  | none => (.error .uncaught, s)
  | some localSha =>
    let s := { s with currentCommit := localSha }
    match watcher.slug with
    | none =>
      let s := { s with lastError := some .slug }
      (getStatus watcher io s, s)
    | some _ => settle watcher io (attempt watcher io localSha s)

end

/-! ## What a check writes -/

/-- What a check tells of the branch. -/
structure Reported where
  latestCommit : PyStr
  latestCommitMessage : PyStr
  commitsBehind : Nat
  updateAvailable : Bool
  deriving DecidableEq

def CheckState.reported (s : CheckState) : Reported := ⟨s.latestCommit, s.latestCommitMessage, s.commitsBehind, s.updateAvailable⟩

/-- A check raises or leaves an error behind. -/
def EndsWithError (result : Except CheckRaise UpdateStatusResponse × CheckState) : Prop :=
  result.1.toOption = none ∨ result.2.lastError ≠ none

instance (result : Except CheckRaise UpdateStatusResponse × CheckState) : Decidable (EndsWithError result) :=
  inferInstanceAs (Decidable (result.1.toOption = none ∨ result.2.lastError ≠ none))

section

variable [Unicode] (watcher : UpdateWatcher) (io : CheckIo)

/-- The deployed commit, and the newest one with its message, where the first request is answered with them. -/
def commitAnswer : Option (Text × PyStr × PyStr) :=
  match io.localCommit, watcher.slug, io.commits with
  | some localSha, some _, .response status json =>
    if status = 403 ∨ status = 429 ∨ ¬ (200 ≤ status ∧ status ≤ 299) then none
    else (readCommit watcher json).toOption.map fun (remoteSha, summaryLine) => (localSha, remoteSha, summaryLine)
  | _, _, _ => none

/-- How far two commits are apart, where the second request is not needed or tells. -/
def divergence (localSha : Text) (remoteSha : PyStr) : Option Nat :=
  if localSha ≠ lit "unknown" ∧ sameCommit (PyStr.ofText localSha) remoteSha then some 0
  else if localSha ≠ lit "unknown" ∧ localSha ≠ [] ∧ remoteSha ≠ [] then
    match io.compare with
    | .response status json => if status = 200 then (readAhead json).toOption else some 1
    | _ => none
  else some 0

/-- The response can be built: the record does not raise, and no text holds half of a surrogate pair. -/
def Presentable (remoteSha summaryLine : PyStr) : Prop :=
  (∃ summary, getLastUpdateSummary watcher.isPrintable watcher.limits io.record = .ok summary) ∧
    remoteSha.toText? ≠ none ∧ summaryLine.toText? ≠ none

/-- A check after whose first answer nothing fails, or that learns what is known already. -/
def Steady (s : CheckState) : Prop :=
  ∀ localSha remoteSha summaryLine, commitAnswer watcher io = some (localSha, remoteSha, summaryLine) →
    match divergence io localSha remoteSha with
    | none => remoteSha = s.latestCommit ∧ summaryLine = s.latestCommitMessage
    | some behind => Presentable watcher io remoteSha summaryLine ∨ s.reported = ⟨remoteSha, summaryLine, behind, 0 < behind⟩

end

/-! ## One check -/

theorem validText_cases (x : PyStr) : (∃ t, validText x = .ok t) ∧ x.toText? ≠ none ∨ validText x = .error .valueError ∧ x.toText? = none := by
  unfold validText
  cases h : x.toText? with
  | some t => exact .inl ⟨⟨t, rfl⟩, by simp⟩
  | none => exact .inr ⟨rfl, rfl⟩

theorem orUnknown_toText? (x : PyStr) : PyStr.toText? (orUnknown x (PyStr.ofText (lit "unknown"))) = none ↔ x.toText? = none := by
  unfold orUnknown
  split
  · rename_i h
    rw [h, toText?_ofText]
    simp [PyStr.toText?]
  · rfl

section

variable [Unicode] {watcher : UpdateWatcher} {io : CheckIo} {s : CheckState}

theorem getStatus_ok (watcher : UpdateWatcher) (io : CheckIo) (s : CheckState) :
    (∃ response, getStatus watcher io s = .ok response) ↔ Presentable watcher io s.latestCommit s.latestCommitMessage := by
  have hunknown := orUnknown_toText? s.latestCommit
  unfold getStatus Presentable
  cases hrecord : getLastUpdateSummary watcher.isPrintable watcher.limits io.record with
  | error e =>
    refine iff_of_false ?_ ?_
    · rintro ⟨response, h⟩
      cases h
    · rintro ⟨⟨summary, h⟩, -⟩
      cases h
  | ok summary =>
    rcases validText_cases (orUnknown s.latestCommit (PyStr.ofText (lit "unknown"))) with ⟨⟨t, ht⟩, hvalid⟩ | ⟨ht, hvalid⟩
    · rcases validText_cases s.latestCommitMessage with ⟨⟨u, hu⟩, hmessage⟩ | ⟨hu, hmessage⟩
      · refine iff_of_true ?_ ⟨⟨summary, rfl⟩, fun h => hvalid (hunknown.mpr h), hmessage⟩
        simp only [ht, hu]
        exact ⟨_, rfl⟩
      · refine iff_of_false ?_ fun h => h.2.2 hmessage
        simp only [ht, hu]
        rintro ⟨response, h⟩
        cases h
    · refine iff_of_false ?_ fun h => h.2.1 (hunknown.mp hvalid)
      simp only [ht]
      rintro ⟨response, h⟩
      cases h

theorem getStatus_cases (watcher : UpdateWatcher) (io : CheckIo) (s : CheckState) :
    (Presentable watcher io s.latestCommit s.latestCommitMessage ∧ ∃ response, getStatus watcher io s = .ok response) ∨
      ¬ Presentable watcher io s.latestCommit s.latestCommitMessage ∧ ∃ e, getStatus watcher io s = .error e := by
  rw [← getStatus_ok watcher io s]
  cases h : getStatus watcher io s with
  | ok response => exact .inl ⟨⟨response, rfl⟩, response, rfl⟩
  | error e =>
    refine .inr ⟨?_, e, rfl⟩
    rintro ⟨response, hresponse⟩
    cases hresponse

/-- What the `except` clauses do to an error. -/
theorem settle_error (watcher : UpdateWatcher) (io : CheckIo) (e : CheckRaise) (s : CheckState) :
    EndsWithError (settle watcher io (.error e, s)) ∧ (settle watcher io (.error e, s)).2.reported = s.reported := by
  unfold settle
  dsimp only
  cases e.reported with
  | some error => exact ⟨.inr (by simp), rfl⟩
  | none => exact ⟨.inl rfl, rfl⟩

/-- A response that is returned from inside the `try` block with an error in it. -/
theorem settle_inside_error (hs : s.lastError ≠ none) : EndsWithError (settle watcher io (some <$> getStatus watcher io s, s)) ∧
    (settle watcher io (some <$> getStatus watcher io s, s)).2.reported = s.reported := by
  cases h : getStatus watcher io s with
  | ok response => exact ⟨.inr hs, rfl⟩
  | error e => exact settle_error watcher io e s

omit [Unicode] in
theorem not_endsWithError {response : UpdateStatusResponse} (hs : s.lastError = none) : ¬ EndsWithError (.ok response, s) := by
  rintro (he | he)
  · cases he
  · exact he hs

theorem settle_inside (hs : s.lastError = none) : (settle watcher io (some <$> getStatus watcher io s, s)).2.reported = s.reported ∧
    (EndsWithError (settle watcher io (some <$> getStatus watcher io s, s)) ↔
      ¬ Presentable watcher io s.latestCommit s.latestCommitMessage) := by
  rcases getStatus_cases watcher io s with ⟨hpresentable, response, h⟩ | ⟨hpresentable, e, h⟩
  · rw [h]
    exact ⟨rfl, iff_of_false (not_endsWithError hs) (not_not_intro hpresentable)⟩
  · rw [h]
    obtain ⟨herror, hreported⟩ := settle_error watcher io e s
    exact ⟨hreported, iff_of_true herror hpresentable⟩

theorem settle_outside (hs : s.lastError = none) : (settle watcher io (.ok none, s)).2.reported = s.reported ∧
    (EndsWithError (settle watcher io (.ok none, s)) ↔ ¬ Presentable watcher io s.latestCommit s.latestCommitMessage) := by
  unfold settle
  dsimp only
  rcases getStatus_cases watcher io s with ⟨hpresentable, response, h⟩ | ⟨hpresentable, e, h⟩
  · rw [h]
    exact ⟨rfl, iff_of_false (not_endsWithError hs) (not_not_intro hpresentable)⟩
  · rw [h]
    exact ⟨rfl, iff_of_true (.inl rfl) hpresentable⟩

/-- What a check does to the four fields, and when it ends with an error. -/
def CheckSpec (watcher : UpdateWatcher) (io : CheckIo) (s : CheckState) (answer : Option (Text × PyStr × PyStr))
    (result : Except CheckRaise UpdateStatusResponse × CheckState) : Prop :=
  match answer with
  | none => EndsWithError result ∧ result.2.reported = s.reported
  | some (localSha, remoteSha, summaryLine) =>
    match divergence io localSha remoteSha with
    | none => EndsWithError result ∧ result.2.reported = ⟨remoteSha, summaryLine, s.commitsBehind, s.updateAvailable⟩
    | some behind => result.2.reported = ⟨remoteSha, summaryLine, behind, 0 < behind⟩ ∧
      (EndsWithError result ↔ ¬ Presentable watcher io remoteSha summaryLine)

theorem determineDivergence_spec (watcher : UpdateWatcher) (io : CheckIo) (s : CheckState) (localSha : Text) (hs : s.lastError = none) :
    CheckSpec watcher io s (some (localSha, s.latestCommit, s.latestCommitMessage))
      (settle watcher io (determineDivergence watcher io localSha s.latestCommit s)) := by
  unfold determineDivergence CheckSpec divergence
  dsimp only
  by_cases hsame : localSha ≠ lit "unknown" ∧ sameCommit (PyStr.ofText localSha) s.latestCommit = true
  · rw [if_pos hsame, if_pos hsame]
    exact settle_inside (s := { s with updateAvailable := false, commitsBehind := 0 }) hs
  rw [if_neg hsame, if_neg hsame]
  by_cases hknown : localSha ≠ lit "unknown" ∧ localSha ≠ [] ∧ s.latestCommit ≠ []
  · rw [if_pos hknown, if_pos hknown]
    cases io.compare with
    | requestError => exact settle_error watcher io _ _
    | raises => exact settle_error watcher io _ _
    | response status json =>
      dsimp only
      by_cases hstatus : status = 200
      · rw [if_pos hstatus, if_pos hstatus]
        cases readAhead json with
        | error e => exact settle_error watcher io _ _
        | ok behind => exact settle_outside (s := { s with commitsBehind := behind, updateAvailable := 0 < behind }) hs
      · rw [if_neg hstatus, if_neg hstatus]
        exact settle_outside (s := { s with commitsBehind := 1, updateAvailable := true }) hs
  · rw [if_neg hknown, if_neg hknown]
    exact settle_outside (s := { s with commitsBehind := 0, updateAvailable := false }) hs

theorem attempt_spec (watcher : UpdateWatcher) (io : CheckIo) (s : CheckState) (localSha : Text) {slug : Text × Text}
    (hlocal : io.localCommit = some localSha) (hslug : watcher.slug = some slug) :
    CheckSpec watcher io s (commitAnswer watcher io) (settle watcher io (attempt watcher io localSha s)) := by
  unfold commitAnswer attempt
  rw [hlocal, hslug]
  cases io.commits with
  | requestError => exact settle_error watcher io _ _
  | raises => exact settle_error watcher io _ _
  | response status json =>
    dsimp only
    by_cases hlimit : status = 403 ∨ status = 429
    · rw [if_pos hlimit, if_pos (hlimit.elim .inl fun h => .inr (.inl h))]
      exact settle_inside_error (by simp)
    rw [if_neg hlimit]
    by_cases hstatus : 200 ≤ status ∧ status ≤ 299
    · rw [if_neg (not_not_intro hstatus), if_neg (by tauto)]
      cases hread : readCommit watcher json with
      | error e => exact settle_error watcher io _ _
      | ok read =>
        obtain ⟨remoteSha, summaryLine⟩ := read
        exact determineDivergence_spec watcher io { s with latestCommit := remoteSha, latestCommitMessage := summaryLine, lastError := none } localSha rfl
    · rw [if_pos hstatus, if_pos (.inr (.inr hstatus))]
      exact settle_error watcher io _ _

theorem check_spec (watcher : UpdateWatcher) (io : CheckIo) (s : CheckState) :
    CheckSpec watcher io s (commitAnswer watcher io) (checkForUpdates watcher io s) := by
  unfold checkForUpdates
  cases hlocal : io.localCommit with
  | none =>
    have hanswer : commitAnswer watcher io = none := by rw [commitAnswer, hlocal]
    rw [hanswer]
    exact ⟨.inl rfl, rfl⟩
  | some localSha =>
    cases hslug : watcher.slug with
    | none =>
      have hanswer : commitAnswer watcher io = none := by rw [commitAnswer, hlocal, hslug]
      rw [hanswer]
      exact ⟨.inr (by simp), rfl⟩
    | some slug => exact attempt_spec watcher io _ localSha hlocal hslug

/-- A check that ends with an error keeps the four fields, exactly where it is steady. -/
theorem steady_iff (watcher : UpdateWatcher) (io : CheckIo) (s : CheckState) :
    (EndsWithError (checkForUpdates watcher io s) → (checkForUpdates watcher io s).2.reported = s.reported) ↔ Steady watcher io s := by
  have hspec := check_spec watcher io s
  unfold CheckSpec at hspec
  unfold Steady
  cases hanswer : commitAnswer watcher io with
  | none =>
    rw [hanswer] at hspec
    exact iff_of_true (fun _ => hspec.2) (by simp)
  | some answer =>
    obtain ⟨localSha, remoteSha, summaryLine⟩ := answer
    rw [hanswer] at hspec
    dsimp only at hspec
    have hsteady : (∀ localSha' remoteSha' summaryLine', some (localSha, remoteSha, summaryLine) = some (localSha', remoteSha', summaryLine') →
        match divergence io localSha' remoteSha' with
        | none => remoteSha' = s.latestCommit ∧ summaryLine' = s.latestCommitMessage
        | some behind => Presentable watcher io remoteSha' summaryLine' ∨ s.reported = ⟨remoteSha', summaryLine', behind, 0 < behind⟩) ↔
        match divergence io localSha remoteSha with
        | none => remoteSha = s.latestCommit ∧ summaryLine = s.latestCommitMessage
        | some behind => Presentable watcher io remoteSha summaryLine ∨ s.reported = ⟨remoteSha, summaryLine, behind, 0 < behind⟩ := by
      constructor
      · exact fun h => h _ _ _ rfl
      · rintro h _ _ _ heq
        cases heq
        exact h
    rw [hsteady]
    cases hdivergence : divergence io localSha remoteSha with
    | none =>
      rw [hdivergence] at hspec
      obtain ⟨herror, hreported⟩ := hspec
      rw [hreported]
      simp [herror, CheckState.reported]
    | some behind =>
      rw [hdivergence] at hspec
      obtain ⟨hreported, herror⟩ := hspec
      rw [hreported, herror]
      dsimp only
      rw [or_iff_not_imp_left]
      exact ⟨fun h hnot => (h hnot).symm, fun h hnot => (h hnot).symm⟩

/-- **Consistency.** After a check an update is available exactly where commits are behind. -/
theorem consistent_check (watcher : UpdateWatcher) (io : CheckIo) (h : s.updateAvailable = decide (0 < s.commitsBehind)) :
    (checkForUpdates watcher io s).2.updateAvailable = decide (0 < (checkForUpdates watcher io s).2.commitsBehind) := by
  have hspec := check_spec watcher io s
  have hfields : ∀ {s' : CheckState} {reported : Reported}, s'.reported = reported → s'.updateAvailable = reported.updateAvailable ∧
      s'.commitsBehind = reported.commitsBehind := by
    rintro s' reported rfl
    exact ⟨rfl, rfl⟩
  unfold CheckSpec at hspec
  split at hspec
  · obtain ⟨havailable, hbehind⟩ := hfields hspec.2
    rw [havailable, hbehind]
    exact h
  · split at hspec
    · obtain ⟨havailable, hbehind⟩ := hfields hspec.2
      rw [havailable, hbehind]
      exact h
    · obtain ⟨havailable, hbehind⟩ := hfields hspec.1
      rw [havailable, hbehind]

end

/-! ## Sequences of checks -/

section

variable [Unicode] (watcher : UpdateWatcher)

/-- A check, and what the last one without an error left. -/
def watch (s : CheckState × Reported) (io : CheckIo) : CheckState × Reported :=
  let result := checkForUpdates watcher io s.1
  (result.2, if EndsWithError result then s.2 else result.2.reported)

def watched (now : Text) (ios : List CheckIo) : CheckState × Reported := ios.foldl (watch watcher) (newState now, (newState now).reported)

/-- An update is available exactly where commits are behind, and a check with an error leaves what the last one without an error left. -/
structure KeepsReport (now : Text) (ios : List CheckIo) : Prop where
  consistent : ∀ before, before <+: ios →
    ((watched watcher now before).1.updateAvailable = true ↔ 0 < (watched watcher now before).1.commitsBehind)
  kept : ∀ before io, before ++ [io] <+: ios → EndsWithError (checkForUpdates watcher io (watched watcher now before).1) →
    (watched watcher now (before ++ [io])).1.reported = (watched watcher now before).2

variable {watcher} {now : Text} {ios before : List CheckIo}

theorem watched_snoc (before : List CheckIo) (io : CheckIo) :
    watched watcher now (before ++ [io]) = watch watcher (watched watcher now before) io := by
  rw [watched, List.foldl_append]
  rfl

theorem consistent_watched (watcher : UpdateWatcher) (now : Text) (before : List CheckIo) :
    (watched watcher now before).1.updateAvailable = decide (0 < (watched watcher now before).1.commitsBehind) := by
  induction before using List.reverseRecOn with
  | nil => rfl
  | append_singleton before io ih =>
    rw [watched_snoc]
    exact consistent_check watcher io ih

/-- Where checks with an error keep the fields, they are always those of the last check without one. -/
theorem reported_watched (h : ∀ before io, before ++ [io] <+: ios → EndsWithError (checkForUpdates watcher io (watched watcher now before).1) →
    (watched watcher now before).1.reported = (watched watcher now before).2 →
      (checkForUpdates watcher io (watched watcher now before).1).2.reported = (watched watcher now before).2) (hbefore : before <+: ios) :
    (watched watcher now before).1.reported = (watched watcher now before).2 := by
  induction before using List.reverseRecOn with
  | nil => rfl
  | append_singleton before io ih =>
    have hreported := ih ((List.prefix_append before [io]).trans hbefore)
    rw [watched_snoc]
    unfold watch
    dsimp only
    by_cases herror : EndsWithError (checkForUpdates watcher io (watched watcher now before).1)
    · rw [if_pos herror]
      exact h before io hbefore herror hreported
    · rw [if_neg herror]

/-- **Failed checks.** In a sequence of checks those with an error change nothing they report, exactly where each check is steady. -/
theorem keepsReport_iff (watcher : UpdateWatcher) (now : Text) (ios : List CheckIo) :
    KeepsReport watcher now ios ↔ ∀ before io, before ++ [io] <+: ios → Steady watcher io (watched watcher now before).1 := by
  constructor
  · intro hkeeps before io hpre
    have hbefore : before <+: ios := (List.prefix_append before [io]).trans hpre
    have hreported : (watched watcher now before).1.reported = (watched watcher now before).2 := by
      refine reported_watched (fun before io hpre herror _ => ?_) hbefore
      have hkept := hkeeps.kept before io hpre herror
      rw [watched_snoc] at hkept
      exact hkept
    rw [← steady_iff]
    intro herror
    have hkept := hkeeps.kept before io hpre herror
    rw [watched_snoc] at hkept
    rw [hreported]
    exact hkept
  · intro hsteady
    have hstep : ∀ before io, before ++ [io] <+: ios → EndsWithError (checkForUpdates watcher io (watched watcher now before).1) →
        (watched watcher now before).1.reported = (watched watcher now before).2 →
          (checkForUpdates watcher io (watched watcher now before).1).2.reported = (watched watcher now before).2 := by
      intro before io hpre herror hreported
      rw [← hreported]
      exact (steady_iff watcher io _).mpr (hsteady before io hpre) herror
    refine ⟨fun before hbefore => ?_, fun before io hpre herror => ?_⟩
    · rw [consistent_watched, decide_eq_true_eq]
    · rw [watched_snoc]
      exact hstep before io hpre herror (reported_watched hstep ((List.prefix_append before [io]).trans hpre))

end

/-! ## A check that fails half-way -/

def newCommitJson : JsonValue :=
  .object [(PyStr.ofText (lit "sha"), textValue "bbbbbbbb"),
    (PyStr.ofText (lit "commit"), .object [(PyStr.ofText (lit "message"), textValue "New")])]

/-- The first request is answered, and the second one fails on the network. -/
def halfAnswered : CheckIo where
  now := lit "2026-01-31T12:00:00Z"
  localCommit := some (lit "aaaaaaaa")
  commits := .response 200 (.ok newCommitJson)
  compare := .requestError
  inspect := ⟨true, true⟩
  time := 0
  lock := none
  record := .missing

def repoWatcher : UpdateWatcher := ⟨lit "main", some (lit "owner", lit "repo"), Char.isAlphanum, ⟨990, 990, 990⟩⟩

/-- The new commit is reported, and no commit behind. -/
theorem half_answered_report : ¬ @KeepsReport Unicode.ascii repoWatcher (lit "2026-01-31T11:00:00Z") [halfAnswered] := by
  intro h
  have hkept := @KeepsReport.kept Unicode.ascii _ _ _ h [] halfAnswered (List.prefix_refl _) (by decide)
  exact absurd hkept (by decide)

end Palworld.Update

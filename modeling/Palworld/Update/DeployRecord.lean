import Palworld.Update.PostUpdate

/-!
# The record that a deployment leaves

At its end the script writes `last_update.json` with a here-document. Of the commit subject it
escapes the quotes.
-/

open Lib

namespace Palworld.Update

/-! ## The script -/

/-- The first line of a commit message, as `git log --pretty=format:"%s"` prints it. -/
structure CommitSubject where
  text : Text
  oneLine : '\n' ∉ text
  noNul : '\x00' ∉ text

/-- A word that `echo` takes as its options. -/
def isEchoOption : Text → Bool
  | '-' :: letters => letters ≠ [] && letters.all fun c => c == 'n' || c == 'e' || c == 'E'
  | _ => false

/-- `echo "${t}"`. -/
def echo (t : Text) : Text := if isEchoOption t then (if 'n' ∈ t then [] else ['\n']) else t ++ ['\n']

/-- `sed 's/"/\\"/g'`. -/
def escapeQuotes (t : Text) : Text := t.flatMap fun c => if c = '"' then ['\\', '"'] else [c]

/-- `$(...)` drops the ends of lines at the end of what a command prints. -/
def substituted (printed : Text) : Text := (printed.reverse.dropWhile (· == '\n')).reverse

def commitMsg (resolved : Text) : Text := if resolved ≠ [] then resolved else lit "Upstream update deployed successfully"

def commitMsgJson (resolved : Text) : Text := substituted (escapeQuotes (echo (commitMsg resolved)))

/-- What stands between quotes without an escape. -/
def IsPlain (t : Text) : Prop := ∀ c ∈ t, c ≠ '"' ∧ c ≠ '\\' ∧ 32 ≤ c.toNat

/-- The other variables of the here-document: a branch name, a version between quotes, the hash that `git rev-parse` printed, and what
`date` printed. The shell counts the seconds in 64 bits. -/
structure Deployed where
  targetBranch : Text
  deployedVersion : Text
  deployedCommit : Text
  nowIso : Text
  duration : Nat
  plain : ∀ t ∈ [targetBranch, deployedVersion, deployedCommit, nowIso], IsPlain t
  duration_lt : duration < 2 ^ 63

/-- A line of the record, up to the line behind it. -/
def recordLine (key : String) (raw : Text) : Text := ' ' :: ' ' :: '"' :: (lit key ++ '"' :: ':' :: ' ' :: (raw ++ [',', '\n']))

def betweenQuotes (t : Text) : Text := '"' :: (t ++ ['"'])

/-- The lines in front of the subject. -/
def recordHead (deployed : Deployed) : Text :=
  recordLine "status" (betweenQuotes (lit "success")) ++
    (recordLine "target_branch" (betweenQuotes deployed.targetBranch) ++
    (recordLine "deployed_version" (betweenQuotes ('v' :: deployed.deployedVersion)) ++
    (recordLine "deployed_commit" (betweenQuotes deployed.deployedCommit) ++
    (recordLine "deployed_commit_short" (betweenQuotes (deployed.deployedCommit.take 7)) ++
    (recordLine "deployed_at" (betweenQuotes deployed.nowIso) ++
    recordLine "duration_seconds" (Nat.toDigits 10 deployed.duration))))))

def recordEnd : Text := lit "  \"acknowledged\": false\n\x7d"

/-- `cat <<EOF > "${POST_UPDATE_FILE}"`. -/
def recordText (deployed : Deployed) (commitMsgJson : Text) : Text :=
  '\x7b' :: '\n' :: (recordHead deployed ++ (recordLine "summary" (betweenQuotes commitMsgJson) ++ (recordEnd ++ ['\n'])))

/-- The file after a successful deployment of a commit. -/
def deployedRecord (deployed : Deployed) (subject : CommitSubject) : RecordFile :=
  .holds (utf8Encode (recordText deployed (commitMsgJson subject.text)))

/-- A subject that the script neither replaces nor drops, and that stands between quotes with its quotes escaped. -/
def SurvivesScript (subject : CommitSubject) : Prop :=
  subject.text ≠ [] ∧ isEchoOption subject.text = false ∧ ∀ c ∈ subject.text, c ≠ '\\' ∧ 32 ≤ c.toNat

/-! ## The escaped subject, read as a string -/

section

variable {t tail rest : Text} {units s : PyStr} {c : Char}

theorem escapeQuotes_cons (h : c ≠ '"') (t : Text) : escapeQuotes (c :: t) = c :: escapeQuotes t := by
  unfold escapeQuotes
  rw [List.flatMap_cons, if_neg h]
  rfl

theorem escapeQuotes_quote (t : Text) : escapeQuotes ('"' :: t) = '\\' :: '"' :: escapeQuotes t := rfl

/-- Nothing but escaped quotes and plain characters. -/
theorem scanUnits_escapeQuotes (h : ∀ c ∈ t, c ≠ '\\' ∧ 32 ≤ c.toNat) (rest : Text) :
    scanUnits (escapeQuotes t ++ '"' :: rest) = .ok (PyStr.ofText t, rest) := by
  induction t with
  | nil => rfl
  | cons c t ih =>
    obtain ⟨⟨hslash, hcontrol⟩, ht⟩ := List.forall_mem_cons.mp h
    by_cases hquote : c = '"'
    · subst hquote
      rw [escapeQuotes_quote, List.cons_append, List.cons_append, scanUnits_letter (by rfl), ih ht]
      rfl
    · rw [escapeQuotes_cons hquote, List.cons_append, scanUnits_plain hquote hslash hcontrol, ih ht]
      rfl

theorem escapeQuotes_eq (h : '"' ∉ t) : escapeQuotes t = t := by
  induction t with
  | nil => rfl
  | cons c t ih =>
    rw [List.mem_cons, not_or] at h
    rw [escapeQuotes_cons (Ne.symm h.1), ih h.2]

theorem foldr_joinOnto (h : Joined s) : s.foldr joinOnto [] = s := by
  induction s with
  | nil => rfl
  | cons c s ih =>
    rw [List.foldr_cons, ih h.tail]
    apply joinOnto_of_not
    intro d hd
    cases s with
    | nil => cases hd
    | cons e s =>
      cases hd
      exact (List.isChain_cons_cons.mp h).1

theorem scanString_escapeQuotes (h : ∀ c ∈ t, c ≠ '\\' ∧ 32 ≤ c.toNat) (rest : Text) :
    scanString (escapeQuotes t ++ '"' :: rest) = .ok (PyStr.ofText t, rest) := by
  unfold scanString
  rw [scanUnits_escapeQuotes h]
  show Except.ok ((PyStr.ofText t).foldr joinOnto [], rest) = _
  rw [foldr_joinOnto (joined_ofText t)]

/-- What is behind a string that may have ended before the subject did. -/
def Behind (tail rest : Text) : Prop := ∃ t, rest = escapeQuotes t ++ '"' :: ',' :: '\n' :: tail

/-- A string that ends where the script ends it is the subject, or shorter. It may also end earlier. -/
structure ReadSubject (t tail : Text) (units : PyStr) (rest : Text) : Prop where
  ends : rest = ',' :: '\n' :: tail ∨ Behind tail rest
  short : units.length < t.length ∨ units = PyStr.ofText t ∧ ∀ c ∈ t, c ≠ '\\' ∧ 32 ≤ c.toNat

theorem scanUnits_control (hquote : c ≠ '"') (hslash : c ≠ '\\') (hcontrol : ¬ 32 ≤ c.toNat) (t : Text) :
    scanUnits (c :: t) = .error .malformed := by
  rw [scanUnits]
  · rw [if_pos (.inr (by omega))]
  · exact hquote
  · rintro a b c' e rest rfl
    exact absurd rfl hslash
  · rintro c' rest rfl
    exact absurd rfl hslash

theorem ontoOk {d : PyChar} {scanned : Scanned PyStr} (h : onto d scanned = .ok (units, rest)) :
    ∃ s, scanned = .ok (s, rest) ∧ units = d :: s := by
  cases scanned with
  | error e => cases h
  | ok scanned =>
    obtain ⟨s, behind⟩ := scanned
    cases h
    exact ⟨s, rfl, rfl⟩

theorem scanUnits_backslash {w : Text} (h : scanUnits ('\\' :: w) = .ok (units, rest)) :
    (∃ a b c d n w', w = 'u' :: a :: b :: c :: d :: w' ∧ unitOf a b c d = some n ∧ onto (.ofUnit n) (scanUnits w') = .ok (units, rest)) ∨
      ∃ e d w', w = e :: w' ∧ unescape e = some d ∧ onto (.char d) (scanUnits w') = .ok (units, rest) := by
  unfold scanUnits at h
  split at h
  · cases h
  · rename_i heq
    cases heq
  · rename_i a b c d w' heq
    cases heq
    split at h
    · rename_i n hunit
      exact .inl ⟨a, b, c, d, n, w', rfl, hunit, h⟩
    · cases h
  · rename_i e w' _ heq
    cases heq
    split at h
    · rename_i d hunescape
      exact .inr ⟨e, d, w', rfl, hunescape, h⟩
    · cases h
  · rename_i c w' _ _ _ heq
    obtain ⟨rfl, rfl⟩ := List.cons.inj heq
    rw [if_pos (.inl rfl)] at h
    cases h

theorem hex_step {q y : Text} {a : Char} {n : Nat} (heq : escapeQuotes t ++ '"' :: q = a :: y) (ha : hexValue a = some n) :
    ∃ t', t = a :: t' ∧ y = escapeQuotes t' ++ '"' :: q := by
  cases t with
  | nil =>
    cases heq
    cases ha
  | cons c t =>
    by_cases hquote : c = '"'
    · subst hquote
      cases heq
      cases ha
    · rw [escapeQuotes_cons hquote] at heq
      cases heq
      exact ⟨t, rfl, rfl⟩

theorem unitOf_spec {a b c d : Char} {n : Nat} (h : unitOf a b c d = some n) :
    (∃ k, hexValue a = some k) ∧ (∃ k, hexValue b = some k) ∧ (∃ k, hexValue c = some k) ∧ ∃ k, hexValue d = some k := by
  unfold unitOf at h
  obtain ⟨i, hi, h⟩ := Option.bind_eq_some_iff.mp h
  obtain ⟨j, hj, h⟩ := Option.bind_eq_some_iff.mp h
  obtain ⟨k, hk, h⟩ := Option.bind_eq_some_iff.mp h
  obtain ⟨l, hl, h⟩ := Option.bind_eq_some_iff.mp h
  exact ⟨⟨i, hi⟩, ⟨j, hj⟩, ⟨k, hk⟩, ⟨l, hl⟩⟩

/-- Four hexadecimal digits come from the subject. -/
theorem hex_steps {q y : Text} {a b c d : Char} {n : Nat} (heq : escapeQuotes t ++ '"' :: q = a :: b :: c :: d :: y)
    (h : unitOf a b c d = some n) : ∃ t', t = a :: b :: c :: d :: t' ∧ y = escapeQuotes t' ++ '"' :: q := by
  obtain ⟨⟨i, hi⟩, ⟨j, hj⟩, ⟨k, hk⟩, ⟨l, hl⟩⟩ := unitOf_spec h
  obtain ⟨t₁, ht₁, heq₁⟩ := hex_step heq hi
  obtain ⟨t₂, ht₂, heq₂⟩ := hex_step heq₁.symm hj
  obtain ⟨t₃, ht₃, heq₃⟩ := hex_step heq₂.symm hk
  obtain ⟨t₄, ht₄, heq₄⟩ := hex_step heq₃.symm hl
  exact ⟨t₄, by rw [ht₁, ht₂, ht₃, ht₄], heq₄⟩

/-- An escape of the subject gives one character for several. -/
theorem ReadSubject.escape {t' : Text} {d : PyChar} (h : ReadSubject t tail units rest) (hlt : t.length + 1 < t'.length) :
    ReadSubject t' tail (d :: units) rest := by
  refine ⟨h.ends, .inl ?_⟩
  rw [List.length_cons]
  rcases h.short with hshort | ⟨rfl, -⟩
  · omega
  · rw [PyStr.ofText, List.length_map]
    exact hlt

theorem ReadSubject.cons (h : ReadSubject t tail units rest) (hc : c ≠ '\\' ∧ 32 ≤ c.toNat) :
    ReadSubject (c :: t) tail (.char c :: units) rest := by
  refine ⟨h.ends, ?_⟩
  rcases h.short with hshort | ⟨rfl, hplain⟩
  · exact .inl (Nat.succ_lt_succ hshort)
  · exact .inr ⟨rfl, List.forall_mem_cons.mpr ⟨hc, hplain⟩⟩

theorem scanUnits_subject (t tail : Text) {units : PyStr} {rest : Text}
    (h : scanUnits (escapeQuotes t ++ '"' :: ',' :: '\n' :: tail) = .ok (units, rest)) : ReadSubject t tail units rest := by
  induction hlen : t.length using Nat.strongRecOn generalizing t units rest with
  | ind n ih =>
    subst hlen
    cases t with
    | nil =>
      cases h
      exact ⟨.inl rfl, .inr ⟨rfl, by simp⟩⟩
    | cons c t =>
      by_cases hquote : c = '"'
      · subst hquote
        rw [escapeQuotes_quote, List.cons_append, List.cons_append, scanUnits_letter (by rfl)] at h
        obtain ⟨s, hs, rfl⟩ := ontoOk h
        exact (ih t.length (by simp) t hs rfl).cons (by decide)
      rw [escapeQuotes_cons hquote, List.cons_append] at h
      by_cases hslash : c = '\\'
      · subst hslash
        rcases scanUnits_backslash h with ⟨a, b, c, d, n, w, hw, hunit, h⟩ | ⟨e, d, w, hw, hunescape, h⟩
        · -- `\uXXXX`
          obtain ⟨s, hs, rfl⟩ := ontoOk h
          cases t with
          | nil => cases hw
          | cons u t =>
            by_cases hu : u = '"'
            · subst hu
              cases hw
            rw [escapeQuotes_cons hu, List.cons_append] at hw
            obtain ⟨hname, hdigits⟩ := List.cons.inj hw
            obtain ⟨t, rfl, rfl⟩ := hex_steps hdigits hunit
            exact (ih t.length (by simp only [List.length_cons]; omega) t hs rfl).escape (by simp)
        · obtain ⟨s, hs, rfl⟩ := ontoOk h
          cases t with
          | nil =>
            -- the escape takes the closing quote, and the line ends inside the string
            cases hw
            cases hs
          | cons u t =>
            by_cases hu : u = '"'
            · -- the escape takes the backslash of the quote, which ends the string
              subst hu
              rw [escapeQuotes_quote] at hw
              cases hw
              cases hs
              exact ⟨.inr ⟨t, rfl⟩, .inl (by simp)⟩
            · rw [escapeQuotes_cons hu] at hw
              cases hw
              exact (ih t.length (by simp only [List.length_cons]; omega) t hs rfl).escape (by simp)
      · by_cases hcontrol : 32 ≤ c.toNat
        · rw [scanUnits_plain hquote hslash hcontrol] at h
          obtain ⟨s, hs, rfl⟩ := ontoOk h
          exact (ih t.length (by simp) t hs rfl).cons ⟨hslash, hcontrol⟩
        · rw [scanUnits_control hquote hslash hcontrol] at h
          cases h

end

/-! ## The lines of the record -/

section

variable {nested : Option (Text → Scanned JsonValue)} {value : Text → Scanned JsonValue} {item : JsonValue} {raw t tail rest : Text} {n : Nat}
  {key : String} {deployed : Deployed}

theorem isPlain_iff : IsPlain t ↔ '"' ∉ t ∧ ∀ c ∈ t, c ≠ '\\' ∧ 32 ≤ c.toNat := by
  constructor
  · intro h
    exact ⟨fun hquote => (h _ hquote).1 rfl, fun c hc => (h c hc).2⟩
  · rintro ⟨hquote, h⟩ c hc
    exact ⟨fun heq => hquote (heq ▸ hc), h c hc⟩

theorem scanString_plain (h : IsPlain t) (rest : Text) : scanString (t ++ '"' :: rest) = .ok (PyStr.ofText t, rest) := by
  obtain ⟨hquote, hplain⟩ := isPlain_iff.mp h
  have hscan := scanString_escapeQuotes hplain rest
  rwa [escapeQuotes_eq hquote] at hscan

/-- What stands behind a colon is read, whatever stands behind its comma. -/
def ReadsRaw (value : Text → Scanned JsonValue) (raw : Text) (item : JsonValue) : Prop :=
  ∀ rest, value (skipBlanks (' ' :: (raw ++ ',' :: rest))) = .ok (item, ',' :: rest)

theorem readsRaw_string (h : IsPlain t) : ReadsRaw (scanValue nested) (betweenQuotes t) (.str (PyStr.ofText t)) := by
  intro rest
  have htext : skipBlanks (' ' :: (betweenQuotes t ++ ',' :: rest)) = '"' :: (t ++ '"' :: ',' :: rest) := by
    simp [betweenQuotes, skipBlanks, isJsonBlank]
  rw [htext, scanValue, scanString_plain h]
  rfl

theorem readsRaw_int (n : PyInt) : ReadsRaw (scanValue nested) n.toText (.int n) := by
  intro rest
  obtain ⟨number, hnumber, hvalue⟩ := scanNumber_int n (follows_comma rest)
  have hread : scanValue nested (n.toText ++ ',' :: rest) = .ok (.int n, ',' :: rest) := by
    rw [scanValue_number hnumber, hvalue]
    rfl
  show scanValue nested (skipBlanks (n.toText ++ ',' :: rest)) = _
  rw [skipBlanks_of_scanValue hread, hread]

theorem scanFields_line (hkey : IsPlain (lit key)) (h : ReadsRaw value raw item) (n : Nat) (rest : Text) :
    scanFields value (n + 1) (skipBlanks (recordLine key raw ++ rest)) =
      (scanFields value n (skipBlanks rest)).map fun (fields, rest) => ((PyStr.ofText (lit key), item) :: fields, rest) := by
  have htext : skipBlanks (recordLine key raw ++ rest) = '"' :: (lit key ++ '"' :: ':' :: ' ' :: (raw ++ ',' :: '\n' :: rest)) := by
    simp [recordLine, skipBlanks, isJsonBlank]
  rw [htext, scanFields_more (scanString_plain hkey _) rfl (h _) rfl]
  rfl

theorem duration_lt_digits (deployed : Deployed) : Int.natAbs deployed.duration < 10 ^ intMaxStrDigits := by
  have hdigits : 10 ^ 19 ≤ 10 ^ intMaxStrDigits := Nat.pow_le_pow_right (by decide) (by decide)
  have hlt := deployed.duration_lt
  rw [Int.natAbs_natCast]
  omega

def durationInt (deployed : Deployed) : PyInt := ⟨deployed.duration, duration_lt_digits deployed⟩

theorem toText_durationInt (deployed : Deployed) : (durationInt deployed).toText = Nat.toDigits 10 deployed.duration := by
  unfold PyInt.toText durationInt
  rw [if_neg (by simp)]
  rfl

/-- What the lines in front of the subject hold. -/
def firstFields (deployed : Deployed) : Fields :=
  [(PyStr.ofText (lit "status"), .str (PyStr.ofText (lit "success"))),
    (PyStr.ofText (lit "target_branch"), .str (PyStr.ofText deployed.targetBranch)),
    (PyStr.ofText (lit "deployed_version"), .str (PyStr.ofText ('v' :: deployed.deployedVersion))),
    (PyStr.ofText (lit "deployed_commit"), .str (PyStr.ofText deployed.deployedCommit)),
    (PyStr.ofText (lit "deployed_commit_short"), .str (PyStr.ofText (deployed.deployedCommit.take 7))),
    (PyStr.ofText (lit "deployed_at"), .str (PyStr.ofText deployed.nowIso)),
    (PyStr.ofText (lit "duration_seconds"), .int (durationInt deployed))]

theorem isPlain_of_all (h : t.all (fun c => c != '"' && c != '\\' && 32 ≤ c.toNat) = true) : IsPlain t := by
  intro c hc
  simpa [and_assoc] using List.all_eq_true.mp h c hc

/-- What is put between quotes in the head is plain. -/
theorem Deployed.texts (deployed : Deployed) : IsPlain deployed.targetBranch ∧ IsPlain ('v' :: deployed.deployedVersion) ∧
    IsPlain deployed.deployedCommit ∧ IsPlain (deployed.deployedCommit.take 7) ∧ IsPlain deployed.nowIso := by
  have hplain := deployed.plain
  simp only [List.forall_mem_cons] at hplain
  obtain ⟨hbranch, hversion, hcommit, hnow, -⟩ := hplain
  exact ⟨hbranch, List.forall_mem_cons.mpr ⟨by decide, hversion⟩, hcommit, fun c hc => hcommit c (List.mem_of_mem_take hc), hnow⟩

theorem scanFields_head (deployed : Deployed) (n : Nat) (rest : Text) :
    scanFields (scanValue nested) (n + 7) (skipBlanks (recordHead deployed ++ rest)) =
      (scanFields (scanValue nested) n (skipBlanks rest)).map fun (fields, rest) => (firstFields deployed ++ fields, rest) := by
  obtain ⟨hbranch, hv, hcommit, hshort, hnow⟩ := deployed.texts
  have hduration : ReadsRaw (scanValue nested) (Nat.toDigits 10 deployed.duration) (.int (durationInt deployed)) := by
    rw [← toText_durationInt]
    exact readsRaw_int _
  unfold recordHead
  simp only [List.append_assoc]
  rw [scanFields_line (isPlain_of_all (by decide)) (readsRaw_string (isPlain_of_all (by decide))), scanFields_line (isPlain_of_all (by decide)) (readsRaw_string hbranch),
    scanFields_line (isPlain_of_all (by decide)) (readsRaw_string hv), scanFields_line (isPlain_of_all (by decide)) (readsRaw_string hcommit),
    scanFields_line (isPlain_of_all (by decide)) (readsRaw_string hshort), scanFields_line (isPlain_of_all (by decide)) (readsRaw_string hnow),
    scanFields_line (isPlain_of_all (by decide)) hduration]
  cases scanFields (scanValue nested) n (skipBlanks rest) with
  | error e => rfl
  | ok scanned => rfl

theorem scanFields_end (n : Nat) : scanFields (scanValue nested) (n + 1) (skipBlanks recordEnd) =
    .ok ([(PyStr.ofText (lit "acknowledged"), .bool false)], []) := rfl

/-! ## The line of the subject -/

/-- Behind a string that ended too early comes the closing quote, a backslash, or a character that is neither. -/
theorem Behind.skipBlanks (h : Behind tail rest) : Lib.skipBlanks rest = '"' :: ',' :: '\n' :: tail ∨
    ∃ c rest', Lib.skipBlanks rest = c :: rest' ∧ c ≠ '"' ∧ (c = '\\' ∨ Behind tail rest') := by
  obtain ⟨t, rfl⟩ := h
  induction t with
  | nil => exact .inl rfl
  | cons c t ih =>
    by_cases hquote : c = '"'
    · subst hquote
      exact .inr ⟨'\\', '"' :: (escapeQuotes t ++ '"' :: ',' :: '\n' :: tail), rfl, by decide, .inl rfl⟩
    · rw [escapeQuotes_cons hquote, List.cons_append]
      unfold Lib.skipBlanks at ih ⊢
      by_cases hblank : isJsonBlank c = true
      · rw [List.dropWhile_cons_of_pos hblank]
        exact ih
      · rw [List.dropWhile_cons_of_neg hblank]
        exact .inr ⟨c, _, rfl, hquote, .inr ⟨t, rfl⟩⟩

theorem Behind.skipBlanks_ne_nil (h : Behind tail rest) : Lib.skipBlanks rest ≠ [] := by
  rcases h.skipBlanks with heq | ⟨c, rest', heq, -⟩
  · rw [heq]
    simp
  · rw [heq]
    simp

/-- No field begins behind a string that ended too early. -/
theorem Behind.scanFields (h : Behind tail rest) (n : Nat) {scanned : Fields × Text} :
    Lib.scanFields value n (Lib.skipBlanks rest) ≠ .ok scanned := by
  intro hscan
  cases n with
  | zero =>
    unfold Lib.scanFields at hscan
    cases hscan
  | succ n =>
    rcases h.skipBlanks with heq | ⟨c, rest', heq, hquote, -⟩
    · rw [heq] at hscan
      unfold Lib.scanFields at hscan
      obtain ⟨scannedKey, hkey, -⟩ := ok_of_bind hscan
      cases hkey
    · rw [heq] at hscan
      unfold Lib.scanFields at hscan
      split at hscan
      · rename_i heq'
        cases heq'
        exact hquote rfl
      · cases hscan

/-- What a field that is read was. -/
theorem scanFields_inv {name : PyStr} {t behind : Text} {fields : Fields} (hkey : scanString t = .ok (name, ':' :: ' ' :: behind))
    (h : scanFields value (n + 1) ('"' :: t) = .ok (fields, rest)) :
    ∃ item after, value (skipBlanks behind) = .ok (item, after) ∧
      (skipBlanks after = '\x7d' :: rest ∧ fields = [(name, item)] ∨
        ∃ more others, skipBlanks after = ',' :: more ∧ scanFields value n (skipBlanks more) = .ok (others, rest) ∧
          fields = (name, item) :: others) := by
  unfold scanFields at h
  obtain ⟨⟨name', named⟩, hname, h⟩ := ok_of_bind h
  rw [hkey] at hname
  cases hname
  obtain ⟨⟨item, after⟩, hitem, h⟩ := ok_of_bind h
  refine ⟨item, after, hitem, ?_⟩
  dsimp only at h
  split at h
  · rename_i heq
    cases h
    exact .inl ⟨heq, rfl⟩
  · rename_i more heq
    obtain ⟨⟨others, rest'⟩, hothers, h⟩ := ok_of_bind h
    cases h
    exact .inr ⟨more, others, heq, hothers, rfl⟩
  · cases h

/-- The last two fields. Where the string of the subject ends too early, something is left behind the object. -/
theorem scanFields_subject {fields : Fields}
    (h : scanFields (scanValue nested) (n + 2) (skipBlanks (recordLine "summary" (betweenQuotes (escapeQuotes t)) ++ recordEnd)) =
      .ok (fields, rest)) (hrest : skipBlanks rest = []) :
    ∃ units, fields = [(PyStr.ofText (lit "summary"), .str (units.foldr joinOnto [])), (PyStr.ofText (lit "acknowledged"), .bool false)] ∧
      (units.length < t.length ∨ units = PyStr.ofText t ∧ ∀ c ∈ t, c ≠ '\\' ∧ 32 ≤ c.toNat) := by
  have htext : skipBlanks (recordLine "summary" (betweenQuotes (escapeQuotes t)) ++ recordEnd) =
      '"' :: (lit "summary" ++ '"' :: ':' :: ' ' :: '"' :: (escapeQuotes t ++ '"' :: ',' :: '\n' :: recordEnd)) := by
    simp [recordLine, betweenQuotes, skipBlanks, isJsonBlank]
  rw [htext] at h
  obtain ⟨item, behind, hitem, hafter⟩ := scanFields_inv (scanString_plain (isPlain_of_all (by decide)) _) h
  obtain ⟨⟨x, behind'⟩, hstring, hvalue⟩ := ok_of_map hitem
  cases hvalue
  obtain ⟨⟨units, behind⟩, hunits, hstring⟩ := ok_of_map hstring
  cases hstring
  obtain ⟨hends, hshort⟩ := scanUnits_subject t recordEnd hunits
  rcases hends with rfl | hbehind
  · rcases hafter with ⟨hclose, -⟩ | ⟨after, others, hcomma, hothers, rfl⟩
    · cases hclose
    · cases hcomma
      rw [show skipBlanks ('\n' :: recordEnd) = skipBlanks recordEnd from rfl, scanFields_end] at hothers
      cases hothers
      exact ⟨units, rfl, hshort⟩
  · -- the string ended too early
    rcases hbehind.skipBlanks with heq | ⟨c, after, heq, hquote, hc⟩
    · rcases hafter with ⟨hclose, -⟩ | ⟨after, others, hcomma, -⟩
      · rw [heq] at hclose
        cases hclose
      · rw [heq] at hcomma
        cases hcomma
    · rcases hafter with ⟨hclose, -⟩ | ⟨after', others, hcomma, hothers, -⟩
      · rw [heq] at hclose
        cases hclose
        rcases hc with hc | hc
        · cases hc
        · exact absurd hrest hc.skipBlanks_ne_nil
      · rw [heq] at hcomma
        cases hcomma
        rcases hc with hc | hc
        · cases hc
        · exact absurd hothers (hc.scanFields _)

end

/-! ## The file, as it is read -/

section

variable {deployed : Deployed} {d n : Nat} {t p rest : Text} {units : PyStr}

/-- The document without its last line end. -/
def recordDocument (deployed : Deployed) (json : Text) : Text :=
  '\x7b' :: '\n' :: (recordHead deployed ++ (recordLine "summary" (betweenQuotes json) ++ recordEnd))

theorem loads_recordDocument (deployed : Deployed) (d : Nat) (json : Text) : ∃ m, loads (d + 1) (recordDocument deployed json) = (do
    let (fields, rest) ← scanFields (scanOnce d) (m + 9) (skipBlanks (recordHead deployed ++ (recordLine "summary" (betweenQuotes json) ++ recordEnd)))
    if skipBlanks rest = [] then return .object (Dict.ofList fields).entries else .error .malformed) := by
  obtain ⟨behind, hbehind⟩ : ∃ behind, skipBlanks (recordHead deployed ++ (recordLine "summary" (betweenQuotes json) ++ recordEnd)) =
      '"' :: 's' :: 't' :: 'a' :: 't' :: 'u' :: 's' :: '"' :: ':' :: behind := ⟨_, rfl⟩
  refine ⟨behind.length, ?_⟩
  have hobject : scanOnce (d + 1) (skipBlanks (recordDocument deployed json)) =
      scanObject (scanOnce d) ('\n' :: (recordHead deployed ++ (recordLine "summary" (betweenQuotes json) ++ recordEnd))) := rfl
  have hstart : skipBlanks ('\n' :: (recordHead deployed ++ (recordLine "summary" (betweenQuotes json) ++ recordEnd))) =
      skipBlanks (recordHead deployed ++ (recordLine "summary" (betweenQuotes json) ++ recordEnd)) := rfl
  have hscan : scanObject (scanOnce d) ('\n' :: (recordHead deployed ++ (recordLine "summary" (betweenQuotes json) ++ recordEnd))) =
      (scanFields (scanOnce d) (behind.length + 9) ('"' :: 's' :: 't' :: 'a' :: 't' :: 'u' :: 's' :: '"' :: ':' :: behind)).map
        fun (fields, rest) => (.object (Dict.ofList fields).entries, rest) := by
    unfold scanObject
    rw [hstart, hbehind]
    split
    · rename_i heq
      cases heq
    · rfl
  unfold loads
  rw [hobject, hscan, hbehind]
  cases scanFields (scanOnce d) (behind.length + 9) ('"' :: 's' :: 't' :: 'a' :: 't' :: 'u' :: 's' :: '"' :: ':' :: behind) with
  | error e => rfl
  | ok scanned => rfl

theorem universalNewlines_escapeQuotes (t : Text) : universalNewlines (escapeQuotes t) = escapeQuotes (universalNewlines t) := by
  induction t using newlines_induction with
  | nil => rfl
  | crlf t ih =>
    rw [escapeQuotes_cons (by decide), escapeQuotes_cons (by decide), universalNewlines_crlf, universalNewlines_crlf,
      escapeQuotes_cons (by decide), ih]
  | lone t hnewline ih =>
    rw [escapeQuotes_cons (by decide), universalNewlines_return hnewline, universalNewlines_return, escapeQuotes_cons (by decide), ih]
    intro rest heq
    cases t with
    | nil => cases heq
    | cons c t =>
      by_cases hquote : c = '"'
      · subst hquote
        cases heq
      · rw [escapeQuotes_cons hquote] at heq
        cases heq
        exact hnewline t rfl
  | char c t hreturn ih =>
    by_cases hquote : c = '"'
    · subst hquote
      rw [escapeQuotes_quote, universalNewlines_cons (by decide), universalNewlines_cons (by decide), universalNewlines_cons (by decide),
        escapeQuotes_quote, ih]
    · rw [escapeQuotes_cons hquote, universalNewlines_cons hreturn, universalNewlines_cons hreturn, escapeQuotes_cons hquote, ih]

/-- A text whose lines do not end is read as it is. -/
theorem universalNewlines_eq_of_plain (h : ∀ c ∈ universalNewlines t, c ≠ '\\' ∧ 32 ≤ c.toNat) : universalNewlines t = t := by
  apply universalNewlines_eq
  intro hreturn
  have hnewline := (h '\n' (newline_mem_universalNewlines hreturn)).2
  exact absurd hnewline (by decide)

theorem return_notMem_recordLine {key : String} {raw : Text} (hkey : '\r' ∉ lit key) (hraw : '\r' ∉ raw) : '\r' ∉ recordLine key raw := by
  simp [recordLine, hkey, hraw]

theorem return_notMem_betweenQuotes (h : IsPlain t) : '\r' ∉ betweenQuotes t := by
  have hreturn : '\r' ∉ t := fun hmem => absurd (h _ hmem).2.2 (by decide)
  simp [betweenQuotes, hreturn]

theorem return_notMem_recordHead (deployed : Deployed) : '\r' ∉ recordHead deployed := by
  obtain ⟨hbranch, hv, hcommit, hshort, hnow⟩ := deployed.texts
  have hduration : '\r' ∉ Nat.toDigits 10 deployed.duration := by
    intro hmem
    exact absurd (Nat.isDigit_of_mem_toDigits (by decide) (by decide) hmem) (by decide)
  simp only [recordHead, List.mem_append, not_or]
  exact ⟨return_notMem_recordLine (by decide) (by decide), return_notMem_recordLine (by decide) (return_notMem_betweenQuotes hbranch),
    return_notMem_recordLine (by decide) (return_notMem_betweenQuotes hv), return_notMem_recordLine (by decide) (return_notMem_betweenQuotes hcommit),
    return_notMem_recordLine (by decide) (return_notMem_betweenQuotes hshort), return_notMem_recordLine (by decide) (return_notMem_betweenQuotes hnow),
    return_notMem_recordLine (by decide) hduration⟩

/-- The record, with the subject between what the reader leaves as it is. -/
theorem recordLine_summary (json rest : Text) :
    recordLine "summary" (betweenQuotes json) ++ rest = lit "  \"summary\": \"" ++ (json ++ '"' :: ',' :: '\n' :: rest) := by
  have hkey : ' ' :: ' ' :: '"' :: (lit "summary" ++ ['"', ':', ' ', '"']) = lit "  \"summary\": \"" := by decide
  rw [← hkey]
  simp [recordLine, betweenQuotes]

theorem strip_recordDocument (deployed : Deployed) (json : Text) :
    strip (recordDocument deployed json ++ ['\n']) = recordDocument deployed json := by
  obtain ⟨inner, hinner⟩ : ∃ inner, recordDocument deployed json = '\x7b' :: (inner ++ ['\x7d']) := by
    have hend : recordEnd = lit "  \"acknowledged\": false\n" ++ ['\x7d'] := by decide
    refine ⟨'\n' :: (recordHead deployed ++ (recordLine "summary" (betweenQuotes json) ++ lit "  \"acknowledged\": false\n")), ?_⟩
    rw [recordDocument, hend]
    simp
  rw [hinner, strip, lstrip, List.cons_append, List.dropWhile_cons_of_neg (by decide)]
  have hrstrip : rstrip ['\n'] = [] := by decide
  rw [List.append_assoc, List.cons_append, List.nil_append, ← List.cons_append, rstrip_append_solid (by decide), hrstrip, List.cons_append]

theorem readRaw_recordText (deployed : Deployed) (t : Text) : readRaw (.holds (utf8Encode (recordText deployed (escapeQuotes t)))) =
    .ok (recordDocument deployed (escapeQuotes (universalNewlines t))) := by
  have hfront : '\r' ∉ '\x7b' :: '\n' :: (recordHead deployed ++ lit "  \"summary\": \"") := by
    simp only [List.mem_cons, List.mem_append, not_or]
    exact ⟨by decide, by decide, return_notMem_recordHead deployed, by decide⟩
  have hbehind : '\r' ∉ ',' :: '\n' :: (recordEnd ++ ['\n']) := by decide
  have htext : ∀ json, recordText deployed json =
      '\x7b' :: '\n' :: (recordHead deployed ++ lit "  \"summary\": \"") ++ (json ++ '"' :: ',' :: '\n' :: (recordEnd ++ ['\n'])) := by
    intro json
    rw [recordText, recordLine_summary]
    simp
  have hnewlines : universalNewlines (recordText deployed (escapeQuotes t)) =
      recordDocument deployed (escapeQuotes (universalNewlines t)) ++ ['\n'] := by
    rw [htext, universalNewlines_append_left hfront, universalNewlines_append (by decide) (by decide), universalNewlines_eq hbehind,
      universalNewlines_escapeQuotes, ← htext]
    simp [recordText, recordDocument]
  simp only [readRaw, utf8Decode_utf8Encode, hnewlines, strip_recordDocument]

theorem length_joinOnto (c : PyChar) (s : PyStr) : (joinOnto c s).length ≤ s.length + 1 := by
  unfold joinOnto
  split
  · split <;> simp
  · simp

theorem length_foldr_joinOnto (units : PyStr) : (units.foldr joinOnto []).length ≤ units.length := by
  induction units with
  | nil => simp
  | cons c units ih =>
    have hjoin := length_joinOnto c (units.foldr joinOnto [])
    rw [List.foldr_cons, List.length_cons]
    omega

theorem length_toText? {s : PyStr} (h : s.toText? = some t) : t.length = s.length := by
  induction s generalizing t with
  | nil =>
    cases h
    rfl
  | cons c s ih =>
    cases c with
    | surrogate unit => cases h
    | char c =>
      obtain ⟨t, ht, rfl⟩ := Option.map_eq_some_iff.mp h
      rw [List.length_cons, List.length_cons, ih ht]

theorem field_ofList {fields : Fields} (key : String) (default : JsonValue) :
    field (Dict.ofList fields).entries key default = (lastOf (PyStr.ofText (lit key)) fields).getD default := by
  unfold field
  rw [← Dict.get?_ofList]
  rfl

/-- What the record holds with a text for the subject. -/
def recordFields (deployed : Deployed) (x : PyStr) : Fields :=
  (Dict.ofList (firstFields deployed ++ [(PyStr.ofText (lit "summary"), .str x), (PyStr.ofText (lit "acknowledged"), .bool false)])).entries

theorem summaryValue_recordFields (deployed : Deployed) (x : PyStr) : summaryValue (recordFields deployed x) = .str x := by
  rw [summaryValue, recordFields, field_ofList]
  rfl

theorem plain_ofText (t : Text) : Plain (.str (PyStr.ofText t)) := by
  rw [Plain, toText?_ofText]
  simp

theorem convertible_recordFields [Unicode] (limits : Limits) (deployed : Deployed) (t : Text) :
    Convertible limits (recordFields deployed (PyStr.ofText t)) := by
  have hbranch : field (recordFields deployed (PyStr.ofText t)) "target_branch" (textValue "main") =
      .str (PyStr.ofText deployed.targetBranch) := by rw [recordFields, field_ofList]; rfl
  have hversion : field (recordFields deployed (PyStr.ofText t)) "deployed_version" .null =
      .str (PyStr.ofText ('v' :: deployed.deployedVersion)) := by rw [recordFields, field_ofList]; rfl
  have hcommit : field (recordFields deployed (PyStr.ofText t)) "deployed_commit" (textValue "unknown") =
      .str (PyStr.ofText deployed.deployedCommit) := by rw [recordFields, field_ofList]; rfl
  have hshort : field (recordFields deployed (PyStr.ofText t)) "deployed_commit_short" (textValue "unknown") =
      .str (PyStr.ofText (deployed.deployedCommit.take 7)) := by rw [recordFields, field_ofList]; rfl
  have hat : field (recordFields deployed (PyStr.ofText t)) "deployed_at" (textValue "") =
      .str (PyStr.ofText deployed.nowIso) := by rw [recordFields, field_ofList]; rfl
  have hduration : durationValue (recordFields deployed (PyStr.ofText t)) = .int (durationInt deployed) := by
    rw [durationValue, recordFields, field_ofList]
    rfl
  have htext : ∀ u, (JsonValue.str (PyStr.ofText u)).depth ≤ limits.repr ∧ Plain (.str (PyStr.ofText u)) :=
    fun u => ⟨Nat.zero_le _, plain_ofText u⟩
  refine ⟨?_, ⟨_, by rw [hduration]; rfl⟩, ?_⟩
  · simp only [earlyTexts, List.forall_mem_cons, hbranch, hversion, hcommit, hshort, hat]
    exact ⟨htext _, htext _, htext _, htext _, htext _, by simp⟩
  · rw [summaryValue_recordFields]
    exact htext t

theorem scanOnce_fields (d n : Nat) (deployed : Deployed) (rest : Text) :
    scanFields (scanOnce d) (n + 7) (skipBlanks (recordHead deployed ++ rest)) =
      (scanFields (scanOnce d) n (skipBlanks rest)).map fun (fields, rest) => (firstFields deployed ++ fields, rest) := by
  obtain ⟨nested, hnested⟩ := scanOnce_eq d
  rw [hnested]
  exact scanFields_head deployed n rest

/-- A plain text stands in the record as the value of its field. -/
theorem loads_plain (h : ∀ c ∈ t, c ≠ '\\' ∧ 32 ≤ c.toNat) (deployed : Deployed) (d : Nat) :
    loads (d + 1) (recordDocument deployed (escapeQuotes t)) = .ok (.object (recordFields deployed (PyStr.ofText t))) := by
  obtain ⟨m, hloads⟩ := loads_recordDocument deployed d (escapeQuotes t)
  have hline : scanFields (scanOnce d) (m + 2) (skipBlanks (recordLine "summary" (betweenQuotes (escapeQuotes t)) ++ recordEnd)) =
      .ok ([(PyStr.ofText (lit "summary"), .str (PyStr.ofText t)), (PyStr.ofText (lit "acknowledged"), .bool false)], []) := by
    obtain ⟨nested, hnested⟩ := scanOnce_eq d
    have hraw : ReadsRaw (scanValue nested) (betweenQuotes (escapeQuotes t)) (.str (PyStr.ofText t)) := by
      intro rest
      have htext : skipBlanks (' ' :: (betweenQuotes (escapeQuotes t) ++ ',' :: rest)) = '"' :: (escapeQuotes t ++ '"' :: ',' :: rest) := by
        simp [betweenQuotes, skipBlanks, isJsonBlank]
      rw [htext, scanValue, scanString_escapeQuotes h]
      rfl
    rw [hnested, scanFields_line (isPlain_of_all (by decide)) hraw, scanFields_end]
    rfl
  rw [hloads, scanOnce_fields, hline]
  rfl

/-- Another text is not read, or gives a shorter one. -/
theorem loads_other {v : JsonValue} (h : loads (d + 1) (recordDocument deployed (escapeQuotes t)) = .ok v) :
    ∃ units : PyStr, v = .object (recordFields deployed (units.foldr joinOnto [])) ∧
      (units.length < t.length ∨ units = PyStr.ofText t ∧ ∀ c ∈ t, c ≠ '\\' ∧ 32 ≤ c.toNat) := by
  obtain ⟨m, hloads⟩ := loads_recordDocument deployed d (escapeQuotes t)
  rw [hloads, scanOnce_fields] at h
  obtain ⟨⟨fields, rest⟩, hfields, h⟩ := ok_of_bind h
  obtain ⟨⟨last, rest'⟩, hlast, heq⟩ := ok_of_map hfields
  cases heq
  dsimp only at h
  split at h
  · rename_i hrest
    cases h
    obtain ⟨nested, hnested⟩ := scanOnce_eq d
    rw [hnested] at hlast
    obtain ⟨units, rfl, hunits⟩ := scanFields_subject hlast hrest
    exact ⟨units, rfl, hunits⟩
  · cases h

theorem summary_of_summaryOf [Unicode] {isPrintable : Char → Bool} {limits : Limits} {fields : Fields} {x : PyStr} {summary : PostUpdateSummary}
    (hvalue : summaryValue fields = .str x) (h : summaryOf isPrintable limits fields = .ok summary) : x.toText? = some summary.summary := by
  obtain ⟨arguments, harguments, h⟩ := ok_of_bind h
  -- the argument is the string
  have hargument : arguments.summary = x := by
    obtain ⟨s₁, -, h₁⟩ := ok_of_bind harguments
    obtain ⟨s₂, -, h₂⟩ := ok_of_bind h₁
    obtain ⟨s₃, -, h₃⟩ := ok_of_bind h₂
    obtain ⟨s₄, -, h₄⟩ := ok_of_bind h₃
    obtain ⟨s₅, -, h₅⟩ := ok_of_bind h₄
    obtain ⟨n, -, h₆⟩ := ok_of_bind h₅
    obtain ⟨s₆, hs₆, h₇⟩ := ok_of_bind h₆
    unfold summaryValue at hvalue
    rw [hvalue] at hs₆
    cases hs₆
    cases h₇
    rfl
  -- the validated field is its text
  obtain ⟨t₁, -, h₁⟩ := ok_of_bind h
  obtain ⟨t₂, -, h₂⟩ := ok_of_bind h₁
  obtain ⟨t₃, -, h₃⟩ := ok_of_bind h₂
  obtain ⟨t₄, -, h₄⟩ := ok_of_bind h₃
  obtain ⟨t₅, -, h₅⟩ := ok_of_bind h₄
  obtain ⟨t₆, ht₆, h₆⟩ := ok_of_bind h₅
  cases h₆
  rw [hargument, validText] at ht₆
  split at ht₆
  · rename_i t htext
    cases ht₆
    exact htext
  · cases ht₆

/-- What `echo` prints of a message of one line, before its line end. -/
def printedMsg (t : Text) : Text := if isEchoOption t then [] else t

theorem substituted_escapeQuotes (h : '\n' ∉ t) : substituted (escapeQuotes (t ++ ['\n'])) = escapeQuotes t := by
  have hlast : '\n' ∉ escapeQuotes t := by
    intro hmem
    obtain ⟨c, hc, hmem⟩ := List.mem_flatMap.mp hmem
    split at hmem
    · simp at hmem
    · rw [List.mem_singleton] at hmem
      exact h (hmem ▸ hc)
  have htext : escapeQuotes (t ++ ['\n']) = escapeQuotes t ++ ['\n'] := by
    rw [escapeQuotes, List.flatMap_append]
    rfl
  rw [htext, substituted, List.reverse_append, List.reverse_cons, List.reverse_nil, List.nil_append, List.singleton_append,
    List.dropWhile_cons_of_pos (by rfl)]
  cases hreverse : (escapeQuotes t).reverse with
  | nil => simpa using hreverse
  | cons c reversed =>
    have hc : c ≠ '\n' := by
      rintro rfl
      exact hlast (by rw [← List.mem_reverse, hreverse]; exact List.mem_cons_self)
    rw [List.dropWhile_cons_of_neg (by simpa using hc), ← hreverse, List.reverse_reverse]

theorem commitMsgJson_eq (subject : CommitSubject) : commitMsgJson subject.text = escapeQuotes (printedMsg (commitMsg subject.text)) := by
  have hline : '\n' ∉ commitMsg subject.text := by
    unfold commitMsg
    split
    · exact subject.oneLine
    · decide
  unfold commitMsgJson echo printedMsg
  by_cases hoption : isEchoOption (commitMsg subject.text) = true
  · rw [if_pos hoption, if_pos hoption]
    split <;> rfl
  · rw [if_neg hoption, if_neg hoption, substituted_escapeQuotes hline]

end

/-! ## The round trip -/

section

variable [Unicode] {isPrintable : Char → Bool} {limits : Limits} {deployed : Deployed} {d e r : Nat} {t : Text}

theorem getLastUpdateSummary_recordText (isPrintable : Char → Bool) (limits : Limits) (deployed : Deployed) (t : Text)
    {fields : Fields} (hload : loads limits.decode (recordDocument deployed (escapeQuotes (universalNewlines t))) = .ok (.object fields)) :
    readSummary isPrintable limits (.holds (utf8Encode (recordText deployed (escapeQuotes t)))) = some <$> summaryOf isPrintable limits fields := by
  rw [readSummary_of_raw (readRaw_recordText deployed t) (by simp [recordDocument]), loadsRecord, hload]
  rfl

/-- A plain text is the summary that is read. -/
theorem getLastUpdateSummary_plain (h : ∀ c ∈ t, c ≠ '\\' ∧ 32 ≤ c.toNat) (isPrintable : Char → Bool) (deployed : Deployed) :
    ∃ summary, getLastUpdateSummary isPrintable ⟨d + 1, e, r⟩ (.holds (utf8Encode (recordText deployed (escapeQuotes t)))) = .ok (some summary) ∧
      summary.summary = t := by
  have hreturn : universalNewlines t = t := universalNewlines_eq fun hmem => absurd (h _ hmem).2 (by decide)
  have hload := loads_plain h deployed d
  have hread := getLastUpdateSummary_recordText isPrintable ⟨d + 1, e, r⟩ deployed t (by rw [hreturn]; exact hload)
  have hconvertible := convertible_recordFields ⟨d + 1, e, r⟩ deployed t
  rcases summaryOf_cases isPrintable ⟨d + 1, e, r⟩ (recordFields deployed (PyStr.ofText t)) with
    ⟨-, summary, hsummary⟩ | ⟨-, hnot, -⟩ | ⟨hnot, -⟩
  · have htext := summary_of_summaryOf (summaryValue_recordFields deployed (PyStr.ofText t)) hsummary
    rw [toText?_ofText, Option.some.injEq] at htext
    rw [hsummary] at hread
    exact ⟨summary, by simp only [getLastUpdateSummary, hread]; rfl, htext.symm⟩
  · exact absurd hconvertible hnot
  · exact absurd hconvertible.harmless hnot

/-- Another text is not read, or the summary is shorter. -/
theorem getLastUpdateSummary_other {summary : PostUpdateSummary}
    (h : getLastUpdateSummary isPrintable ⟨d + 1, e, r⟩ (.holds (utf8Encode (recordText deployed (escapeQuotes t)))) = .ok (some summary)) :
    summary.summary.length < t.length ∨ ∀ c ∈ t, c ≠ '\\' ∧ 32 ≤ c.toNat := by
  have hget := readSummary_of_get h
  cases hload : loads (d + 1) (recordDocument deployed (escapeQuotes (universalNewlines t))) with
  | error error =>
    rw [readSummary_of_raw (readRaw_recordText deployed t) (by simp [recordDocument]), loadsRecord, hload] at hget
    cases hget
  | ok v =>
    obtain ⟨units, rfl, hunits⟩ := loads_other hload
    rw [getLastUpdateSummary_recordText isPrintable ⟨d + 1, e, r⟩ deployed t hload] at hget
    obtain ⟨summary', hsummary, heq⟩ := ok_of_map hget
    cases heq
    have htext := length_toText? (summary_of_summaryOf (summaryValue_recordFields deployed _) hsummary)
    have hjoined := length_foldr_joinOnto units
    have hnewlines := length_universalNewlines t
    rcases hunits with hshort | ⟨-, hplain⟩
    · exact .inl (by omega)
    · rw [universalNewlines_eq_of_plain hplain] at hplain
      exact .inr hplain

/-- **Round trip.** The portal reads the subject that the script wrote exactly where the script leaves it as it is and it has neither a
backslash nor a control character. -/
theorem subject_read_iff (isPrintable : Char → Bool) (d e r : Nat) (deployed : Deployed) (subject : CommitSubject) :
    (∃ summary, getLastUpdateSummary isPrintable ⟨d + 1, e, r⟩ (deployedRecord deployed subject) = .ok (some summary) ∧
      summary.summary = subject.text) ↔ SurvivesScript subject := by
  unfold deployedRecord
  rw [commitMsgJson_eq]
  constructor
  · rintro ⟨summary, hget, hsummary⟩
    by_cases hempty : subject.text = []
    · -- the default message is read instead
      have hprinted : printedMsg (commitMsg subject.text) = lit "Upstream update deployed successfully" := by
        rw [hempty]
        decide
      have hplain : ∀ c ∈ lit "Upstream update deployed successfully", c ≠ '\\' ∧ 32 ≤ c.toNat :=
        fun c hc => (isPlain_of_all (by decide) c hc).2
      rw [hprinted] at hget
      obtain ⟨default, hdefault, htext⟩ := getLastUpdateSummary_plain (d := d) (e := e) (r := r) hplain isPrintable deployed
      rw [hget] at hdefault
      cases hdefault
      rw [hsummary, hempty] at htext
      exact absurd htext (by decide)
    · have hmsg : commitMsg subject.text = subject.text := if_pos hempty
      rw [hmsg] at hget
      unfold printedMsg at hget
      by_cases hoption : isEchoOption subject.text = true
      · -- `echo` prints nothing
        rw [if_pos hoption] at hget
        obtain ⟨printed, hprinted, htext⟩ := getLastUpdateSummary_plain (d := d) (e := e) (r := r) (t := []) (by simp) isPrintable deployed
        rw [hget] at hprinted
        cases hprinted
        exact absurd (hsummary.symm.trans htext) hempty
      · rw [if_neg hoption] at hget
        rcases getLastUpdateSummary_other hget with hshort | hplain
        · rw [hsummary] at hshort
          omega
        · exact ⟨hempty, by simpa using hoption, hplain⟩
  · rintro ⟨hempty, hoption, hplain⟩
    have hprinted : printedMsg (commitMsg subject.text) = subject.text := by
      rw [commitMsg, if_pos hempty, printedMsg, if_neg (by simp [hoption])]
    rw [hprinted]
    exact getLastUpdateSummary_plain hplain isPrintable deployed

end

theorem unknownCommit_plain : ∀ t ∈ [lit "main", lit "0.4.1", lit "unknown", lit "2026-01-31T12:00:00Z"], IsPlain t := by
  simp only [List.forall_mem_cons]
  exact ⟨isPlain_of_all (by decide), isPlain_of_all (by decide), isPlain_of_all (by decide), isPlain_of_all (by decide), by simp⟩

theorem unknownCommit_duration : 42 < 2 ^ 63 := by decide

def unknownCommit : Deployed where
  targetBranch := lit "main"
  deployedVersion := lit "0.4.1"
  deployedCommit := lit "unknown"
  nowIso := lit "2026-01-31T12:00:00Z"
  duration := 42
  plain := unknownCommit_plain
  duration_lt := unknownCommit_duration

/-- A backslash and an `n` are read as a line end. -/
theorem backslash_lost : ¬ ∃ summary,
    @getLastUpdateSummary Unicode.ascii Char.isAlphanum ⟨990, 990, 990⟩ (deployedRecord unknownCommit ⟨['\\', 'n'], by decide, by decide⟩) =
      .ok (some summary) ∧ summary.summary = ['\\', 'n'] := by
  rintro ⟨summary, hget, hsummary⟩
  rcases @getLastUpdateSummary_other Unicode.ascii Char.isAlphanum unknownCommit 989 990 990 ['\\', 'n'] summary hget with hshort | hplain
  · rw [hsummary] at hshort
    exact absurd hshort (by decide)
  · exact absurd (hplain '\\' (by simp)).1 (by decide)

end Palworld.Update

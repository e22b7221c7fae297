import Palworld.Lib.Regex
import Palworld.Logs.Scraper

/-!
# The secret scanner

`scan_file` of `scan_secrets.py`. Of each line and each pattern it looks at the first match
only, and at the whole of it where it looks for placeholders.
-/

open Lib Palworld.Logs

namespace Palworld.Secrets

/-! ## Placeholders and patterns -/

def safeAllowlist : List Text :=
  ["admin_password", "test_password", "your_duckdns_token", "your_subdomain", "yourdomain.duckdns.org",
    "https://discord.com/api/webhooks/12345/abcdef", "5b834ae0-822a-439f-b087-9ac42a16ac63", "MySecretPassword123",
    "SecureAdminPassword123", "SecretPassword123", "HackedPassword", "dXNlcjpwYXNz", "[REDACTED]",
    "[REDACTED_UUID]"].map lit

/-- A pattern with its only group, where it has one. -/
abbrev Pattern := Re (Option Text)

/-- `[A-Za-z0-9_]`. -/
def isTokenChar (c : Char) : Bool := c.isAlphanum || c == '_'

/-- `[A-Za-z0-9_-]`. -/
def isWebhookChar (c : Char) : Bool := c.isAlphanum || c == '_' || c == '-'

/-- `[0-9A-Z]`. -/
def isKeyIdChar (c : Char) : Bool := c.isDigit || c.isUpper

section

variable [Unicode]

def discordWebhook : Pattern := do
  let _ ← Re.word id (lit "https://")
  let _ ← Re.orEmpty (Re.oneOf id [lit "ptb.", lit "canary."])
  let _ ← Re.word id (lit "discord")
  let _ ← Re.orEmpty (Re.word id (lit "app"))
  let _ ← Re.word id (lit ".com/api/webhooks/")
  let _ ← Re.between (fun c => (Unicode.digit c).isSome) 17 20
  let _ ← Re.word id (lit "/")
  let _ ← Re.atLeast isWebhookChar 60
  return none

def githubToken : Pattern := do
  let _ ← Re.oneOf id [lit "ghp", lit "gho", lit "ghu", lit "ghs", lit "ghr"]
  let _ ← Re.word id (lit "_")
  let _ ← Re.between isTokenChar 36 255
  return none

def privateKey : Pattern := do
  let _ ← Re.word id (lit "-----BEGIN ")
  let _ ← Re.orEmpty (Re.oneOf id [lit "RSA ", lit "EC ", lit "DSA ", lit "OPENSSH "])
  let _ ← Re.word id (lit "PRIVATE KEY-----")
  return none

def awsKey : Pattern := do
  let _ ← Re.oneOf id [lit "AKIA", lit "ABIA", lit "ACCA", lit "ASIA"]
  let _ ← Re.exactly isKeyIdChar 16
  return none

/-- `[0-9a-fA-F]{8}-[0-9a-fA-F]{4}-[0-9a-fA-F]{4}-[0-9a-fA-F]{4}-[0-9a-fA-F]{12}`. -/
def uuidText : Re Text := do
  let a ← Re.exactly isHex 8
  let _ ← Re.word id ['-']
  let b ← Re.exactly isHex 4
  let _ ← Re.word id ['-']
  let c ← Re.exactly isHex 4
  let _ ← Re.word id ['-']
  let d ← Re.exactly isHex 4
  let _ ← Re.word id ['-']
  let e ← Re.exactly isHex 12
  return ['-'].intercalate [a, b, c, d, e]

/-- `(?i)duckdns.*token\s*[:=]\s*["']?(...)["']?`. -/
def duckdnsToken : Pattern := do
  let _ ← Re.word foldCase (lit "duckdns")
  let _ ← Re.many (· != '\n')
  let _ ← Re.word foldCase (lit "token")
  let _ ← Re.many isSpace
  let _ ← Re.char isSep
  let _ ← Re.many isSpace
  let _ ← Re.orEmpty (Re.char isQuote)
  let token ← uuidText
  let _ ← Re.orEmpty (Re.char isQuote)
  return some token

/-- `(?i)(?:admin_password|...)\s*[:=]\s*["']([^"'\s,]{8,})["']`. -/
def passwordAssignment : Pattern := do
  let _ ← Re.oneOf foldCase [lit "admin_password", lit "server_password", lit "adminpassword", lit "serverpassword"]
  let _ ← Re.many isSpace
  let _ ← Re.char isSep
  let _ ← Re.many isSpace
  let _ ← Re.char isQuote
  let value ← Re.atLeast isValueChar 8
  let _ ← Re.char isQuote
  return some value

def secretPatterns : List (Text × Pattern) :=
  [(lit "Live Discord Webhook Token", discordWebhook), (lit "GitHub Personal Access Token", githubToken),
    (lit "Generic Private Key Block", privateKey), (lit "AWS Access Key ID / Secret", awsKey),
    (lit "Hardcoded DuckDNS Live Token", duckdnsToken),
    (lit "Hardcoded Admin / Join Password Assignment", passwordAssignment)]

end

/-! ## The scan -/

/-- A match: `group(0)`, and `group(1)` where the pattern has a group. -/
structure Found where
  whole : Text
  group : Option Text
  deriving DecidableEq

/-- The captured value, or the whole match. -/
def Found.secret (m : Found) : Text := m.group.getD m.whole

/-- The matches that begin where a text begins, in the order in which they are tried. -/
def matchesFrom (pattern : Pattern) (s : Text) : List Found :=
  (pattern s).map fun m => ⟨s.take (s.length - m.2.length), m.1⟩

/-- `pattern.search`. -/
def search (pattern : Pattern) (line : Text) : Option Found := line.tails.findSome? fun s => (matchesFrom pattern s).head?

def isSafe (matched : Text) : Bool := safeAllowlist.any fun safe => isSubstring safe matched || isSubstring matched safe

def violationMark (path : Text) (lineNo : Nat) : Text := path ++ ':' :: (Nat.toDigits 10 lineNo ++ lit " -> [")

def violation (path : Text) (lineNo : Nat) (label matched : Text) : Text :=
  violationMark path lineNo ++ label ++ lit "] Potential secret found: '" ++ matched.take 4 ++ lit "..." ++
    matched.drop (matched.length - 4) ++ lit "'"

/-- A file under the root. A text is what `read_text` decodes, before its newlines are translated. -/
inductive ScannedText
  | forbidden (err : Text)
  | unreadable (err : Text)
  | content (text : Text)

def lines (text : Text) : List Text := splitlines ⟨universalNewlines text, return_notMem_universalNewlines text⟩

section

variable [Unicode]

def scanLine (path : Text) (lineNo : Nat) (line : Text) : List Text :=
  secretPatterns.filterMap fun entry =>
    match search entry.2 line with
    | none => none
    | some m => if isSafe m.whole then none else some (violation path lineNo entry.1 m.whole)

def scanFile (path : Text) : ScannedText → List Text
  | .forbidden err => [path ++ lit ": Permission denied: " ++ err]
  | .unreadable err => [path ++ lit ": OS error: " ++ err]
  | .content text => ((lines text).zipIdx 1).flatMap fun numbered => scanLine path numbered.2 numbered.1

end

/-! ## What is reported -/

/-- The pattern matches somewhere in the line, in one of its ways. -/
def Matches (pattern : Pattern) (line : Text) (m : Found) : Prop := ∃ s, s <:+ line ∧ m ∈ matchesFrom pattern s

/-- Some violation is about this line of the file. -/
def Reports (path : Text) (lineNo : Nat) (violations : List Text) : Prop := ∃ v ∈ violations, violationMark path lineNo <+: v

theorem search_matches {pattern : Pattern} {line : Text} {m : Found} (h : search pattern line = some m) :
    Matches pattern line m := by
  obtain ⟨s, hs, hm⟩ := List.exists_of_findSome?_eq_some h
  exact ⟨s, (List.mem_tails s line).mp hs, List.mem_of_mem_head? hm⟩

theorem isSafe_eq_false {matched : Text} :
    isSafe matched = false ↔ ∀ safe ∈ safeAllowlist, ¬ safe <:+: matched ∧ ¬ matched <:+: safe := by
  simp only [isSafe, List.any_eq_false, Bool.or_eq_true, not_or, isSubstring_iff]

/-- A violation says which line it is about. -/
theorem violationMark_lineNo {path label matched : Text} {n k : Nat}
    (h : violationMark path n <+: violation path k label matched) : n = k := by
  obtain ⟨tail, htail⟩ := h
  have hdigits : ∀ j, ∀ c ∈ Nat.toDigits 10 j, c.isDigit = true :=
    fun j c hc => Nat.isDigit_of_mem_toDigits (by decide) (by decide) hc
  have hread : ∀ j rest, (Nat.toDigits 10 j ++ ' ' :: rest).takeWhile Char.isDigit = Nat.toDigits 10 j := by
    intro j rest
    rw [List.takeWhile_append_of_pos (hdigits j), List.takeWhile_cons_of_neg (by decide), List.append_nil]
  have hblank : lit " -> [" = ' ' :: lit "-> [" := rfl
  simp only [violation, violationMark, hblank, List.append_assoc, List.cons_append, List.append_cancel_left_eq,
    List.cons.injEq, true_and] at htail
  have hsame := congrArg (List.takeWhile Char.isDigit) htail
  rw [hread, hread] at hsame
  rw [← @Nat.ofDigitChars_ten_toDigits n, hsame, Nat.ofDigitChars_ten_toDigits]

section

variable [Unicode]

/-- The first match of some pattern neither holds a placeholder nor stands in one. -/
def Flagged (line : Text) : Prop :=
  ∃ entry ∈ secretPatterns, ∃ m, search entry.2 line = some m ∧
    ∀ safe ∈ safeAllowlist, ¬ safe <:+: m.whole ∧ ¬ m.whole <:+: safe

/-- The line holds a match whose secret is not itself a placeholder. -/
def HoldsSecret (line : Text) : Prop :=
  ∃ entry ∈ secretPatterns, ∃ m, Matches entry.2 line m ∧ m.secret ∉ safeAllowlist

theorem mem_scanLine {path line v : Text} {n : Nat} : v ∈ scanLine path n line ↔
    ∃ entry ∈ secretPatterns, ∃ m, search entry.2 line = some m ∧ isSafe m.whole = false ∧
      v = violation path n entry.1 m.whole := by
  simp only [scanLine, List.mem_filterMap]
  constructor
  · rintro ⟨entry, hentry, hv⟩
    cases hm : search entry.2 line with
    | none => simp [hm] at hv
    | some m =>
      cases hsafe : isSafe m.whole with
      | true => simp [hm, hsafe] at hv
      | false =>
        simp only [hm, hsafe, Bool.false_eq_true, if_false, Option.some.injEq] at hv
        exact ⟨entry, hentry, m, hm, hsafe, hv.symm⟩
  · rintro ⟨entry, hentry, m, hm, hsafe, rfl⟩
    refine ⟨entry, hentry, ?_⟩
    simp only [hm, hsafe, Bool.false_eq_true, if_false]

/-- A line is reported exactly when it is flagged. -/
theorem scanFile_reports_iff (path text : Text) (n : Nat) :
    Reports path n (scanFile path (.content text)) ↔ ∃ line, (line, n) ∈ (lines text).zipIdx 1 ∧ Flagged line := by
  simp only [Reports, scanFile, List.mem_flatMap, mem_scanLine]
  constructor
  · rintro ⟨v, ⟨⟨line, k⟩, hline, entry, hentry, m, hm, hsafe, rfl⟩, hmark⟩
    obtain rfl := violationMark_lineNo hmark
    exact ⟨line, hline, entry, hentry, m, hm, isSafe_eq_false.mp hsafe⟩
  · rintro ⟨line, hline, entry, hentry, m, hm, hfree⟩
    refine ⟨_, ⟨(line, n), hline, entry, hentry, m, hm, isSafe_eq_false.mpr hfree, rfl⟩, ?_⟩
    simp [violation, List.append_assoc]

/-- Every line that holds a secret is reported. -/
def NoBlindSpot (path text : Text) : Prop :=
  ∀ line n, (line, n) ∈ (lines text).zipIdx 1 → HoldsSecret line → Reports path n (scanFile path (.content text))

/-- **The blind spots of the scanner.** Every line that holds a secret is reported exactly when in each of
them the first match of some pattern neither holds a placeholder nor stands in one. -/
theorem noBlindSpot_iff (path text : Text) :
    NoBlindSpot path text ↔ ∀ line ∈ lines text, HoldsSecret line → Flagged line := by
  unfold NoBlindSpot
  constructor
  · intro hreports line hline hsecret
    obtain ⟨i, hi⟩ := List.mem_iff_getElem?.mp hline
    have hnumbered : (line, i + 1) ∈ (lines text).zipIdx 1 :=
      List.mem_zipIdx_iff_le_and_getElem?_sub.mpr ⟨Nat.le_add_left 1 i, hi⟩
    obtain ⟨line', hnumbered', hflagged⟩ :=
      (scanFile_reports_iff path text (i + 1)).mp (hreports line (i + 1) hnumbered hsecret)
    have hi' := (List.mem_zipIdx_iff_le_and_getElem?_sub.mp hnumbered').2
    dsimp only at hi'
    rw [Nat.add_sub_cancel, hi] at hi'
    cases hi'
    exact hflagged
  · intro hflagged line n hnumbered hsecret
    have hline : line ∈ lines text :=
      List.mem_iff_getElem?.mpr ⟨n - 1, (List.mem_zipIdx_iff_le_and_getElem?_sub.mp hnumbered).2⟩
    exact (scanFile_reports_iff path text n).mpr ⟨line, hnumbered, hflagged line hline hsecret⟩

/-- What is reported is a line with a match. -/
theorem scanFile_sound {path text : Text} {n : Nat} (h : Reports path n (scanFile path (.content text))) :
    ∃ line, (line, n) ∈ (lines text).zipIdx 1 ∧ ∃ entry ∈ secretPatterns, ∃ m, Matches entry.2 line m := by
  obtain ⟨line, hline, entry, hentry, m, hm, _⟩ := (scanFile_reports_iff path text n).mp h
  exact ⟨line, hline, entry, hentry, m, search_matches hm⟩

end

attribute [local instance] Unicode.ascii

def passwordLine : Text := lit "admin_password = \"Sup3rS3cretValue!\""

/-- The name of the key is a placeholder itself, and hides the password behind it. -/
theorem password_hidden : ¬ ∀ path text, NoBlindSpot path text := by
  intro h
  have hmatch : Matches passwordAssignment passwordLine ⟨passwordLine, some (lit "Sup3rS3cretValue!")⟩ :=
    ⟨passwordLine, List.suffix_refl _, by decide +kernel⟩
  have hsecret : HoldsSecret passwordLine :=
    ⟨(lit "Hardcoded Admin / Join Password Assignment", passwordAssignment), by simp [secretPatterns], _, hmatch,
      by decide +kernel⟩
  have hnumbered : (passwordLine, 1) ∈ (lines passwordLine).zipIdx 1 := by decide +kernel
  obtain ⟨v, hv, _⟩ := h [] passwordLine passwordLine 1 hnumbered hsecret
  have hsilent : scanFile [] (.content passwordLine) = [] := by decide +kernel
  rw [hsilent] at hv
  cases hv

end Palworld.Secrets

import Palworld.Lib.Rewrite
import Palworld.Lib.Str
import Mathlib.Data.List.DropRight
import Mathlib.Data.List.Infix

/-!
# The redaction of log texts

`sanitize_log_text` replaces the matches of three patterns, one after the other. What it
leaves is redacted: a key has the placeholder for its value, and there is no credential and
no UUID.
-/

open Lib

namespace Palworld.Logs

/-! ## Letters -/

/-- The letter that a character matches where case is ignored. Three letters have a partner outside of ASCII. -/
def foldCase (c : Char) : Char :=
  if c.toNat = 0x130 ∨ c.toNat = 0x131 then 'i'
  else if c.toNat = 0x17F then 's'
  else if c.toNat = 0x212A then 'k'
  else c.toLower

def isQuote (c : Char) : Bool := c == '"' || c == '\''

def isSep (c : Char) : Bool := c == ':' || c == '='

/-- `[^"'\s,]`. -/
def isValueChar (c : Char) : Bool := !isQuote c && !isSpace c && c != ','

/-- `[A-Za-z0-9+/=._-]`, where case is ignored. -/
def isCredentialChar (c : Char) : Bool := (foldCase c).isAlphanum || ['+', '/', '=', '.', '_', '-'].contains c

def isHex (c : Char) : Bool := c.isDigit || ('a' ≤ c && c ≤ 'f') || ('A' ≤ c && c ≤ 'F')

/-! ## The patterns -/

/-- What is left behind a word, where case is ignored. -/
def stripWord : Text → Text → Option Text
  | [], s => some s
  | _ :: _, [] => none
  | l :: w, c :: s => if foldCase c = l then stripWord w s else none

/-- `["']?`. -/
def unquote : Text → Text
  | [] => []
  | c :: s => if isQuote c then s else c :: s

/-- What is left behind `\s*["']?([^"'\s,]+)`. Each part takes all it can, and giving back would not help. -/
def valueOf (s : Text) : Option Text :=
  match unquote (s.dropWhile isSpace) with
  | [] => none
  | c :: s => if isValueChar c then some (s.dropWhile isValueChar) else none

/-- What is left behind `\s*[:=]\s*["']?([^"'\s,]+)`. -/
def valueAfter (s : Text) : Option Text :=
  match s.dropWhile isSpace with
  | [] => none
  | c :: s => if isSep c then valueOf s else none

/-- One of the words and what belongs behind it. The word stays. -/
def afterWord (words : List Text) (tail : Text → Option Text) (placeholder : Text) : Matcher Char := fun s =>
  words.findSome? fun word => do
    let after ← stripWord word s
    let rest ← tail after
    return (s.take word.length ++ placeholder, rest)

def keywords : List Text := ["admin_password", "password", "token", "secret"].map lit

def keyPlaceholder : Text := lit "=[REDACTED]"

/-- `(?i)(admin_password|password|token|secret)\s*[:=]\s*["']?([^"'\s,]+)`, replaced by `\1=[REDACTED]`. -/
def keyed : Matcher Char := afterWord keywords valueAfter keyPlaceholder

/-- What is left behind `\s*[A-Za-z0-9+/=._-]+`. -/
def credentialOf (s : Text) : Option Text :=
  match s.dropWhile isSpace with
  | [] => none
  | c :: s => if isCredentialChar c then some (s.dropWhile isCredentialChar) else none

/-- What is left behind `\s+[A-Za-z0-9+/=._-]+`. -/
def credentialAfter : Text → Option Text
  | [] => none
  | c :: s => if isSpace c then credentialOf s else none

def schemes : List Text := ["basic", "bearer"].map lit

def schemePlaceholder : Text := lit " [REDACTED]"

/-- `(?i)(Basic|Bearer)\s+[A-Za-z0-9+/=._-]+`, replaced by `\1 [REDACTED]`. -/
def credential : Matcher Char := afterWord schemes credentialAfter schemePlaceholder

/-- A hexadecimal digit for each `true`, and a dash for each `false`. -/
def stripShape : List Bool → Text → Option Text
  | [], s => some s
  | _ :: _, [] => none
  | hex :: shape, c :: s => if (if hex then isHex c else c == '-') then stripShape shape s else none

def uuidShape : List Bool :=
  List.replicate 8 true ++ false :: List.replicate 4 true ++ false :: List.replicate 4 true ++ false :: List.replicate 4 true ++
    false :: List.replicate 12 true

def uuidPlaceholder : Text := lit "[REDACTED_UUID]"

/-- `[0-9a-fA-F]{8}-[0-9a-fA-F]{4}-[0-9a-fA-F]{4}-[0-9a-fA-F]{4}-[0-9a-fA-F]{12}`, replaced by `[REDACTED_UUID]`. -/
def uuid : Matcher Char := fun s => do
  let rest ← stripShape uuidShape s
  return (uuidPlaceholder, rest)

def sanitizeLogText (text : Text) : Text := sub uuid (sub credential (sub keyed text))

/-- Where a key has a value, the value is the placeholder. -/
def Placed (text : Text) : Prop := ∀ v, v <:+ text → ∀ r rest, keyed v = some (r, rest) → r ++ rest = v

/-- Nothing is left to redact. -/
structure Redacted (text : Text) : Prop where
  placed : Placed text
  noCredential : ∀ v, v <:+ text → credential v = none
  noUuid : ∀ v, v <:+ text → uuid v = none

/-! ## The patterns as machines -/

inductive WordStage (σ : Type)
  | word (w : Text)
  | tail (q : σ)

/-- A word, and behind it what another machine reads from its start. -/
def wordStep {σ : Type} (step : σ → Char → Verdict σ) (start : σ) : WordStage σ → Char → Verdict (WordStage σ)
  | .word [], c => (step start c).map .tail
  | .word (l :: w), c => if foldCase c = l then .go (.word w) else .fail
  | .tail q, c => (step q c).map .tail

inductive ValueStage
  | sep
  | value
  | bare
  deriving DecidableEq

def valueStep : ValueStage → Char → Verdict ValueStage
  | .sep, c => if isSpace c then .go .sep else if isSep c then .go .value else .fail
  | .value, c => if isSpace c then .go .value else if isQuote c then .go .bare else if isValueChar c then .accept else .fail
  | .bare, c => if isValueChar c then .accept else .fail

inductive CredentialStage
  | blank
  | body
  deriving DecidableEq

def credentialStep : CredentialStage → Char → Verdict CredentialStage
  | .blank, c => if isSpace c then .go .body else .fail
  | .body, c => if isSpace c then .go .body else if isCredentialChar c then .accept else .fail

def uuidStep : List Bool → Char → Verdict (List Bool)
  | [], _ => .fail
  | hex :: shape, c =>
    if (if hex then isHex c else c == '-') then (if shape = [] then .accept else .go shape) else .fail

theorem stripWord_eq_some {w s after : Text} : stripWord w s = some after ↔ ∃ k, s = k ++ after ∧ k.map foldCase = w := by
  induction w generalizing s with
  | nil =>
    unfold stripWord
    simp [eq_comm]
  | cons l w ih =>
    cases s with
    | nil =>
      unfold stripWord
      constructor
      · nofun
      · rintro ⟨k, hk, hw⟩
        obtain ⟨rfl, -⟩ := List.append_eq_nil_iff.mp hk.symm
        cases hw
    | cons c s =>
      unfold stripWord
      split
      · rename_i hc
        rw [ih]
        constructor
        · rintro ⟨k, rfl, rfl⟩
          exact ⟨c :: k, rfl, by rw [List.map_cons, hc]⟩
        · rintro ⟨k, hk, hw⟩
          obtain ⟨d, k, rfl⟩ : ∃ d k', k = d :: k' := List.exists_cons_of_ne_nil (by rintro rfl; cases hw)
          rw [List.cons_append, List.cons.injEq] at hk
          rw [List.map_cons, List.cons.injEq] at hw
          exact ⟨k, hk.2, hw.2⟩
      · rename_i hc
        constructor
        · nofun
        · rintro ⟨k, hk, hw⟩
          obtain ⟨d, k, rfl⟩ : ∃ d k', k = d :: k' := List.exists_cons_of_ne_nil (by rintro rfl; cases hw)
          rw [List.cons_append, List.cons.injEq] at hk
          rw [List.map_cons, List.cons.injEq] at hw
          exact absurd (hk.1 ▸ hw.1) hc

section

variable {σ : Type} {step : σ → Char → Verdict σ} {start q : σ} {w s k rest r : Text} {words : List Text} {tail : Text → Option Text}
  {placeholder : Text}

theorem reaches_tail (q : σ) (s : Text) : reaches (wordStep step start) (.tail q) s = reaches step q s := by
  induction s generalizing q with
  | nil => rfl
  | cons c s ih =>
    cases hstep : step q c with
    | fail =>
      rw [reaches_fail hstep]
      exact reaches_fail (by simp [wordStep, hstep, Verdict.map])
    | accept =>
      rw [reaches_accept hstep]
      exact reaches_accept (by simp [wordStep, hstep, Verdict.map])
    | go n =>
      rw [reaches_go hstep, ← ih n]
      exact reaches_go (by simp [wordStep, hstep, Verdict.map])

theorem reaches_start (s : Text) : reaches (wordStep step start) (.word []) s = reaches step start s := by
  rw [← @reaches_tail _ step start start s]
  cases s with
  | nil => rfl
  | cons c s => rfl

/-- A part without a character that the tail begins with is read as a part of the word. -/
theorem reaches_letters (hk : ∀ c ∈ k, step start c = .fail) : reaches (wordStep step start) (.word w) (k ++ s) = true ↔
    ∃ v, w = k.map foldCase ++ v ∧ reaches (wordStep step start) (.word v) s = true := by
  induction k generalizing w with
  | nil => simp
  | cons c k ih =>
    rw [List.forall_mem_cons] at hk
    rw [List.cons_append, List.map_cons]
    cases w with
    | nil =>
      rw [reaches_fail (by simp [wordStep, hk.1, Verdict.map])]
      simp
    | cons l w =>
      by_cases hc : foldCase c = l
      · rw [reaches_go (n := .word w) (by simp [wordStep, hc]), ih hk.2]
        simp [hc]
      · rw [reaches_fail (by simp [wordStep, hc])]
        simp [Ne.symm hc]

theorem reaches_word (w s : Text) :
    reaches (wordStep step start) (.word w) s = true ↔ ∃ after, stripWord w s = some after ∧ reaches step start after = true := by
  induction w generalizing s with
  | nil =>
    unfold stripWord
    simp [reaches_start]
  | cons l w ih =>
    cases s with
    | nil => simp [reaches, stripWord]
    | cons c s =>
      unfold stripWord
      by_cases hc : foldCase c = l
      · rw [reaches_go (n := .word w) (by simp [wordStep, hc]), ih, if_pos hc]
      · rw [reaches_fail (by simp [wordStep, hc]), if_neg hc]
        simp

theorem afterWord_eq_some (h : afterWord words tail placeholder s = some (r, rest)) :
    ∃ k after, k.map foldCase ∈ words ∧ s = k ++ after ∧ tail after = some rest ∧ r = k ++ placeholder := by
  unfold afterWord at h
  obtain ⟨w, hw, h⟩ := List.exists_of_findSome?_eq_some h
  obtain ⟨after, hafter, h⟩ := Option.bind_eq_some_iff.mp h
  obtain ⟨rest', hrest, h⟩ := Option.bind_eq_some_iff.mp h
  obtain ⟨k, rfl, rfl⟩ := stripWord_eq_some.mp hafter
  cases h
  refine ⟨k, after, hw, rfl, hrest, ?_⟩
  rw [List.length_map, List.take_left']
  rfl

theorem afterWord_eq_none (htail : ∀ s, (tail s).isSome = reaches step start s) :
    afterWord words tail placeholder s = none ↔ ∀ w ∈ words, reaches (wordStep step start) (.word w) s = false := by
  unfold afterWord
  rw [List.findSome?_eq_none_iff]
  refine forall_congr' fun w => imp_congr_right fun _ => ?_
  rw [← Bool.not_eq_true, reaches_word]
  cases hstrip : stripWord w s with
  | none => simp
  | some after =>
    have hafter := htail after
    cases htail' : tail after with
    | none =>
      rw [htail', Option.isSome_none] at hafter
      simp [htail', ← hafter]
    | some rest =>
      rw [htail', Option.isSome_some] at hafter
      simp [htail', ← hafter]

end

theorem reaches_bare (s : Text) : reaches valueStep .bare s = s.head?.any isValueChar := by
  cases s with
  | nil => rfl
  | cons c s => cases h : isValueChar c <;> simp [reaches, valueStep, h]

theorem valueOf_isSome (s : Text) : (valueOf s).isSome = reaches valueStep .value s := by
  induction s with
  | nil => rfl
  | cons c s ih =>
    unfold valueOf
    cases hspace : isSpace c with
    | true =>
      rw [reaches_go (n := .value) (by simp [valueStep, hspace]), ← ih, List.dropWhile_cons_of_pos hspace]
      rfl
    | false =>
      rw [List.dropWhile_cons_of_neg (by simp [hspace]), unquote]
      cases hquote : isQuote c with
      | true =>
        rw [reaches_go (n := .bare) (by simp [valueStep, hspace, hquote]), reaches_bare]
        cases s with
        | nil => rfl
        | cons d s => cases h : isValueChar d <;> simp [h]
      | false => cases h : isValueChar c <;> simp [reaches, valueStep, hspace, hquote, h]

theorem valueAfter_isSome (s : Text) : (valueAfter s).isSome = reaches valueStep .sep s := by
  induction s with
  | nil => rfl
  | cons c s ih =>
    unfold valueAfter
    cases hspace : isSpace c with
    | true =>
      rw [reaches_go (n := .sep) (by simp [valueStep, hspace]), ← ih, List.dropWhile_cons_of_pos hspace]
      rfl
    | false =>
      rw [List.dropWhile_cons_of_neg (by simp [hspace])]
      cases hsep : isSep c with
      | true =>
        rw [reaches_go (n := .value) (by simp [valueStep, hspace, hsep]), ← valueOf_isSome]
        simp [hsep]
      | false => simp [reaches, valueStep, hspace, hsep]

theorem credentialOf_isSome (s : Text) : (credentialOf s).isSome = reaches credentialStep .body s := by
  induction s with
  | nil => rfl
  | cons c s ih =>
    unfold credentialOf
    cases hspace : isSpace c with
    | true =>
      rw [reaches_go (n := .body) (by simp [credentialStep, hspace]), ← ih, List.dropWhile_cons_of_pos hspace]
      rfl
    | false =>
      rw [List.dropWhile_cons_of_neg (by simp [hspace])]
      cases h : isCredentialChar c <;> simp [reaches, credentialStep, hspace, h]

theorem credentialAfter_isSome (s : Text) : (credentialAfter s).isSome = reaches credentialStep .blank s := by
  cases s with
  | nil => rfl
  | cons c s =>
    unfold credentialAfter
    cases hspace : isSpace c with
    | true =>
      rw [reaches_go (n := .body) (by simp [credentialStep, hspace]), ← credentialOf_isSome]
      simp [hspace]
    | false => simp [reaches, credentialStep, hspace]

theorem stripShape_isSome {shape : List Bool} (hshape : shape ≠ []) (s : Text) :
    (stripShape shape s).isSome = reaches uuidStep shape s := by
  induction shape generalizing s with
  | nil => exact absurd rfl hshape
  | cons hex shape ih =>
    cases s with
    | nil => rfl
    | cons c s =>
      unfold stripShape
      by_cases hc : (if hex then isHex c else c == '-') = true
      · by_cases hrest : shape = []
        · rw [reaches_accept (by simp only [uuidStep, hc, if_true, hrest]), if_pos hc, hrest]
          rfl
        · rw [reaches_go (n := shape) (by simp only [uuidStep, hc, if_true, hrest, if_false]), if_pos hc, ih hrest]
      · rw [reaches_fail (by rw [uuidStep, if_neg hc]), if_neg hc]
        rfl

theorem keyed_eq_none {s : Text} : keyed s = none ↔ ∀ w ∈ keywords, reaches (wordStep valueStep .sep) (.word w) s = false :=
  afterWord_eq_none valueAfter_isSome

theorem credential_eq_none {s : Text} :
    credential s = none ↔ ∀ w ∈ schemes, reaches (wordStep credentialStep .blank) (.word w) s = false :=
  afterWord_eq_none credentialAfter_isSome

theorem uuid_eq_none {s : Text} : uuid s = none ↔ reaches uuidStep uuidShape s = false := by
  rw [← stripShape_isSome (by decide)]
  unfold uuid
  cases stripShape uuidShape s <;> simp

/-! ## Letters -/

def isLetter (l : Char) : Bool := ('a' ≤ l && l ≤ 'z') || l == '_'

section

variable {c : Char}

/-- A character stands for itself, or for a small letter. -/
theorem foldCase_cases (c : Char) : foldCase c = c ∨ (foldCase c).isLower = true ∧ (c.toNat = 0x130 ∨ c.toNat = 0x131 ∨ c.toNat = 0x17F ∨
    c.toNat = 0x212A ∨ (65 ≤ c.toNat ∧ c.toNat ≤ 90)) := by
  unfold foldCase
  split
  · rename_i hi
    exact .inr ⟨rfl, by omega⟩
  split
  · rename_i hs
    exact .inr ⟨rfl, by omega⟩
  split
  · rename_i hk
    exact .inr ⟨rfl, by omega⟩
  unfold Char.toLower
  split
  · rename_i hupper
    have hc : c.val.toNat = c.toNat := rfl
    have hA : 'A'.val.toNat = 65 := rfl
    have hZ : 'Z'.val.toNat = 90 := rfl
    have ha : 'a'.val.toNat = 97 := rfl
    have hz : 'z'.val.toNat = 122 := rfl
    simp only [ge_iff_le, UInt32.le_iff_toNat_le] at hupper
    refine .inr ⟨?_, by omega⟩
    show (decide (c.val + ('a'.val - 'A'.val) ≥ 'a'.val) && decide (c.val + ('a'.val - 'A'.val) ≤ 'z'.val)) = true
    simp only [Bool.and_eq_true, decide_eq_true_eq, ge_iff_le, UInt32.le_iff_toNat_le, UInt32.toNat_add, UInt32.toNat_sub]
    simp only [ha, hz, hA]
    omega
  · exact .inl rfl

theorem toNat_of_fold (h : isLetter (foldCase c) = true) : c.toNat = 0x130 ∨ c.toNat = 0x131 ∨ c.toNat = 0x17F ∨
    c.toNat = 0x212A ∨ (65 ≤ c.toNat ∧ c.toNat ≤ 90) ∨ (97 ≤ c.toNat ∧ c.toNat ≤ 122) ∨ c.toNat = 95 := by
  rcases foldCase_cases c with hc | ⟨-, hc⟩
  · rw [hc] at h
    simp only [isLetter, Bool.or_eq_true, Bool.and_eq_true, decide_eq_true_eq, beq_iff_eq, charLe_iff_toNat, Char.reduceToNat] at h
    rcases h with h | rfl
    · omega
    · exact .inr (.inr (.inr (.inr (.inr (.inr rfl)))))
  · omega

theorem beq_of_toNat_ne {d : Char} (h : c.toNat ≠ d.toNat) : (c == d) = false :=
  beq_eq_false_iff_ne.mpr fun hcd => h (congrArg Char.toNat hcd)

theorem isSpace_of_fold (h : isLetter (foldCase c) = true) : isSpace c = false := by
  have hc := toNat_of_fold h
  simp only [isSpace, Bool.or_eq_false_iff, Bool.and_eq_false_iff, decide_eq_false_iff_not, beq_eq_false_iff_ne]
  omega

theorem isSep_of_fold (h : isLetter (foldCase c) = true) : isSep c = false := by
  have hc := toNat_of_fold h
  have hcolon : ':'.toNat = 58 := rfl
  have hequal : '='.toNat = 61 := rfl
  rw [isSep, beq_of_toNat_ne (by omega), beq_of_toNat_ne (by omega)]
  rfl

theorem isQuote_of_fold (h : isLetter (foldCase c) = true) : isQuote c = false := by
  have hc := toNat_of_fold h
  have hdouble : '"'.toNat = 34 := rfl
  have hsingle : '\''.toNat = 39 := rfl
  rw [isQuote, beq_of_toNat_ne (by omega), beq_of_toNat_ne (by omega)]
  rfl

theorem isValueChar_of_fold (h : isLetter (foldCase c) = true) : isValueChar c = true := by
  have hc := toNat_of_fold h
  have hcomma : ','.toNat = 44 := rfl
  rw [isValueChar, isQuote_of_fold h, isSpace_of_fold h, bne, beq_of_toNat_ne (by omega)]
  rfl

end

/-- The machine of a pattern is still in one of its words. -/
def InWords {σ : Type} (words : List Text) : WordStage σ → Prop
  | .word w => ∃ v ∈ words, w <:+ v
  | .tail _ => True

theorem inWords_word {σ : Type} {words : List Text} {w : Text} (hw : w ∈ words) : InWords words (.word w : WordStage σ) :=
  ⟨w, hw, List.suffix_refl w⟩

theorem inWords_of_map {σ : Type} {words : List Text} {q' : WordStage σ} {v : Verdict σ} (h : v.map .tail = .go q') : InWords words q' := by
  cases v with
  | fail => cases h
  | accept => cases h
  | go q =>
    cases h
    exact trivial

theorem inWords_step {σ : Type} {step : σ → Char → Verdict σ} {start : σ} {words : List Text} (q : WordStage σ) (c : Char)
    (q' : WordStage σ) (hq : InWords words q) (hstep : wordStep step start q c = .go q') : InWords words q' := by
  cases q with
  | tail q => exact inWords_of_map hstep
  | word w =>
    obtain ⟨v, hv, hw⟩ := hq
    cases w with
    | nil => exact inWords_of_map hstep
    | cons l w =>
      rw [wordStep] at hstep
      split at hstep
      · cases hstep
        exact ⟨v, hv, (List.suffix_cons l w).trans hw⟩
      · cases hstep

/-! ## What the placeholders do -/

theorem keywords_letters : ∀ w ∈ keywords, ∀ l ∈ w, isLetter l = true ∧ l ≠ 'b' := by
  have hall : (keywords.all fun w => w.all fun l => isLetter l && l != 'b') = true := by decide
  simpa only [List.all_eq_true, Bool.and_eq_true, bne_iff_ne] using hall

theorem schemes_letters : ∀ w ∈ schemes, ∀ l ∈ w, isLetter l = true := by
  have hall : (schemes.all fun w => w.all isLetter) = true := by decide
  simpa only [List.all_eq_true] using hall

section

variable {c : Char} {k s t u X r rest after : Text}

theorem letters_of_keyword (hk : k.map foldCase ∈ keywords) (hc : c ∈ k) : isLetter (foldCase c) = true :=
  (keywords_letters _ hk _ (List.mem_map_of_mem hc)).1

theorem letters_of_scheme (hk : k.map foldCase ∈ schemes) (hc : c ∈ k) : isLetter (foldCase c) = true :=
  schemes_letters _ hk _ (List.mem_map_of_mem hc)

theorem valueStep_sep (hc : isLetter (foldCase c) = true) : valueStep .sep c = .fail := by
  simp [valueStep, isSpace_of_fold hc, isSep_of_fold hc]

theorem credentialStep_blank (hc : isLetter (foldCase c) = true) : credentialStep .blank c = .fail := by
  simp [credentialStep, isSpace_of_fold hc]

theorem reaches_value {q : ValueStage} (hq : q ≠ .sep) (hc : isValueChar c = true) : reaches valueStep q (c :: s) = true := by
  have hparts := hc
  simp only [isValueChar, Bool.and_eq_true, Bool.not_eq_true'] at hparts
  cases q with
  | sep => exact absurd rfl hq
  | value => exact reaches_accept (by simp [valueStep, hparts.1.1, hparts.1.2, hc])
  | bare => exact reaches_accept (by simp [valueStep, hc])

/-- A word that is not read to its end is not found in front of what is no letter. -/
theorem reaches_inside {σ : Type} {step : σ → Char → Verdict σ} {start : σ} {l : Char} {w : Text} (hl : isLetter l = true)
    (hc : isLetter (foldCase c) = false) : reaches (wordStep step start) (.word (l :: w)) (c :: s) = false := by
  refine reaches_fail ?_
  rw [wordStep, if_neg]
  rintro rfl
  rw [hl] at hc
  cases hc

theorem valueAfter_dropWhile (h : valueAfter s = some rest) : rest.dropWhile isValueChar = rest := by
  unfold valueAfter at h
  split at h
  · cases h
  · split at h
    · unfold valueOf at h
      split at h
      · cases h
      · split at h
        · cases h
          exact List.dropWhile_idempotent ..
        · cases h
    · cases h

theorem valueAfter_letter (hc : isLetter (foldCase c) = true) : valueAfter (c :: s) = none := by
  unfold valueAfter
  rw [List.dropWhile_cons_of_neg (by simp [isSpace_of_fold hc])]
  simp [isSep_of_fold hc]

/-- Behind a key with its placeholder, the value is the placeholder. -/
theorem keyed_placeholder (hk : ∀ c ∈ k, isLetter (foldCase c) = true) (h : keyed (k ++ (keyPlaceholder ++ X)) = some (r, rest)) :
    r = k ++ keyPlaceholder ∧ rest = X.dropWhile isValueChar := by
  obtain ⟨k', after, hk', heq, hafter, rfl⟩ := afterWord_eq_some h
  rcases List.append_eq_append_iff.mp heq with ⟨z, rfl, hz⟩ | ⟨z, rfl, rfl⟩
  · cases z with
    | nil =>
      rw [List.nil_append] at hz
      subst hz
      cases hafter
      exact ⟨by rw [List.append_nil], rfl⟩
    | cons d z =>
      have hd : '=' = d := (List.cons.inj hz).1
      have hletter : isLetter (foldCase d) = true := letters_of_keyword hk' (by simp)
      rw [← hd] at hletter
      exact absurd hletter (by decide)
  · cases z with
    | nil =>
      cases hafter
      exact ⟨by rw [List.append_nil], rfl⟩
    | cons d z =>
      rw [List.cons_append, valueAfter_letter (hk d (by simp))] at hafter
      cases hafter

theorem dropWhile_ne (hc : isValueChar c = true) : (c :: s).dropWhile isValueChar ≠ c :: s := by
  intro h
  have hlen := congrArg List.length h
  have hle := List.length_dropWhile_le isValueChar s
  rw [List.dropWhile_cons_of_pos hc, List.length_cons] at hlen
  omega

/-- A pass that only takes what begins with a value keeps the end of a value. -/
theorem Subs.dropWhile {m : Matcher Char} (hstart : ∀ s r rest, m s = some (r, rest) → s.head?.any isValueChar = true) (h : Subs m s u)
    (hs : s.dropWhile isValueChar = s) : u.dropWhile isValueChar = u := by
  cases h with
  | nil => rfl
  | @copy c s u hnone h =>
    cases hc : isValueChar c with
    | true => exact absurd hs (dropWhile_ne hc)
    | false => rw [List.dropWhile_cons_of_neg (by simp [hc])]
  | @replace _ r rest u hmatch h =>
    have hhead := hstart _ _ _ hmatch
    cases s with
    | nil => cases hhead
    | cons c s => exact absurd hs (dropWhile_ne hhead)

theorem keyed_start (h : keyed s = some (r, rest)) : s.head?.any isValueChar = true := by
  obtain ⟨k, after, hk, rfl, -, -⟩ := afterWord_eq_some h
  cases k with
  | nil => exact absurd hk (by decide)
  | cons c k => exact isValueChar_of_fold (letters_of_keyword hk (List.mem_cons_self ..))

theorem keyed_back : Backs keyed (wordStep valueStep .sep) (InWords keywords) := by
  intro q s r rest u hq hmatch _ h
  obtain ⟨k, after, hk, rfl, hafter, rfl⟩ := afterWord_eq_some hmatch
  have hletters : ∀ c ∈ k, isLetter (foldCase c) = true := fun c hc => letters_of_keyword hk hc
  cases q with
  | word w =>
    obtain ⟨word, hword, hw⟩ := hq
    have hfail : ∀ c ∈ k, valueStep .sep c = .fail := fun c hc => valueStep_sep (hletters c hc)
    rw [List.append_assoc, reaches_letters hfail] at h
    obtain ⟨v, rfl, hv⟩ := h
    refine (reaches_letters hfail).mpr ⟨v, rfl, ?_⟩
    cases v with
    | nil =>
      rw [reaches_start, ← valueAfter_isSome, hafter]
      rfl
    | cons l v =>
      have hl := (keywords_letters word hword l (hw.subset (by simp))).1
      have hinside : reaches (wordStep valueStep .sep) (.word (l :: v)) (keyPlaceholder ++ u) = false :=
        reaches_inside (c := '=') hl (by decide)
      rw [hinside] at hv
      cases hv
  | tail q =>
    cases k with
    | nil => exact absurd hk (by decide)
    | cons c k =>
      rw [reaches_tail] at h ⊢
      have hc := hletters c (List.mem_cons_self ..)
      by_cases hsep : q = .sep
      · subst hsep
        rw [List.cons_append, List.cons_append, reaches_fail (valueStep_sep hc)] at h
        cases h
      · exact reaches_value hsep (isValueChar_of_fold hc)

/-- No key begins in what a placeholder is made of. -/
theorem keyed_dead {p x : Text} (hp : ∀ w ∈ keywords, ∀ x ∈ p.tails, x ≠ [] → dies (wordStep valueStep .sep) (.word w) x = true)
    (hx : x <:+ p) (hne : x ≠ []) (u : Text) : keyed (x ++ u) = none :=
  keyed_eq_none.mpr fun w hw => reaches_of_dies (hp w hw x ((List.mem_tails x p).mpr hx) hne) u

theorem keyed_none {m : Matcher Char}
    (hback : Backs m (wordStep valueStep .sep) (InWords keywords))
    (h : Subs m s u) (hs : keyed s = none) : keyed u = none := by
  refine keyed_eq_none.mpr fun w hw => ?_
  rw [← Bool.not_eq_true]
  intro hreach
  have hreached := Subs.back inWords_step hback h (inWords_word hw) hreach
  rw [keyed_eq_none.mp hs w hw] at hreached
  cases hreached

/-- What the first pass leaves has the placeholder behind each key. -/
theorem placed_keyed (h : Subs keyed t u) : Placed u := by
  induction h with
  | nil =>
    intro v hv r rest hmatch
    rw [List.suffix_nil.mp hv] at hmatch
    exact absurd (keyed_start hmatch) (by decide)
  | @copy c s u hnone h ih =>
    intro v hv r rest hmatch
    rcases List.suffix_cons_iff.mp hv with rfl | hv
    · rw [keyed_none keyed_back (.copy hnone h) hnone] at hmatch
      cases hmatch
    · exact ih v hv r rest hmatch
  | @replace s r rest u hmatch h ih =>
    intro v hv r' rest' hmatch'
    obtain ⟨k, after, hk, rfl, hafter, rfl⟩ := afterWord_eq_some hmatch
    rcases suffix_append_cases hv with hv | ⟨x, hx, hsuffix, rfl⟩
    · exact ih v hv r' rest' hmatch'
    rcases suffix_append_cases hsuffix with hsuffix | ⟨k', -, hk', rfl⟩
    · rw [keyed_dead (by decide) hsuffix hx] at hmatch'
      cases hmatch'
    · have hletters : ∀ c ∈ k', isLetter (foldCase c) = true := fun c hc => letters_of_keyword hk (hk'.subset hc)
      rw [List.append_assoc] at hmatch'
      obtain ⟨rfl, rfl⟩ := keyed_placeholder hletters hmatch'
      rw [Subs.dropWhile (fun _ _ _ => keyed_start) h (valueAfter_dropWhile hafter)]

/-- A later pass keeps the placeholders behind the keys. -/
theorem Placed.kept {m : Matcher Char} (ht : Placed t)
    (hback : Backs m (wordStep valueStep .sep) (InWords keywords))
    (hrest : ∀ s r rest, m s = some (r, rest) → rest <:+ s)
    (hstart : ∀ s r rest, m s = some (r, rest) → s.head?.any isValueChar = true)
    (hdead : ∀ s r rest u x, m s = some (r, rest) → x <:+ r → x ≠ [] → keyed (x ++ u) = none)
    (hcopies : ∀ k x u, k.map foldCase ∈ keywords → x <:+ k ++ keyPlaceholder → x ≠ [] → m (x ++ u) = none)
    (h : Subs m t u) : Placed u := by
  induction h with
  | nil => exact ht
  | @copy c s u hnone h ih =>
    intro v hv r rest hmatch
    rcases List.suffix_cons_iff.mp hv with rfl | hv
    · cases hbefore : keyed (c :: s) with
      | none =>
        rw [keyed_none hback (.copy hnone h) hbefore] at hmatch
        cases hmatch
      | some before =>
        obtain ⟨r₀, rest₀⟩ := before
        have hsame := ht _ (List.suffix_refl _) r₀ rest₀ hbefore
        obtain ⟨k, after, hk, -, hafter, rfl⟩ := afterWord_eq_some hbefore
        have hsubs : Subs m ((k ++ keyPlaceholder) ++ rest₀) (c :: u) := hsame ▸ .copy hnone h
        obtain ⟨v, hv, hrest₀⟩ := hsubs.copies fun x hx hne => hcopies k x _ hk hx hne
        rw [hv, List.append_assoc] at hmatch
        obtain ⟨rfl, rfl⟩ := keyed_placeholder (fun c hc => letters_of_keyword hk hc) hmatch
        rw [Subs.dropWhile hstart hrest₀ (valueAfter_dropWhile hafter), hv]
    · exact ih (fun v hv => ht v (hv.trans (List.suffix_cons ..))) v hv r rest hmatch
  | @replace s r₀ rest₀ u hmatch₀ h ih =>
    intro v hv r rest hmatch
    rcases suffix_append_cases hv with hv | ⟨x, hx, hsuffix, rfl⟩
    · exact ih (fun v hv => ht v (hv.trans (hrest _ _ _ hmatch₀))) v hv r rest hmatch
    · rw [hdead _ _ _ _ _ hmatch₀ hsuffix hx] at hmatch
      cases hmatch

/-! ## The second pass -/

theorem fold_scheme (hk : k.map foldCase ∈ schemes) : ∃ c k', k = c :: k' ∧ foldCase c = 'b' := by
  have hhead : ∀ w ∈ schemes, w.head? = some 'b' := by decide
  have hk := hhead _ hk
  cases k with
  | nil => cases hk
  | cons c k => exact ⟨c, k, rfl, Option.some.inj hk⟩

theorem credential_start (h : credential s = some (r, rest)) : ∃ c s', s = c :: s' ∧ foldCase c = 'b' := by
  obtain ⟨k, after, hk, rfl, -, -⟩ := afterWord_eq_some h
  obtain ⟨c, k, rfl, hc⟩ := fold_scheme hk
  exact ⟨c, k ++ after, rfl, hc⟩

theorem credentialOf_suffix (h : credentialOf s = some rest) : rest <:+ s := by
  unfold credentialOf at h
  split at h
  · cases h
  · rename_i c s' hdrop
    split at h
    · cases h
      have hspace : c :: s' <:+ s := hdrop ▸ List.dropWhile_suffix isSpace
      exact ((List.dropWhile_suffix isCredentialChar).trans (List.suffix_cons c s')).trans hspace
    · cases h

theorem credentialAfter_suffix (s rest : Text) (h : credentialAfter s = some rest) : rest <:+ s := by
  unfold credentialAfter at h
  split at h
  · cases h
  · rename_i c s
    split at h
    · exact (credentialOf_suffix h).trans (List.suffix_cons c s)
    · cases h

theorem credential_suffix (s r rest : Text) (h : credential s = some (r, rest)) : rest <:+ s := by
  obtain ⟨k, after, -, rfl, hafter, -⟩ := afterWord_eq_some h
  exact (credentialAfter_suffix after rest hafter).trans (List.suffix_append k after)

/-- No credential begins with a letter other than `b`, and none begins with what is no letter. -/
theorem credential_eq_none_of_ne (h : ∀ c s', s = c :: s' → foldCase c ≠ 'b') : credential s = none := by
  cases hmatch : credential s with
  | none => rfl
  | some found =>
    obtain ⟨r, rest⟩ := found
    obtain ⟨c, s', hs, hc⟩ := credential_start hmatch
    exact absurd hc (h c s' hs)

theorem credential_value (s r rest : Text) (h : credential s = some (r, rest)) : s.head?.any isValueChar = true := by
  obtain ⟨c, s', rfl, hc⟩ := credential_start h
  exact isValueChar_of_fold (hc ▸ rfl)

theorem credential_copies (k x u : Text) (hk : k.map foldCase ∈ keywords) (hx : x <:+ k ++ keyPlaceholder) (hne : x ≠ []) :
    credential (x ++ u) = none := by
  refine credential_eq_none_of_ne fun c s' hs hc => ?_
  rcases List.mem_append.mp (mem_of_suffix hx hne hs) with hmem | hmem
  · exact (keywords_letters _ hk _ (List.mem_map_of_mem hmem)).2 hc
  · have hall : (keyPlaceholder.all fun c => foldCase c != 'b') = true := by decide
    exact bne_iff_ne.mp (List.all_eq_true.mp hall c hmem) hc

theorem credential_back_keyed : Backs credential (wordStep valueStep .sep) (InWords keywords) := by
  intro q s r rest u hq hmatch _ h
  obtain ⟨k, after, hk, rfl, -, rfl⟩ := afterWord_eq_some hmatch
  obtain ⟨c, k, rfl, hc⟩ := fold_scheme hk
  have hletter : isLetter (foldCase c) = true := hc ▸ rfl
  cases q with
  | word w =>
    rw [List.cons_append, List.cons_append] at h
    cases w with
    | nil =>
      rw [reaches_start, reaches_fail (valueStep_sep hletter)] at h
      cases h
    | cons l w =>
      obtain ⟨word, hword, hw⟩ := hq
      have hl := (keywords_letters word hword l (hw.subset (List.mem_cons_self ..))).2
      rw [reaches_fail (by rw [wordStep, if_neg (hc.trans_ne hl.symm)])] at h
      cases h
  | tail q =>
    rw [reaches_tail] at h ⊢
    by_cases hsep : q = .sep
    · subst hsep
      rw [List.cons_append, List.cons_append, reaches_fail (valueStep_sep hletter)] at h
      cases h
    · exact reaches_value hsep (isValueChar_of_fold hletter)

theorem scheme_placeholder {w : Text} (hw : ∀ l ∈ w, isLetter l = true) (u : Text) :
    reaches (wordStep credentialStep .blank) (.word w) (schemePlaceholder ++ u) = false := by
  cases w with
  | nil =>
    rw [reaches_start]
    rfl
  | cons l w => exact reaches_inside (c := ' ') (hw l (List.mem_cons_self ..)) (by decide)

theorem reaches_scheme {w v : Text} (hv : v ∈ schemes) (hw : w <:+ v) (hk : ∀ c ∈ k, isLetter (foldCase c) = true) (u : Text) :
    reaches (wordStep credentialStep .blank) (.word w) (k ++ (schemePlaceholder ++ u)) = false := by
  rw [← Bool.not_eq_true]
  intro hreach
  obtain ⟨after, rfl, hafter⟩ := (reaches_letters fun c hc => credentialStep_blank (hk c hc)).mp hreach
  rw [scheme_placeholder fun l hl => schemes_letters v hv l (hw.subset (List.mem_append_right _ hl))] at hafter
  cases hafter

theorem credential_dead (s r rest u x : Text) (hmatch : credential s = some (r, rest)) (hx : x <:+ r) (hne : x ≠ []) :
    credential (x ++ u) = none := by
  obtain ⟨k, after, hk, rfl, -, rfl⟩ := afterWord_eq_some hmatch
  refine credential_eq_none.mpr fun w hw => ?_
  rcases suffix_append_cases hx with hx | ⟨k', -, hk', rfl⟩
  · have hdies : ∀ w ∈ schemes, ∀ x ∈ schemePlaceholder.tails, x ≠ [] → dies (wordStep credentialStep .blank) (.word w) x = true := by
      decide
    exact reaches_of_dies (hdies w hw x ((List.mem_tails x _).mpr hx) hne) u
  · rw [List.append_assoc]
    exact reaches_scheme hw (List.suffix_refl w) (fun c hc => letters_of_scheme hk (hk'.subset hc)) u

/-- No key begins in a scheme. -/
theorem keyed_scheme (hk : k.map foldCase ∈ schemes) (hx : x <:+ k) (hne : x ≠ []) (u : Text) : keyed (x ++ u) = none := by
  refine keyed_eq_none.mpr fun w hw => ?_
  rw [← Bool.not_eq_true, reaches_letters fun c hc => valueStep_sep (letters_of_scheme hk (hx.subset hc))]
  rintro ⟨v, rfl, -⟩
  have happart : ∀ v ∈ schemes, ∀ y ∈ v.tails, y ≠ [] → ∀ w ∈ keywords, ¬y <+: w := by decide
  exact happart _ hk _ ((List.mem_tails _ _).mpr (hx.map foldCase)) (by simpa using hne) _ hw (List.prefix_append ..)

theorem credential_dead_keyed (s r rest u x : Text) (hmatch : credential s = some (r, rest)) (hx : x <:+ r) (hne : x ≠ []) :
    keyed (x ++ u) = none := by
  obtain ⟨k, after, hk, rfl, -, rfl⟩ := afterWord_eq_some hmatch
  rcases suffix_append_cases hx with hx | ⟨k', hk', hsuffix, rfl⟩
  · exact keyed_dead (by decide) hx hne u
  · rw [List.append_assoc]
    exact keyed_scheme hk hsuffix hk' _

theorem credential_back : Backs credential (wordStep credentialStep .blank) (InWords schemes) := by
  intro q s r rest u hq hmatch _ h
  obtain ⟨k, after, hk, rfl, -, rfl⟩ := afterWord_eq_some hmatch
  cases q with
  | word w =>
    obtain ⟨v, hv, hw⟩ := hq
    rw [List.append_assoc, reaches_scheme hv hw fun c hc => letters_of_scheme hk hc] at h
    cases h
  | tail q =>
    obtain ⟨c, k, rfl, hc⟩ := fold_scheme hk
    have hletter : isLetter (foldCase c) = true := hc ▸ rfl
    rw [reaches_tail] at h ⊢
    rw [List.cons_append, List.cons_append] at h
    rw [List.cons_append]
    cases q with
    | blank =>
      rw [reaches_fail (credentialStep_blank hletter)] at h
      cases h
    | body =>
      have hbody : isCredentialChar c = true := by
        rw [isCredentialChar, hc]
        rfl
      exact reaches_accept (by simp [credentialStep, isSpace_of_fold hletter, hbody])

/-- What the second pass leaves has no credential. -/
theorem no_credential (h : Subs credential t u) {v : Text} (hv : v <:+ u) : credential v = none :=
  credential_eq_none.mpr fun _ hw =>
    Subs.gone inWords_step credential_back credential_suffix (inWords_word hw)
      (fun s r rest u x hmatch hx hne => credential_eq_none.mp (credential_dead s r rest u x hmatch hx hne) _ hw) h
      (fun _ _ hnone => credential_eq_none.mp hnone _ hw) hv

theorem placed_credential (h : Subs credential t u) (ht : Placed t) : Placed u :=
  ht.kept credential_back_keyed credential_suffix credential_value credential_dead_keyed credential_copies h

/-! ## The third pass -/

theorem isValueChar_of_hex (hc : isHex c = true) : isValueChar c = true := by
  simp only [isHex, Bool.or_eq_true, Bool.and_eq_true, decide_eq_true_eq, Char.isDigit_iff_toNat, charLe_iff_toNat,
    Char.reduceToNat] at hc
  have hspace : isSpace c = false := by
    simp only [isSpace, Bool.or_eq_false_iff, Bool.and_eq_false_iff, decide_eq_false_iff_not, beq_eq_false_iff_ne]
    omega
  have hdouble : '"'.toNat = 34 := rfl
  have hsingle : '\''.toNat = 39 := rfl
  have hcomma : ','.toNat = 44 := rfl
  rw [isValueChar, isQuote, hspace, bne, beq_of_toNat_ne (by omega), beq_of_toNat_ne (by omega), beq_of_toNat_ne (by omega)]
  rfl

theorem stripShape_cons {hex : Bool} {shape : List Bool} (h : stripShape (hex :: shape) s = some rest) :
    ∃ c s', s = c :: s' ∧ (if hex then isHex c else c == '-') = true ∧ stripShape shape s' = some rest := by
  cases s with
  | nil => cases h
  | cons c s =>
    rw [stripShape] at h
    by_cases hc : (if hex then isHex c else c == '-') = true
    · rw [if_pos hc] at h
      exact ⟨c, s, rfl, hc, h⟩
    · rw [if_neg hc] at h
      cases h

theorem stripShape_suffix {shape : List Bool} {s rest : Text} (h : stripShape shape s = some rest) : rest <:+ s := by
  induction shape generalizing s with
  | nil =>
    cases h
    exact List.suffix_refl rest
  | cons hex shape ih =>
    obtain ⟨c, s, rfl, -, h⟩ := stripShape_cons h
    exact (ih h).trans (List.suffix_cons c s)

theorem uuid_eq_some (h : uuid s = some (r, rest)) : r = uuidPlaceholder ∧ rest <:+ s ∧ ∃ c s', s = c :: s' ∧ isHex c = true := by
  unfold uuid at h
  obtain ⟨rest', hrest, h⟩ := Option.bind_eq_some_iff.mp h
  cases h
  obtain ⟨c, s', hs, hc, -⟩ := @stripShape_cons _ _ true _ hrest
  exact ⟨rfl, stripShape_suffix hrest, c, s', hs, hc⟩

theorem uuid_suffix (s r rest : Text) (h : uuid s = some (r, rest)) : rest <:+ s := (uuid_eq_some h).2.1

theorem uuid_value (s r rest : Text) (h : uuid s = some (r, rest)) : s.head?.any isValueChar = true := by
  obtain ⟨-, -, c, s', rfl, hc⟩ := uuid_eq_some h
  exact isValueChar_of_hex hc

/-- The bracket of the placeholder begins and continues no word. -/
theorem reaches_bracket {σ : Type} {step : σ → Char → Verdict σ} {start : σ} {w : Text} (hstart : step start '[' = .fail)
    (hw : ∀ l ∈ w, isLetter l = true) (u : Text) : reaches (wordStep step start) (.word w) (uuidPlaceholder ++ u) = false := by
  cases w with
  | nil =>
    rw [reaches_start]
    exact reaches_fail (c := '[') hstart
  | cons l w => exact reaches_inside (c := '[') (hw l (List.mem_cons_self ..)) (by decide)

theorem uuid_back_keyed : Backs uuid (wordStep valueStep .sep) (InWords keywords) := by
  intro q s r rest u hq hmatch _ h
  obtain ⟨rfl, -, c, s, rfl, hc⟩ := uuid_eq_some hmatch
  cases q with
  | word w =>
    obtain ⟨v, hv, hw⟩ := hq
    rw [reaches_bracket (by decide) fun l hl => (keywords_letters v hv l (hw.subset hl)).1] at h
    cases h
  | tail q =>
    rw [reaches_tail] at h ⊢
    by_cases hsep : q = .sep
    · subst hsep
      rw [show reaches valueStep .sep (uuidPlaceholder ++ u) = false from rfl] at h
      cases h
    · exact reaches_value hsep (isValueChar_of_hex hc)

theorem uuid_back_credential : Backs uuid (wordStep credentialStep .blank) (InWords schemes) := by
  intro q s r rest u hq hmatch _ h
  obtain ⟨rfl, -, -⟩ := uuid_eq_some hmatch
  cases q with
  | word w =>
    obtain ⟨v, hv, hw⟩ := hq
    rw [reaches_bracket (by decide) fun l hl => schemes_letters v hv l (hw.subset hl)] at h
    cases h
  | tail q =>
    rw [reaches_tail] at h
    cases q with
    | blank => cases h
    | body => cases h

theorem uuid_back : Backs uuid uuidStep (fun _ => True) := by
  intro q s r rest u _ hmatch _ h
  obtain ⟨rfl, -, -⟩ := uuid_eq_some hmatch
  cases q with
  | nil => cases h
  | cons hex shape => cases hex <;> cases h

theorem uuid_dead {p x : Text} (hp : ∀ x ∈ p.tails, x ≠ [] → dies uuidStep uuidShape x = true) (hx : x <:+ p) (hne : x ≠ []) (u : Text) :
    uuid (x ++ u) = none :=
  uuid_eq_none.mpr (reaches_of_dies (hp x ((List.mem_tails x p).mpr hx) hne) u)

/-- What is neither a digit nor a dash is in no UUID. -/
theorem stripShape_stops {shape : List Bool} (hlen : k.length < shape.length) (hhex : isHex c = false) (hdash : (c == '-') = false)
    (u : Text) : stripShape shape (k ++ c :: u) = none := by
  induction shape generalizing k with
  | nil => cases hlen
  | cons hex shape ih =>
    cases hmatch : stripShape (hex :: shape) (k ++ c :: u) with
    | none => rfl
    | some rest =>
      obtain ⟨d, s', hs, hd, hrest⟩ := stripShape_cons hmatch
      cases k with
      | nil =>
        obtain ⟨rfl, rfl⟩ := List.cons.inj hs
        cases hex <;> simp [hhex, hdash] at hd
      | cons d' k =>
        obtain ⟨rfl, rfl⟩ := List.cons.inj hs
        have hnone : stripShape shape (k ++ c :: u) = none := ih (by simpa using hlen)
        exact absurd (hnone.symm.trans hrest) nofun

theorem uuid_copies (k x u : Text) (hk : k.map foldCase ∈ keywords) (hx : x <:+ k ++ keyPlaceholder) (hne : x ≠ []) :
    uuid (x ++ u) = none := by
  rcases suffix_append_cases hx with hx | ⟨k', -, hsuffix, rfl⟩
  · exact uuid_dead (by decide) hx hne u
  · have hlong : ∀ w ∈ keywords, w.length < uuidShape.length := by decide
    have hlen := hlong _ hk
    rw [List.length_map] at hlen
    have hstops : stripShape uuidShape (k' ++ keyPlaceholder ++ u) = none := by
      rw [List.append_assoc]
      exact stripShape_stops (c := '=') (Nat.lt_of_le_of_lt hsuffix.length_le hlen) rfl rfl _
    unfold uuid
    rw [hstops]
    rfl

/-- What the third pass leaves has no UUID. -/
theorem no_uuid (h : Subs uuid t u) {v : Text} (hv : v <:+ u) : uuid v = none := by
  refine uuid_eq_none.mpr (Subs.gone (G := fun _ => True) (fun _ _ _ _ _ => trivial) uuid_back uuid_suffix trivial ?_ h
    (fun _ _ hnone => uuid_eq_none.mp hnone) hv)
  intro s r rest u x hmatch hx hne
  obtain ⟨rfl, -, -⟩ := uuid_eq_some hmatch
  exact uuid_eq_none.mp (uuid_dead (by decide) hx hne u)

theorem no_credential_uuid (h : Subs uuid t u) (ht : ∀ v, v <:+ t → credential v = none) {v : Text} (hv : v <:+ u) : credential v = none := by
  refine credential_eq_none.mpr fun w hw => Subs.gone inWords_step uuid_back_credential uuid_suffix (inWords_word hw) ?_ h
    (fun v hv _ => credential_eq_none.mp (ht v hv) w hw) hv
  intro s r rest u x hmatch hx hne
  obtain ⟨rfl, -, -⟩ := uuid_eq_some hmatch
  have hnone : credential (x ++ u) = none := by
    have hall : (uuidPlaceholder.all fun c => foldCase c != 'b') = true := by decide
    exact credential_eq_none_of_ne fun c s' hs => bne_iff_ne.mp (List.all_eq_true.mp hall c (mem_of_suffix hx hne hs))
  exact credential_eq_none.mp hnone w hw

theorem placed_uuid (h : Subs uuid t u) (ht : Placed t) : Placed u := by
  refine ht.kept uuid_back_keyed uuid_suffix uuid_value ?_ uuid_copies h
  intro s r rest u x hmatch hx hne
  obtain ⟨rfl, -, -⟩ := uuid_eq_some hmatch
  exact keyed_dead (by decide) hx hne u

/-! ## The whole text -/

theorem unquote_suffix (s : Text) : unquote s <:+ s := by
  cases s with
  | nil => exact List.suffix_refl []
  | cons c s =>
    rw [unquote]
    by_cases hquote : isQuote c = true
    · rw [if_pos hquote]
      exact List.suffix_cons c s
    · rw [if_neg hquote]

theorem valueOf_suffix (h : valueOf s = some rest) : rest <:+ s := by
  unfold valueOf at h
  split at h
  · cases h
  · rename_i c s' hvalue
    have hs : c :: s' <:+ s := hvalue ▸ (unquote_suffix _).trans (List.dropWhile_suffix isSpace)
    split at h
    · cases h
      exact ((List.dropWhile_suffix isValueChar).trans (List.suffix_cons c s')).trans hs
    · cases h

theorem valueAfter_suffix (s rest : Text) (h : valueAfter s = some rest) : rest <:+ s := by
  unfold valueAfter at h
  split at h
  · cases h
  · rename_i c s' hdrop
    have hs : c :: s' <:+ s := hdrop ▸ List.dropWhile_suffix isSpace
    split at h
    · exact ((valueOf_suffix h).trans (List.suffix_cons c s')).trans hs
    · cases h

theorem afterWord_shrinks {words : List Text} {tail : Text → Option Text} {placeholder : Text} (hwords : [] ∉ words)
    (htail : ∀ s rest, tail s = some rest → rest <:+ s) : (afterWord words tail placeholder).Shrinks := by
  intro s r rest h
  obtain ⟨k, after, hk, rfl, hafter, -⟩ := afterWord_eq_some h
  have hle := (htail after rest hafter).length_le
  have hlen : k.length ≠ 0 := by
    intro h0
    obtain rfl := List.length_eq_zero_iff.mp h0
    exact hwords hk
  rw [List.length_append]
  omega

theorem keyed_shrinks : keyed.Shrinks := afterWord_shrinks (by decide) valueAfter_suffix

theorem credential_shrinks : credential.Shrinks := afterWord_shrinks (by decide) credentialAfter_suffix

theorem uuid_shrinks : uuid.Shrinks := by
  intro s r rest h
  unfold uuid at h
  obtain ⟨rest', hrest, h⟩ := Option.bind_eq_some_iff.mp h
  cases h
  obtain ⟨c, s, rfl, -, hrest⟩ := @stripShape_cons _ _ true _ hrest
  have hle := (stripShape_suffix hrest).length_le
  rw [List.length_cons]
  omega

/-- What is sanitized is redacted. -/
theorem redacted_sanitizeLogText (text : Text) : Redacted (sanitizeLogText text) := by
  have hfirst := subs_sub keyed_shrinks text
  have hsecond := subs_sub credential_shrinks (sub keyed text)
  have hthird := subs_sub uuid_shrinks (sub credential (sub keyed text))
  exact {
    placed := placed_uuid hthird (placed_credential hsecond (placed_keyed hfirst))
    noCredential := fun _ hv => no_credential_uuid hthird (fun _ hw => no_credential hsecond hw) hv
    noUuid := fun _ hv => no_uuid hthird hv }

theorem Redacted.fixed (h : Redacted t) : sanitizeLogText t = t := by
  have hkeyed : sub keyed t = t := (subs_sub keyed_shrinks t).fixed h.placed
  have hcredential : sub credential t = t := (subs_sub credential_shrinks t).fixed fun v hv r rest hmatch => by
    rw [h.noCredential v hv] at hmatch
    cases hmatch
  have huuid : sub uuid t = t := (subs_sub uuid_shrinks t).fixed fun v hv r rest hmatch => by
    rw [h.noUuid v hv] at hmatch
    cases hmatch
  rw [sanitizeLogText, hkeyed, hcredential, huuid]

theorem afterWord_ne_nil {words : List Text} {tail : Text → Option Text} {placeholder : Text} (hplace : placeholder ≠ []) (v r rest : Text)
    (h : afterWord words tail placeholder v = some (r, rest)) : r ≠ [] := by
  obtain ⟨k, -, -, -, -, rfl⟩ := afterWord_eq_some h
  exact fun hr => hplace (List.append_eq_nil_iff.mp hr).2

theorem sanitizeLogText_eq_nil (h : sanitizeLogText t = []) : t = [] := by
  have huuid : sub credential (sub keyed t) = [] := (subs_sub uuid_shrinks _).eq_nil (fun v r rest hmatch => by
    rw [(uuid_eq_some hmatch).1]
    decide) h
  have hcredential : sub keyed t = [] := (subs_sub credential_shrinks _).eq_nil (afterWord_ne_nil (by decide)) huuid
  exact (subs_sub keyed_shrinks t).eq_nil (afterWord_ne_nil (by decide)) hcredential

theorem sanitizeLogText_idem (t : Text) : sanitizeLogText (sanitizeLogText t) = sanitizeLogText t :=
  (redacted_sanitizeLogText t).fixed

end

end Palworld.Logs

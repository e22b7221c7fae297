import Palworld.Lib.Base64
import Palworld.Lib.JsonRoundTrip
import Palworld.Lib.PyRepr
import Palworld.Update.Progress

/-!
# The record of the last deployment

`get_last_update_summary` reads `last_update.json`, and `acknowledge_last_update` writes it back
with one more field. The file is written by a script and may hold anything.
-/

open Lib

namespace Palworld.Update

/-! ## Reading and acknowledging -/

/-- How deep the interpreter lets a decoder, an encoder and `repr` nest. -/
structure Limits where
  decode : Nat
  encode : Nat
  repr : Nat

/-- The file that `post_update_file`, or else the resolved path, names. -/
inductive RecordFile
  | missing
  | unreadable                                -- `OSError`
  | holds (content : List UInt8)
  deriving DecidableEq

inductive RecordError
  | osError
  | valueError                                -- also of the decoders and of the response model
  | attributeError
  | typeError
  | overflowError
  | recursionError
  deriving DecidableEq

/-- The `except` clauses. -/
def RecordError.Caught (e : RecordError) : Prop := e = .osError ∨ e = .valueError

instance (e : RecordError) : Decidable e.Caught := inferInstanceAs (Decidable (e = .osError ∨ e = .valueError))

def ofDecode : DecodeError → RecordError
  | .malformed => .valueError
  | .tooManyDigits => .valueError
  | .tooDeep => .recursionError

def ofIntError : IntError → RecordError
  | .typeError => .typeError
  | .overflowError => .overflowError
  | .valueError => .valueError

/-- `target.read_text(encoding="utf-8").strip()`. -/
def readRaw : RecordFile → Except RecordError Text
  | .holds content =>
    match utf8Decode content with
    | some t => .ok (strip (universalNewlines t))
    | none => .error .valueError
  | _ => .error .osError

/-- `json.loads`, as a caller sees it. -/
def loadsRecord (limits : Limits) (raw : Text) : Except RecordError JsonValue := (loads limits.decode raw).mapError ofDecode

abbrev Fields := List (PyStr × JsonValue)

/-- `data.get(key, default)`. -/
def field (fields : Fields) (key : String) (default : JsonValue) : JsonValue :=
  (lookup (PyStr.ofText (lit key)) fields).getD default

def textValue (s : String) : JsonValue := .str (PyStr.ofText (lit s))

def isFailed : JsonValue → Bool
  | .str s => s = PyStr.ofText (lit "failed")
  | _ => false

/-- `str(value)`. -/
def strOf (isPrintable : Char → Bool) (limits : Limits) (value : JsonValue) : Except RecordError PyStr :=
  match value.toStr isPrintable limits.repr with
  | some s => .ok s
  | none => .error .recursionError

/-- `int(value)`. -/
def intOfValue [Unicode] (value : JsonValue) : Except RecordError Int := value.toInt.mapError ofIntError

/-- `str(value) if value is not None else None`. -/
def strOrNone (isPrintable : Char → Bool) (limits : Limits) (value : JsonValue) : Except RecordError (Option PyStr) :=
  match value with
  | .null => .ok none
  | value => (strOf isPrintable limits value).map some

/-- A text field of the response model. It takes no half of a surrogate pair. -/
def validText (s : PyStr) : Except RecordError Text :=
  match s.toText? with
  | some t => .ok t
  | none => .error .valueError

def validOptional : Option PyStr → Except RecordError (Option Text)
  | some s => (validText s).map some
  | none => .ok none

/-- The keyword arguments of `PostUpdateSummary`. -/
structure SummaryArguments where
  failed : Bool
  targetBranch : PyStr
  deployedVersion : Option PyStr
  deployedCommit : PyStr
  deployedCommitShort : PyStr
  deployedAt : PyStr
  durationSeconds : Int
  summary : PyStr
  acknowledged : Bool

def summaryArguments [Unicode] (isPrintable : Char → Bool) (limits : Limits) (fields : Fields) : Except RecordError SummaryArguments := do
  let failed := isFailed (field fields "status" .null)
  let targetBranch ← strOf isPrintable limits (field fields "target_branch" (textValue "main"))
  let deployedVersion ← strOrNone isPrintable limits (field fields "deployed_version" .null)
  let deployedCommit ← strOf isPrintable limits (field fields "deployed_commit" (textValue "unknown"))
  let deployedCommitShort ← strOf isPrintable limits (field fields "deployed_commit_short" (textValue "unknown"))
  let deployedAt ← strOf isPrintable limits (field fields "deployed_at" (textValue ""))
  let duration ← intOfValue (field fields "duration_seconds" (.int PyInt.zero))
  let summary ← strOf isPrintable limits (field fields "summary" (textValue ""))
  let acknowledged := (field fields "acknowledged" (.bool false)).truth
  return ⟨failed, targetBranch, deployedVersion, deployedCommit, deployedCommitShort, deployedAt, max 0 duration, summary, acknowledged⟩

/-- The constructor of `PostUpdateSummary`, which validates. -/
def postUpdateSummary (arguments : SummaryArguments) : Except RecordError PostUpdateSummary := do
  let targetBranch ← validText arguments.targetBranch
  let deployedVersion ← validOptional arguments.deployedVersion
  let deployedCommit ← validText arguments.deployedCommit
  let deployedCommitShort ← validText arguments.deployedCommitShort
  let deployedAt ← validText arguments.deployedAt
  let summary ← validText arguments.summary
  return ⟨arguments.failed, targetBranch, deployedVersion, deployedCommit, deployedCommitShort, deployedAt,
    arguments.durationSeconds.toNat, summary, arguments.acknowledged⟩

def summaryOf [Unicode] (isPrintable : Char → Bool) (limits : Limits) (fields : Fields) : Except RecordError PostUpdateSummary := do
  postUpdateSummary (← summaryArguments isPrintable limits fields)

/-- The `try` block of `get_last_update_summary`. -/
def readSummary [Unicode] (isPrintable : Char → Bool) (limits : Limits) (file : RecordFile) : Except RecordError (Option PostUpdateSummary) := do
  let raw ← readRaw file
  if raw = [] then return none
  match ← loadsRecord limits raw with
  | .object fields => some <$> summaryOf isPrintable limits fields
  | _ => throw .attributeError

def getLastUpdateSummary [Unicode] (isPrintable : Char → Bool) (limits : Limits) (file : RecordFile) :
    Except RecordError (Option PostUpdateSummary) :=
  match file with
  | .missing => .ok none
  | file =>
    match readSummary isPrintable limits file with
    | .ok summary => .ok summary
    | .error e => if e.Caught then .ok none else .error e

/-- `data["acknowledged"] = True`. -/
def acknowledgedFields (fields : Fields) : Fields := setEntry (PyStr.ofText (lit "acknowledged")) (.bool true) fields

/-- The text that `acknowledge_last_update` writes. -/
def acknowledgedText (limits : Limits) (file : RecordFile) : Except RecordError Text := do
  let raw ← readRaw file
  match ← loadsRecord limits raw with
  | .object fields =>
    match dumps limits.encode (.object (acknowledgedFields fields)) with
    | some t => return t
    | none => throw .recursionError
  | _ => throw .typeError

/-- The answer of `acknowledge_last_update` and the file behind it. `writes` says whether `atomic_write_file` goes through. -/
def acknowledgeLastUpdate (limits : Limits) (writes : Bool) (file : RecordFile) : Except RecordError (Bool × RecordFile) :=
  match file with
  | .missing => .ok (false, .missing)
  | file =>
    match acknowledgedText limits file with
    | .ok t => if writes then .ok (true, .holds (utf8Encode t)) else .ok (false, file)
    | .error e => if e.Caught then .ok (false, file) else .error e

/-! ## Which records are understood -/

/-- The values that become texts before the duration is read. -/
def earlyTexts (fields : Fields) : List JsonValue :=
  [field fields "target_branch" (textValue "main"), field fields "deployed_version" .null, field fields "deployed_commit" (textValue "unknown"),
    field fields "deployed_commit_short" (textValue "unknown"), field fields "deployed_at" (textValue "")]

def durationValue (fields : Fields) : JsonValue := field fields "duration_seconds" (.int PyInt.zero)

def summaryValue (fields : Fields) : JsonValue := field fields "summary" (textValue "")

/-- A string without a half of a surrogate pair, or no string. -/
def Plain : JsonValue → Prop
  | .str s => s.toText? ≠ none
  | _ => True

/-- No conversion raises anything but a `ValueError`. -/
def Harmless [Unicode] (limits : Limits) (fields : Fields) : Prop :=
  (∀ value ∈ earlyTexts fields, value.depth ≤ limits.repr) ∧
    match (durationValue fields).toInt with
    | .ok _ => (summaryValue fields).depth ≤ limits.repr
    | .error e => e = .valueError

/-- All conversions go through. -/
def Convertible [Unicode] (limits : Limits) (fields : Fields) : Prop :=
  (∀ value ∈ earlyTexts fields, value.depth ≤ limits.repr ∧ Plain value) ∧ (∃ n, (durationValue fields).toInt = .ok n) ∧
    (summaryValue fields).depth ≤ limits.repr ∧ Plain (summaryValue fields)

/-- What is empty or no text, no JSON or JSON with too long a number is not understood, and handled. Everything else has to be an object
without a field that raises, and with readable fields only where it can be written back. -/
def Handled [Unicode] (limits : Limits) : RecordFile → Prop
  | .holds content => ∀ raw, readRaw (.holds content) = .ok raw → raw ≠ [] →
    match loads limits.decode raw with
    | .error e => e ≠ .tooDeep
    | .ok (.object fields) =>
      Harmless limits fields ∧ ((JsonValue.object (acknowledgedFields fields)).depth ≤ limits.encode → Convertible limits fields)
    | .ok _ => False
  | _ => True

/-- Reading never raises, and an acknowledged record is read as the same summary, acknowledged. -/
structure Robust [Unicode] (isPrintable : Char → Bool) (limits : Limits) (file : RecordFile) : Prop where
  reads : ∃ summary, getLastUpdateSummary isPrintable limits file = .ok summary
  acknowledges : ∀ writes after, acknowledgeLastUpdate limits writes file = .ok (true, after) →
    ∃ summary, getLastUpdateSummary isPrintable limits file = .ok (some summary) ∧
      getLastUpdateSummary isPrintable limits after = .ok (some { summary with acknowledged := true })

/-! ## The conversions -/

section

variable {isPrintable : Char → Bool} {limits : Limits} {value : JsonValue} {fields : Fields}

/-- A text that is valid exactly where something holds. -/
def ValidWhen {α : Type} (P : Prop) (valid : Except RecordError α) : Prop := P ∧ (∃ t, valid = .ok t) ∨ ¬ P ∧ valid = .error .valueError

/-- A value that is nested too deep has no text. Another one has a text, which is valid where the value is plain. -/
theorem strOf_cases (isPrintable : Char → Bool) (limits : Limits) (value : JsonValue) :
    (value.depth ≤ limits.repr ∧ ∃ s, strOf isPrintable limits value = .ok s ∧ ValidWhen (Plain value) (validText s)) ∨
    (¬ value.depth ≤ limits.repr ∧ strOf isPrintable limits value = .error .recursionError) := by
  by_cases hstr : ∃ s, value = .str s
  · obtain ⟨s, rfl⟩ := hstr
    refine .inl ⟨Nat.zero_le _, s, rfl, ?_⟩
    unfold ValidWhen validText Plain
    cases htext : s.toText? with
    | some t => exact .inl ⟨by simp [htext], t, rfl⟩
    | none => exact .inr ⟨by simp [htext], rfl⟩
  · have htoStr : value.toStr isPrintable limits.repr =
        if value.depth ≤ limits.repr then some (PyStr.ofText (value.repr isPrintable)) else none := by
      cases value with
      | str s => exact absurd ⟨s, rfl⟩ hstr
      | _ => rfl
    have hplain : Plain value := by
      cases value with
      | str s => exact absurd ⟨s, rfl⟩ hstr
      | _ => trivial
    unfold strOf
    rw [htoStr]
    by_cases hdepth : value.depth ≤ limits.repr
    · rw [if_pos hdepth]
      refine .inl ⟨hdepth, _, rfl, .inl ⟨hplain, value.repr isPrintable, ?_⟩⟩
      unfold validText
      rw [toText?_ofText]
    · rw [if_neg hdepth]
      exact .inr ⟨hdepth, rfl⟩

theorem strOrNone_cases (isPrintable : Char → Bool) (limits : Limits) (value : JsonValue) :
    (value.depth ≤ limits.repr ∧ ∃ s, strOrNone isPrintable limits value = .ok s ∧ ValidWhen (Plain value) (validOptional s)) ∨
    (¬ value.depth ≤ limits.repr ∧ strOrNone isPrintable limits value = .error .recursionError) := by
  by_cases hnull : value = .null
  · subst hnull
    exact .inl ⟨Nat.zero_le _, none, rfl, .inl ⟨trivial, none, rfl⟩⟩
  · have heq : strOrNone isPrintable limits value = (strOf isPrintable limits value).map some := by
      cases value with
      | null => exact absurd rfl hnull
      | _ => rfl
    rw [heq]
    rcases strOf_cases isPrintable limits value with ⟨hdepth, s, hs, ⟨hplain, t, ht⟩ | ⟨hplain, ht⟩⟩ | ⟨hdepth, hs⟩
    · rw [hs]
      refine .inl ⟨hdepth, some s, rfl, .inl ⟨hplain, some t, ?_⟩⟩
      rw [validOptional, ht]
      rfl
    · rw [hs]
      refine .inl ⟨hdepth, some s, rfl, .inr ⟨hplain, ?_⟩⟩
      rw [validOptional, ht]
      rfl
    · rw [hs]
      exact .inr ⟨hdepth, rfl⟩

theorem postUpdateSummary_cases {arguments : SummaryArguments} {P₁ P₂ P₃ P₄ P₅ P₆ : Prop} (h₁ : ValidWhen P₁ (validText arguments.targetBranch))
    (h₂ : ValidWhen P₂ (validOptional arguments.deployedVersion)) (h₃ : ValidWhen P₃ (validText arguments.deployedCommit))
    (h₄ : ValidWhen P₄ (validText arguments.deployedCommitShort)) (h₅ : ValidWhen P₅ (validText arguments.deployedAt))
    (h₆ : ValidWhen P₆ (validText arguments.summary)) :
    ((P₁ ∧ P₂ ∧ P₃ ∧ P₄ ∧ P₅ ∧ P₆) ∧ ∃ summary, postUpdateSummary arguments = .ok summary) ∨
      ¬ (P₁ ∧ P₂ ∧ P₃ ∧ P₄ ∧ P₅ ∧ P₆) ∧ postUpdateSummary arguments = .error .valueError := by
  unfold postUpdateSummary
  rcases h₁ with ⟨p₁, t₁, h₁⟩ | ⟨p₁, h₁⟩
  case inr => exact .inr ⟨by simp [p₁], by rw [h₁]; rfl⟩
  rcases h₂ with ⟨p₂, t₂, h₂⟩ | ⟨p₂, h₂⟩
  case inr => exact .inr ⟨by simp [p₂], by rw [h₁, h₂]; rfl⟩
  rcases h₃ with ⟨p₃, t₃, h₃⟩ | ⟨p₃, h₃⟩
  case inr => exact .inr ⟨by simp [p₃], by rw [h₁, h₂, h₃]; rfl⟩
  rcases h₄ with ⟨p₄, t₄, h₄⟩ | ⟨p₄, h₄⟩
  case inr => exact .inr ⟨by simp [p₄], by rw [h₁, h₂, h₃, h₄]; rfl⟩
  rcases h₅ with ⟨p₅, t₅, h₅⟩ | ⟨p₅, h₅⟩
  case inr => exact .inr ⟨by simp [p₅], by rw [h₁, h₂, h₃, h₄, h₅]; rfl⟩
  rcases h₆ with ⟨p₆, t₆, h₆⟩ | ⟨p₆, h₆⟩
  case inr => exact .inr ⟨by simp [p₆], by rw [h₁, h₂, h₃, h₄, h₅, h₆]; rfl⟩
  exact .inl ⟨⟨p₁, p₂, p₃, p₄, p₅, p₆⟩, _, by rw [h₁, h₂, h₃, h₄, h₅, h₆]; rfl⟩

variable [Unicode]

theorem Convertible.harmless (h : Convertible limits fields) : Harmless limits fields := by
  obtain ⟨hearly, ⟨n, hn⟩, hdepth, -⟩ := h
  refine ⟨fun value hvalue => (hearly value hvalue).1, ?_⟩
  rw [hn]
  exact hdepth

theorem intOfValue_cases (value : JsonValue) :
    (∃ n, value.toInt = .ok n ∧ intOfValue value = .ok n) ∨ (value.toInt = .error .valueError ∧ intOfValue value = .error .valueError) ∨
      ((∃ e, value.toInt = .error e ∧ e ≠ .valueError) ∧ ∃ e, ¬ e.Caught ∧ intOfValue value = .error e) := by
  unfold intOfValue
  cases value.toInt with
  | ok n => exact .inl ⟨n, rfl, rfl⟩
  | error e =>
    cases e with
    | valueError => exact .inr (.inl ⟨rfl, rfl⟩)
    | typeError => exact .inr (.inr ⟨⟨_, rfl, by decide⟩, .typeError, by decide, rfl⟩)
    | overflowError => exact .inr (.inr ⟨⟨_, rfl, by decide⟩, .overflowError, by decide, rfl⟩)

/-- The arguments, or the first conversion that raises. -/
theorem summaryArguments_cases (isPrintable : Char → Bool) (limits : Limits) (fields : Fields) :
    (Harmless limits fields ∧ (∃ n, (durationValue fields).toInt = .ok n) ∧
      ∃ arguments, summaryArguments isPrintable limits fields = .ok arguments ∧
        ValidWhen (Plain (field fields "target_branch" (textValue "main"))) (validText arguments.targetBranch) ∧
        ValidWhen (Plain (field fields "deployed_version" .null)) (validOptional arguments.deployedVersion) ∧
        ValidWhen (Plain (field fields "deployed_commit" (textValue "unknown"))) (validText arguments.deployedCommit) ∧
        ValidWhen (Plain (field fields "deployed_commit_short" (textValue "unknown"))) (validText arguments.deployedCommitShort) ∧
        ValidWhen (Plain (field fields "deployed_at" (textValue ""))) (validText arguments.deployedAt) ∧
        ValidWhen (Plain (summaryValue fields)) (validText arguments.summary)) ∨
    (Harmless limits fields ∧ (durationValue fields).toInt = .error .valueError ∧
      summaryArguments isPrintable limits fields = .error .valueError) ∨
    (¬ Harmless limits fields ∧ ∃ e, ¬ e.Caught ∧ summaryArguments isPrintable limits fields = .error e) := by
  have hdeep : ∀ value ∈ earlyTexts fields, ¬ value.depth ≤ limits.repr → ¬ Harmless limits fields :=
    fun value hvalue hdepth hharmless => hdepth (hharmless.1 value hvalue)
  have hcaught : ¬ RecordError.recursionError.Caught := by decide
  unfold summaryArguments
  -- the texts before the duration
  rcases strOf_cases isPrintable limits (field fields "target_branch" (textValue "main")) with ⟨hd₁, s₁, hs₁, hv₁⟩ | ⟨hd₁, hs₁⟩
  case inr => exact .inr (.inr ⟨hdeep _ (by simp [earlyTexts]) hd₁, _, hcaught, by rw [hs₁]; rfl⟩)
  rcases strOrNone_cases isPrintable limits (field fields "deployed_version" .null) with ⟨hd₂, s₂, hs₂, hv₂⟩ | ⟨hd₂, hs₂⟩
  case inr => exact .inr (.inr ⟨hdeep _ (by simp [earlyTexts]) hd₂, _, hcaught, by rw [hs₁, hs₂]; rfl⟩)
  rcases strOf_cases isPrintable limits (field fields "deployed_commit" (textValue "unknown")) with ⟨hd₃, s₃, hs₃, hv₃⟩ | ⟨hd₃, hs₃⟩
  case inr => exact .inr (.inr ⟨hdeep _ (by simp [earlyTexts]) hd₃, _, hcaught, by rw [hs₁, hs₂, hs₃]; rfl⟩)
  rcases strOf_cases isPrintable limits (field fields "deployed_commit_short" (textValue "unknown")) with ⟨hd₄, s₄, hs₄, hv₄⟩ | ⟨hd₄, hs₄⟩
  case inr => exact .inr (.inr ⟨hdeep _ (by simp [earlyTexts]) hd₄, _, hcaught, by rw [hs₁, hs₂, hs₃, hs₄]; rfl⟩)
  rcases strOf_cases isPrintable limits (field fields "deployed_at" (textValue "")) with ⟨hd₅, s₅, hs₅, hv₅⟩ | ⟨hd₅, hs₅⟩
  case inr => exact .inr (.inr ⟨hdeep _ (by simp [earlyTexts]) hd₅, _, hcaught, by rw [hs₁, hs₂, hs₃, hs₄, hs₅]; rfl⟩)
  have hearly : ∀ value ∈ earlyTexts fields, value.depth ≤ limits.repr := by
    simp only [earlyTexts, List.forall_mem_cons]
    exact ⟨hd₁, hd₂, hd₃, hd₄, hd₅, by simp⟩
  -- the duration
  rcases intOfValue_cases (durationValue fields) with ⟨n, hint, hn⟩ | ⟨hint, hn⟩ | ⟨⟨e, hint, hne⟩, e', he', hn⟩
  · -- the text behind it
    rcases strOf_cases isPrintable limits (summaryValue fields) with ⟨hd₆, s₆, hs₆, hv₆⟩ | ⟨hd₆, hs₆⟩
    · have hharmless : Harmless limits fields := ⟨hearly, by rw [hint]; exact hd₆⟩
      refine .inl ⟨hharmless, ⟨n, hint⟩, ⟨isFailed (field fields "status" .null), s₁, s₂, s₃, s₄, s₅, max 0 n, s₆,
        (field fields "acknowledged" (.bool false)).truth⟩, ?_, hv₁, hv₂, hv₃, hv₄, hv₅, hv₆⟩
      unfold durationValue at hn
      unfold summaryValue at hs₆
      rw [hs₁, hs₂, hs₃, hs₄, hs₅, hn, hs₆]
      rfl
    · refine .inr (.inr ⟨fun h => ?_, _, hcaught, ?_⟩)
      · have hsummary := h.2
        rw [hint] at hsummary
        exact hd₆ hsummary
      · unfold durationValue at hn
        unfold summaryValue at hs₆
        rw [hs₁, hs₂, hs₃, hs₄, hs₅, hn, hs₆]
        rfl
  · refine .inr (.inl ⟨⟨hearly, by rw [hint]⟩, hint, ?_⟩)
    unfold durationValue at hn
    rw [hs₁, hs₂, hs₃, hs₄, hs₅, hn]
    rfl
  · refine .inr (.inr ⟨fun h => ?_, e', he', ?_⟩)
    · have hduration := h.2
      rw [hint] at hduration
      exact hne hduration
    · unfold durationValue at hn
      rw [hs₁, hs₂, hs₃, hs₄, hs₅, hn]
      rfl

/-- The summary of an object, the `ValueError` that is caught, or something that is not. -/
theorem summaryOf_cases (isPrintable : Char → Bool) (limits : Limits) (fields : Fields) :
    (Convertible limits fields ∧ ∃ summary, summaryOf isPrintable limits fields = .ok summary) ∨
    (Harmless limits fields ∧ ¬ Convertible limits fields ∧ summaryOf isPrintable limits fields = .error .valueError) ∨
    (¬ Harmless limits fields ∧ ∃ e, ¬ e.Caught ∧ summaryOf isPrintable limits fields = .error e) := by
  unfold summaryOf
  rcases summaryArguments_cases isPrintable limits fields with
    ⟨hharmless, ⟨n, hint⟩, arguments, harguments, hv₁, hv₂, hv₃, hv₄, hv₅, hv₆⟩ | ⟨hharmless, hint, harguments⟩ | ⟨hharmless, e, he, harguments⟩
  · have hsummary := hharmless.2
    rw [hint] at hsummary
    have hplain : Convertible limits fields ↔ Plain (field fields "target_branch" (textValue "main")) ∧
        Plain (field fields "deployed_version" .null) ∧ Plain (field fields "deployed_commit" (textValue "unknown")) ∧
        Plain (field fields "deployed_commit_short" (textValue "unknown")) ∧ Plain (field fields "deployed_at" (textValue "")) ∧
        Plain (summaryValue fields) := by
      have hearly := hharmless.1
      simp only [earlyTexts, List.forall_mem_cons] at hearly
      simp only [Convertible, earlyTexts, List.forall_mem_cons, hint, hsummary]
      simp [hearly, and_assoc]
    rw [harguments, hplain]
    rcases postUpdateSummary_cases hv₁ hv₂ hv₃ hv₄ hv₅ hv₆ with h | h
    · exact .inl h
    · exact .inr (.inl ⟨hharmless, h⟩)
  · refine .inr (.inl ⟨hharmless, ?_, by rw [harguments]; rfl⟩)
    rintro ⟨-, ⟨n, hn⟩, -⟩
    rw [hint] at hn
    cases hn
  · exact .inr (.inr ⟨hharmless, e, he, by rw [harguments]; rfl⟩)

end

/-! ## The record after it is acknowledged -/

section

variable {limits : Limits} {fields : Fields} {content : List UInt8} {raw : Text}

theorem ofText_inj {a b : Text} (h : PyStr.ofText a = PyStr.ofText b) : a = b := by
  have htext := congrArg PyStr.toText? h
  rwa [toText?_ofText, toText?_ofText, Option.some.injEq] at htext

theorem field_acknowledgedFields {key : String} (h : lit key ≠ lit "acknowledged") (default : JsonValue) :
    field (acknowledgedFields fields) key default = field fields key default := by
  unfold field acknowledgedFields
  rw [lookup_setEntry, if_neg fun heq => h (ofText_inj heq)]

theorem truth_acknowledgedFields (default : JsonValue) : (field (acknowledgedFields fields) "acknowledged" default).truth = true := by
  unfold field acknowledgedFields
  rw [lookup_setEntry, if_pos rfl]
  rfl

theorem summaryOf_acknowledgedFields [Unicode] (isPrintable : Char → Bool) :
    summaryOf isPrintable limits (acknowledgedFields fields) =
      (fun summary => { summary with acknowledged := true }) <$> summaryOf isPrintable limits fields := by
  have hstatus : lit "status" ≠ lit "acknowledged" := by decide
  have hbranch : lit "target_branch" ≠ lit "acknowledged" := by decide
  have hversion : lit "deployed_version" ≠ lit "acknowledged" := by decide
  have hcommit : lit "deployed_commit" ≠ lit "acknowledged" := by decide
  have hshort : lit "deployed_commit_short" ≠ lit "acknowledged" := by decide
  have hat : lit "deployed_at" ≠ lit "acknowledged" := by decide
  have hduration : lit "duration_seconds" ≠ lit "acknowledged" := by decide
  have hsummary : lit "summary" ≠ lit "acknowledged" := by decide
  simp only [summaryOf, summaryArguments, postUpdateSummary, bind_assoc, map_bind, pure_bind, map_pure, truth_acknowledgedFields,
    field_acknowledgedFields hstatus, field_acknowledgedFields hbranch, field_acknowledgedFields hversion,
    field_acknowledgedFields hcommit, field_acknowledgedFields hshort, field_acknowledgedFields hat, field_acknowledgedFields hduration,
    field_acknowledgedFields hsummary]

theorem depth_acknowledgedFields {d : Nat} (h : (JsonValue.object fields).depth ≤ d + 1) :
    (JsonValue.object (acknowledgedFields fields)).depth ≤ d + 1 := by
  have hfields := (depthFields_le fields d).mp (Nat.le_of_succ_le_succ h)
  refine Nat.succ_le_succ ((depthFields_le _ d).mpr ?_)
  intro entry hentry
  rcases mem_setEntry hentry with rfl | hentry
  · exact Nat.zero_le _
  · exact hfields entry hentry

theorem wf_acknowledgedFields (h : (JsonValue.object fields).Wf) : (JsonValue.object (acknowledgedFields fields)).Wf := by
  obtain ⟨hnodup, hfields⟩ := h
  have hwf := (wfFields_iff fields).mp hfields
  refine ⟨nodup_setEntry hnodup, (wfFields_iff _).mpr ?_⟩
  intro entry hentry
  rcases mem_setEntry hentry with rfl | hentry
  · exact ⟨joined_ofText _, trivial⟩
  · exact hwf entry hentry

/-- A document is read as it is written. -/
theorem readRaw_dump (fields : Fields) : readRaw (.holds (utf8Encode ((JsonValue.object fields).dump 0))) = .ok ((JsonValue.object fields).dump 0) := by
  have hreturn : '\r' ∉ (JsonValue.object fields).dump 0 := by
    intro hmem
    have hdumped := List.all_eq_true.mp (isDumped_dump (.object fields) 0) _ hmem
    cases hdumped
  have hstrip : strip ((JsonValue.object fields).dump 0) = (JsonValue.object fields).dump 0 := by
    obtain ⟨inner, hinner⟩ := dump_object 0 fields
    rw [hinner, strip, lstrip, List.dropWhile_cons_of_neg (by decide), ← List.cons_append, rstrip_append_solid (by decide)]
    rfl
  simp only [readRaw, utf8Decode_utf8Encode, universalNewlines_eq hreturn, hstrip]

theorem acknowledgedText_object (hraw : readRaw (.holds content) = .ok raw) (hload : loads limits.decode raw = .ok (.object fields)) :
    acknowledgedText limits (.holds content) =
      match dumps limits.encode (.object (acknowledgedFields fields)) with
      | some t => .ok t
      | none => .error .recursionError := by
  simp only [acknowledgedText, hraw, bind, Except.bind, loadsRecord, hload]
  rfl

end

/-! ## What each kind of record leads to -/

section

variable [Unicode] {isPrintable : Char → Bool} {limits : Limits} {file : RecordFile} {content : List UInt8} {raw : Text} {fields : Fields}

/-- A record whose reading ends with a caught error. -/
theorem robust_of_caught {e : RecordError} (he : e.Caught) (hread : readSummary isPrintable limits file = .error e)
    (hwrite : acknowledgedText limits file = .error e) : Robust isPrintable limits file := by
  cases file with
  | missing => exact ⟨⟨none, rfl⟩, fun writes after h => by cases h⟩
  | unreadable =>
    refine ⟨⟨none, ?_⟩, fun writes after h => ?_⟩
    · simp only [getLastUpdateSummary, hread, if_pos he]
    · simp only [acknowledgeLastUpdate, hwrite, if_pos he] at h
      cases h
  | holds content =>
    refine ⟨⟨none, ?_⟩, fun writes after h => ?_⟩
    · simp only [getLastUpdateSummary, hread, if_pos he]
    · simp only [acknowledgeLastUpdate, hwrite, if_pos he] at h
      cases h

theorem not_robust_of_raise {e : RecordError} (he : ¬ e.Caught) (hread : readSummary isPrintable limits (.holds content) = .error e) :
    ¬ Robust isPrintable limits (.holds content) := by
  rintro ⟨⟨summary, h⟩, -⟩
  simp only [getLastUpdateSummary, hread, if_neg he] at h
  cases h

theorem readSummary_of_get {summary : PostUpdateSummary} (h : getLastUpdateSummary isPrintable limits (.holds content) = .ok (some summary)) :
    readSummary isPrintable limits (.holds content) = .ok (some summary) := by
  unfold getLastUpdateSummary at h
  dsimp only at h
  split at h
  · rename_i heq
    cases h
    exact heq
  · split at h <;> cases h

theorem robust_of_empty (hraw : readRaw (.holds content) = .ok []) : Robust isPrintable limits (.holds content) := by
  refine ⟨⟨none, ?_⟩, fun writes after h => ?_⟩
  · simp only [getLastUpdateSummary, readSummary, hraw]
    rfl
  · have hwrite : acknowledgedText limits (.holds content) = .error .valueError := by
      simp only [acknowledgedText, hraw, bind, Except.bind, loadsRecord, loads_nil]
      rfl
    simp only [acknowledgeLastUpdate, hwrite, if_pos (show RecordError.valueError.Caught by decide)] at h
    cases h

theorem readSummary_of_raw (hraw : readRaw (.holds content) = .ok raw) (hne : raw ≠ []) :
    readSummary isPrintable limits (.holds content) = (do
      match ← loadsRecord limits raw with
      | .object fields => some <$> summaryOf isPrintable limits fields
      | _ => throw .attributeError) := by
  unfold readSummary
  rw [hraw]
  simp only [bind, Except.bind, if_neg hne]

theorem robust_of_error {e : DecodeError} (hraw : readRaw (.holds content) = .ok raw) (hne : raw ≠ [])
    (hload : loads limits.decode raw = .error e) : Robust isPrintable limits (.holds content) ↔ e ≠ .tooDeep := by
  have hrecord : loadsRecord limits raw = .error (ofDecode e) := by
    rw [loadsRecord, hload]
    rfl
  have hread : readSummary isPrintable limits (.holds content) = .error (ofDecode e) := by
    rw [readSummary_of_raw hraw hne, hrecord]
    rfl
  have hwrite : acknowledgedText limits (.holds content) = .error (ofDecode e) := by
    simp only [acknowledgedText, hraw, bind, Except.bind, hrecord]
  cases e with
  | malformed => exact iff_of_true (robust_of_caught (by decide) hread hwrite) (by decide)
  | tooManyDigits => exact iff_of_true (robust_of_caught (by decide) hread hwrite) (by decide)
  | tooDeep => exact iff_of_false (not_robust_of_raise (by decide) hread) (by decide)

theorem not_robust_of_value {value : JsonValue} (hraw : readRaw (.holds content) = .ok raw) (hne : raw ≠ [])
    (hload : loads limits.decode raw = .ok value) (hvalue : ∀ fields, value ≠ .object fields) :
    ¬ Robust isPrintable limits (.holds content) := by
  have hread : readSummary isPrintable limits (.holds content) = .error .attributeError := by
    rw [readSummary_of_raw hraw hne, loadsRecord, hload]
    cases value with
    | object fields => exact absurd rfl (hvalue fields)
    | _ => rfl
  exact not_robust_of_raise (by decide) hread

/-- An object that is written back is read as the same summary, acknowledged. -/
theorem reads_acknowledged {t : Text} (hload : loads limits.decode raw = .ok (.object fields))
    (hdump : dumps limits.encode (.object (acknowledgedFields fields)) = some t) {summary : PostUpdateSummary}
    (hsummary : summaryOf isPrintable limits fields = .ok summary) :
    getLastUpdateSummary isPrintable limits (.holds (utf8Encode t)) = .ok (some { summary with acknowledged := true }) := by
  obtain ⟨hwf, hdepth⟩ := loads_spec hload
  obtain ⟨d, hd⟩ : ∃ d, limits.decode = d + 1 := by
    refine ⟨limits.decode - 1, ?_⟩
    simp only [JsonValue.depth] at hdepth
    omega
  rw [hd] at hdepth
  have ht : t = (JsonValue.object (acknowledgedFields fields)).dump 0 := (dumps_eq_some.mp hdump).2
  have hagain : loads limits.decode t = .ok (.object (acknowledgedFields fields)) := by
    rw [hd, ht]
    exact loads_dump (wf_acknowledgedFields hwf) (depth_acknowledgedFields hdepth)
  have hne : t ≠ [] := by
    obtain ⟨inner, hinner⟩ := dump_object 0 (acknowledgedFields fields)
    rw [ht, hinner]
    simp
  have hread : readSummary isPrintable limits (.holds (utf8Encode t)) = .ok (some { summary with acknowledged := true }) := by
    have hraw : readRaw (.holds (utf8Encode t)) = .ok t := by rw [ht]; exact readRaw_dump _
    rw [readSummary_of_raw hraw hne, loadsRecord, hagain]
    show some <$> summaryOf isPrintable limits (acknowledgedFields fields) = _
    rw [summaryOf_acknowledgedFields, hsummary]
    rfl
  simp only [getLastUpdateSummary, hread]

theorem robust_of_object (hraw : readRaw (.holds content) = .ok raw) (hne : raw ≠ []) (hload : loads limits.decode raw = .ok (.object fields)) :
    Robust isPrintable limits (.holds content) ↔
      Harmless limits fields ∧ ((JsonValue.object (acknowledgedFields fields)).depth ≤ limits.encode → Convertible limits fields) := by
  have hread : readSummary isPrintable limits (.holds content) = some <$> summaryOf isPrintable limits fields := by
    rw [readSummary_of_raw hraw hne, loadsRecord, hload]
    rfl
  have hwrite := acknowledgedText_object hraw hload
  rcases summaryOf_cases isPrintable limits fields with ⟨hconvertible, summary, hsummary⟩ | ⟨hharmless, hconvertible, hsummary⟩ |
    ⟨hharmless, e, he, hsummary⟩
  · have hget : getLastUpdateSummary isPrintable limits (.holds content) = .ok (some summary) := by
      rw [hsummary] at hread
      simp only [getLastUpdateSummary, hread]
      rfl
    refine iff_of_true ⟨⟨_, hget⟩, fun writes after h => ⟨summary, hget, ?_⟩⟩ ⟨hconvertible.harmless, fun _ => hconvertible⟩
    cases hdump : dumps limits.encode (.object (acknowledgedFields fields)) with
    | none =>
      rw [hdump] at hwrite
      simp only [acknowledgeLastUpdate, hwrite, if_neg (show ¬ RecordError.recursionError.Caught by decide)] at h
      cases h
    | some t =>
      rw [hdump] at hwrite
      cases writes with
      | false =>
        simp only [acknowledgeLastUpdate, hwrite] at h
        cases h
      | true =>
        simp only [acknowledgeLastUpdate, hwrite] at h
        cases h
        exact reads_acknowledged hload hdump hsummary
  · have hget : getLastUpdateSummary isPrintable limits (.holds content) = .ok none := by
      rw [hsummary] at hread
      simp only [getLastUpdateSummary, hread]
      rfl
    have hlimit : Robust isPrintable limits (.holds content) ↔ ¬ (JsonValue.object (acknowledgedFields fields)).depth ≤ limits.encode := by
      constructor
      · intro hrobust hdepth
        rw [dumps, if_pos hdepth] at hwrite
        obtain ⟨summary, hsome, -⟩ := hrobust.acknowledges true _ (by simp only [acknowledgeLastUpdate, hwrite]; rfl)
        rw [hget] at hsome
        cases hsome
      · intro hdepth
        rw [dumps, if_neg hdepth] at hwrite
        refine ⟨⟨none, hget⟩, fun writes after h => ?_⟩
        simp only [acknowledgeLastUpdate, hwrite, if_neg (show ¬ RecordError.recursionError.Caught by decide)] at h
        cases h
    rw [hlimit]
    exact ⟨fun hdepth => ⟨hharmless, fun h => absurd h hdepth⟩, fun h hdepth => hconvertible (h.2 hdepth)⟩
  · rw [hsummary] at hread
    exact iff_of_false (not_robust_of_raise he hread) fun h => hharmless h.1

/-- **Robustness.** A record is handled exactly where it has the shape that the two functions expect, or none that they can decode. -/
theorem robust_iff (isPrintable : Char → Bool) (limits : Limits) (file : RecordFile) :
    Robust isPrintable limits file ↔ Handled limits file := by
  cases file with
  | missing => exact iff_of_true ⟨⟨none, rfl⟩, fun writes after h => by cases h⟩ trivial
  | unreadable => exact iff_of_true (robust_of_caught (e := .osError) (by decide) rfl rfl) trivial
  | holds content =>
    cases hraw : readRaw (.holds content) with
    | error e =>
      have he : e = .valueError := by
        unfold readRaw at hraw
        dsimp only at hraw
        split at hraw
        · cases hraw
        · exact (Except.error.inj hraw).symm
      subst he
      refine iff_of_true (robust_of_caught (e := .valueError) (by decide) ?_ ?_) fun raw h => ?_
      · simp only [readSummary, hraw]
        rfl
      · simp only [acknowledgedText, hraw]
        rfl
      · rw [hraw] at h
        cases h
    | ok raw =>
      have hhandled : Handled limits (.holds content) ↔ (raw ≠ [] →
          match loads limits.decode raw with
          | .error e => e ≠ .tooDeep
          | .ok (.object fields) =>
            Harmless limits fields ∧ ((JsonValue.object (acknowledgedFields fields)).depth ≤ limits.encode → Convertible limits fields)
          | .ok _ => False) := by
        refine ⟨fun h => h raw hraw, fun h other hother => ?_⟩
        rw [hraw] at hother
        cases hother
        exact h
      rw [hhandled]
      by_cases hne : raw = []
      · subst hne
        exact iff_of_true (robust_of_empty hraw) fun h => absurd rfl h
      · cases hload : loads limits.decode raw with
        | error e =>
          rw [robust_of_error hraw hne hload]
          exact ⟨fun h _ => h, fun h => h hne⟩
        | ok value =>
          cases value with
          | object fields =>
            rw [robust_of_object hraw hne hload]
            exact ⟨fun h _ => h, fun h => h hne⟩
          | _ => exact iff_of_false (not_robust_of_value hraw hne hload (by simp)) fun h => h hne

end

/-- An array is a document, and has no fields to get. -/
theorem array_raises : ¬ @Robust Unicode.ascii Char.isAlphanum ⟨990, 990, 990⟩ (.holds (utf8Encode ['[', ']'])) := by
  have hraw : readRaw (.holds (utf8Encode ['[', ']'])) = .ok ['[', ']'] := by
    simp only [readRaw, utf8Decode_utf8Encode]
    rfl
  have hload : loads 990 ['[', ']'] = .ok (.array []) := rfl
  exact @not_robust_of_value Unicode.ascii _ ⟨990, 990, 990⟩ _ _ _ hraw (by simp) hload (by simp)

end Palworld.Update

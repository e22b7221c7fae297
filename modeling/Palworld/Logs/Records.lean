import Palworld.Lib.FormatRewrite
import Palworld.Logs.Redaction

/-!
# The records that the handlers write

`SensitiveDataFilter` sanitizes the format string of a record. The arguments are put in later,
by each handler.
-/

open Lib

namespace Palworld.Logs

/-- The message of a record. The filter only looks at a `str`. -/
inductive Message
  | text (format : Text)
  | object (shown : Text)

def Message.shown : Message → Text
  | .text format => format
  | .object shown => shown

/-- A record. Arguments that are empty or `None` are no arguments. -/
structure LogRecord (V : Type) where
  msg : Message
  args : Option (Args V)

variable {V : Type} (values : Values V)

/-- `record.getMessage()`. `none` is what the formatting raises. -/
def LogRecord.getMessage (record : LogRecord V) : Option Text :=
  match record.args with
  | none => some record.msg.shown
  | some args => percent values record.msg.shown args

/-- `SensitiveDataFilter.filter`. The record goes on in any case. -/
def LogRecord.filter (record : LogRecord V) : LogRecord V :=
  match record.msg with
  | .text format => { record with msg := .text (sanitizeLogText format) }
  | .object _ => record

/-- The message that each handler formats. Each has the filter, and all handle the same record. -/
def callHandlers : Nat → LogRecord V → List (Option Text)
  | 0, _ => []
  | handlers + 1, record => record.filter.getMessage values :: callHandlers handlers record.filter

/-- `logger.handle(record)`. The filter of the logger comes first. -/
def handle (handlers : Nat) (record : LogRecord V) : List (Option Text) := callHandlers values handlers record.filter

/-- Pass by pass, redacting the format string and the text it formats to replaces the same characters of the format string. No span
takes in a directive, or a part of what one is filled with. -/
def Spared (ss : List Slot) : Prop := ∃ a b c, Spares keyed ss a ∧ Spares credential a b ∧ Spares uuid b c

/-- The record has no arguments, or it has no secret, or none of its secrets reaches into a directive or into what one is filled with. -/
def Apart (format text : Text) (args : Option (Args V)) : Prop :=
  args = none ∨ (Redacted format ∧ Redacted text) ∨ ∃ given ss, args = some given ∧ slots values format given = some ss ∧ Spared ss

section

variable {values} {format text : Text} {args : Option (Args V)} {handlers : Nat}

theorem ne_percent_of_fold {c : Char} (hc : isLetter (foldCase c) = true) : c ≠ '%' := by
  rintro rfl
  cases hc

theorem percent_notMem_word {k placeholder : Text} (hk : ∀ c ∈ k, isLetter (foldCase c) = true) (hplaceholder : '%' ∉ placeholder) :
    '%' ∉ k ++ placeholder := by
  rw [List.mem_append, not_or]
  exact ⟨fun hmem => ne_percent_of_fold (hk _ hmem) rfl, hplaceholder⟩

theorem percent_notMem_keyed (s r rest : Text) (h : keyed s = some (r, rest)) : '%' ∉ r := by
  obtain ⟨k, after, hk, -, -, rfl⟩ := afterWord_eq_some h
  exact percent_notMem_word (fun c hc => letters_of_keyword hk hc) (by decide)

theorem percent_notMem_credential (s r rest : Text) (h : credential s = some (r, rest)) : '%' ∉ r := by
  obtain ⟨k, after, hk, -, -, rfl⟩ := afterWord_eq_some h
  exact percent_notMem_word (fun c hc => letters_of_scheme hk hc) (by decide)

theorem percent_notMem_uuid (s r rest : Text) (h : uuid s = some (r, rest)) : '%' ∉ r := by
  obtain ⟨rfl, -⟩ := uuid_eq_some h
  decide

theorem sanitizeLogText_eq {a b c t : Text} (ha : Subs keyed t a) (hb : Subs credential a b) (hc : Subs uuid b c) :
    sanitizeLogText t = c := by
  obtain rfl := ha.unique keyed_shrinks (subs_sub keyed_shrinks t)
  obtain rfl := hb.unique credential_shrinks (subs_sub credential_shrinks _)
  exact (subs_sub uuid_shrinks _).unique uuid_shrinks hc

theorem getMessage_of_slots {given : Args V} {ss : List Slot} (hss : slots values format given = some ss) :
    LogRecord.getMessage values ⟨.text format, some given⟩ = some (filledIn ss) := by
  unfold LogRecord.getMessage percent
  dsimp only [Message.shown]
  rw [hss, Option.map_some]

/-- Redacting the format string and formatting it is then formatting it and redacting the text. -/
theorem Spared.getMessage {given : Args V} {ss : List Slot} (h : Spared ss) (hss : slots values format given = some ss) :
    LogRecord.getMessage values ⟨.text (sanitizeLogText format), some given⟩ = some (sanitizeLogText (filledIn ss)) := by
  obtain ⟨rfl, htakes⟩ := slots_eq_some.mp hss
  obtain ⟨a, b, c, ha, hb, hc⟩ := h
  have hleft : Takes values c given :=
    hc.takes percent_notMem_uuid (hb.takes percent_notMem_credential (ha.takes percent_notMem_keyed htakes))
  have hslots : slots values (written c) given = some c := slots_eq_some.mpr ⟨rfl, hleft⟩
  rw [sanitizeLogText_eq ha.written hb.written hc.written, sanitizeLogText_eq ha.filledIn hb.filledIn hc.filledIn]
  exact getMessage_of_slots hslots

end

/-! ## Secrets in the arguments -/

end Palworld.Logs

import Palworld.Config.Pipeline
import Palworld.Config.Entries

/-!
# What a written value leaves behind it

A string in parentheses is written without quotes, and its first closing parenthesis ends
what is read of it. Any other string is written in quotes, and its first quote ends what is
read of it. The rest is scanned for assignments.
-/

open Lib

namespace Palworld.Config

variable {F : Type} [Unicode] [PyFloat F] {v : PyValue F} {k : Text}

/-- Nothing in the value or in its `str` is a double quote. -/
def QuoteFree : PyValue F → Prop
  | .str s | .other s => '"' ∉ s
  | .bool _ | .int _ | .float _ | .none => True

def PlainList (v : PyValue F) : Prop := ∃ inner, v = .str ('(' :: (inner ++ [')'])) ∧ ')' ∉ inner

def upToQuote (s : Text) : Text := (universalNewlines s).takeWhile (· ≠ '"')

/-- What stands behind the first quote of the string, the closing one included. -/
def behindQuote (s : Text) : Text := ((universalNewlines s ++ ['"']).dropWhile (· ≠ '"')).tail

/-- What the parser takes for the value. -/
def firstRead : PyValue F → PyValue F
  | .str s =>
    .str (if ['('].isPrefixOf s ∧ [')'].isSuffixOf s then (universalNewlines s).takeWhile (· ≠ ')') ++ [')']
      else upToQuote s)
  | .float x => bareValue (PyFloat.format6f x)
  | .bool b => .bool b
  | .int n => .int n
  | .none => .str (lit "None")
  | .other shown => .str (upToQuote shown)

def behind : PyValue F → Text
  | .str s =>
    if ['('].isPrefixOf s ∧ [')'].isSuffixOf s then ((universalNewlines s).dropWhile (· ≠ ')')).tail
    else behindQuote s
  | .other shown => behindQuote shown
  | .float _ | .bool _ | .int _ | .none => []

def spilled (v : PyValue F) : List (Token F) := tokens (behind v)

/-! ## One value -/

/-- The text is read as one token, up to the rest. -/
def Reads (text : Text) (v : PyValue F) (rest : Text) : Prop :=
  tokenValue text = some (v, rest) ∧ opensValue text = false

omit [Unicode] in
theorem universalNewlines_between (first last : Char) (s : Text) (hfirst : first ≠ '\r') (hlast : last ≠ '\r')
    (hlast' : last ≠ '\n') :
    universalNewlines (first :: (s ++ [last])) = first :: (universalNewlines s ++ [last]) := by
  rw [universalNewlines_cons hfirst, universalNewlines_append hlast hlast']
  rfl

theorem reads_quoted (s : Text) :
    Reads (universalNewlines ('"' :: (s ++ ['"']))) (.str (upToQuote s) : PyValue F) (behindQuote s) := by
  rw [universalNewlines_between _ _ _ (by decide) (by decide) (by decide)]
  refine ⟨?_, opensValue_quoted⟩
  rw [tokenValue_quote (by simp), takeWhile_append_stop (by simp)]
  rfl

theorem reads_numeral {t : Text} (hne : t ≠ []) (hchars : ∀ c ∈ t, isNumeralChar c = true) :
    Reads (universalNewlines t) (bareValue t : PyValue F) [] := by
  have hreturn : '\r' ∉ t := fun hmem => absurd (hchars _ hmem) (by decide)
  rw [universalNewlines_eq hreturn]
  exact tokenValue_numeral hne hchars

omit [Unicode] in
theorem universalNewlines_list (inner : Text) :
    universalNewlines ('(' :: (inner ++ [')'])) = '(' :: (universalNewlines inner ++ [')']) :=
  universalNewlines_between '(' ')' inner (by decide) (by decide) (by decide)

omit [Unicode] [PyFloat F] in
theorem behind_list (inner : Text) : behind (.str ('(' :: (inner ++ [')'])) : PyValue F) =
    ((universalNewlines inner ++ [')']).dropWhile (· ≠ ')')).tail := by
  rw [behind, if_pos ((listLike_iff _).mpr ⟨inner, rfl⟩), universalNewlines_list,
    List.dropWhile_cons_of_pos (by decide)]

theorem reads_list (inner : Text) :
    Reads (universalNewlines ('(' :: (inner ++ [')'])))
      (firstRead (.str ('(' :: (inner ++ [')']))) : PyValue F) (behind (.str ('(' :: (inner ++ [')'])) : PyValue F)) := by
  have hmem : ')' ∈ universalNewlines inner ++ [')'] := by simp
  rw [behind_list, firstRead, if_pos ((listLike_iff _).mpr ⟨inner, rfl⟩), universalNewlines_list]
  refine ⟨?_, opensValue_list⟩
  rw [tokenValue_paren hmem]
  simp

/-- **A written value is read up to what it leaves behind it.** -/
theorem reads_written (v : PyValue F) : Reads (universalNewlines (valueText v)) (firstRead v) (behind v) := by
  cases v with
  | bool b =>
    cases b with
    | true =>
      have hread := reads_numeral (F := F) (t := lit "True") (by decide +kernel) (List.all_eq_true.mp (by decide +kernel))
      rwa [bareValue_true] at hread
    | false =>
      have hread := reads_numeral (F := F) (t := lit "False") (by decide +kernel) (List.all_eq_true.mp (by decide +kernel))
      rwa [bareValue_false] at hread
  | int n =>
    have hread := reads_numeral (F := F) n.toText_spec.1 n.toText_spec.2
    rwa [bareValue_toText] at hread
  | float x => exact reads_numeral (PyFloat.format6f_ne_nil x) (PyFloat.format6f_chars x)
  | str s =>
    rcases valueText_str_cases (F := F) s with ⟨inner, rfl, htext⟩ | ⟨hno, htext⟩
    · rw [htext]
      exact reads_list inner
    · have hnot := mt (listLike_iff s).mp hno
      rw [htext, firstRead, behind, if_neg hnot, if_neg hnot]
      exact reads_quoted s
  | none =>
    have hread := reads_quoted (F := F) (lit "None")
    exact hread
  | other shown => exact reads_quoted shown

/-! ## What is left closed -/

omit [Unicode] in
theorem quote_notMem_universalNewlines {s : Text} (h : '"' ∉ s) : '"' ∉ universalNewlines s := by
  intro hmem
  rcases mem_universalNewlines hmem with hmem | hmem
  · exact h hmem
  · cases hmem

omit [Unicode] in
theorem behindQuote_eq {s : Text} (h : '"' ∉ s) : behindQuote s = [] := by
  unfold behindQuote
  rw [dropWhile_ne_stop (quote_notMem_universalNewlines h)]
  rfl

theorem closed_behind_list {inner : Text} (h : '"' ∉ inner ∨ ')' ∉ inner) :
    Closed F (behind (.str ('(' :: (inner ++ [')'])) : PyValue F)) := by
  rw [behind_list]
  by_cases hinner : ')' ∈ universalNewlines inner
  · obtain ⟨front, rest, hsplit, hfront⟩ := List.eq_append_cons_of_mem hinner
    have hquote : '"' ∉ inner := by
      refine h.resolve_right fun hno => ?_
      rcases mem_universalNewlines hinner with hin | hin
      · exact hno hin
      · cases hin
    rw [hsplit, List.append_assoc, List.cons_append, dropWhile_ne_stop hfront, List.tail_cons]
    refine closed_of_quoteless ?_ (by simp)
    have hsame := quote_notMem_universalNewlines hquote
    simp only [hsplit, List.mem_append, List.mem_cons, not_or] at hsame
    simpa using hsame.2.2
  · rw [dropWhile_ne_stop hinner]
    exact closed_nil

theorem closed_behind (h : QuoteFree v ∨ PlainList v) : Closed F (behind v) := by
  cases v with
  | bool | int | float | none => exact closed_nil
  | str s =>
    rcases valueText_str_cases (F := F) s with ⟨inner, rfl, -⟩ | ⟨hno, -⟩
    · apply closed_behind_list
      rcases h with hquote | ⟨inner', hinner, hplain⟩
      · exact Or.inl fun hmem => hquote (by simp [hmem])
      · obtain rfl := List.append_cancel_right (List.cons.inj (PyValue.str.inj hinner)).2
        exact Or.inr hplain
    · rcases h with hquote | ⟨inner, hinner, -⟩
      · rw [behind, if_neg (mt (listLike_iff s).mp hno), behindQuote_eq hquote]
        exact closed_nil
      · exact absurd ⟨inner, PyValue.str.inj hinner⟩ hno
  | other shown =>
    rcases h with hquote | ⟨inner, hinner, -⟩
    · rw [behind, behindQuote_eq hquote]
      exact closed_nil
    · cases hinner

/-! ## Strings that come back -/

theorem firstRead_of_not_list {s : Text} (hreturn : '\r' ∉ s) (hno : ¬ ∃ inner, s = '(' :: (inner ++ [')'])) :
    firstRead (.str s : PyValue F) = .str s ↔ '"' ∉ s := by
  rw [firstRead, if_neg (mt (listLike_iff s).mp hno), upToQuote, universalNewlines_eq hreturn, PyValue.str.injEq,
    List.takeWhile_eq_self_iff]
  constructor
  · intro h hmem
    simpa using h _ hmem
  · rintro h c hc
    simp only [ne_eq, decide_eq_true_eq]
    rintro rfl
    exact h hc

theorem firstRead_list {s : Text} (hreturn : '\r' ∉ s) :
    firstRead (.str ('(' :: (s ++ [')'])) : PyValue F) = .str ('(' :: (s ++ [')'])) ↔ ')' ∉ s := by
  rw [firstRead, if_pos ((listLike_iff _).mpr ⟨s, rfl⟩), universalNewlines_list, universalNewlines_eq hreturn,
    PyValue.str.injEq, List.takeWhile_cons_of_pos (by decide), List.cons_append, List.cons.injEq]
  simp only [true_and, List.append_left_inj]
  constructor
  · intro htake hmem
    obtain ⟨front, rest, hsplit, hfront⟩ := List.eq_append_cons_of_mem hmem
    rw [hsplit, List.append_assoc, List.cons_append, takeWhile_ne_stop hfront] at htake
    simp at htake
  · exact fun hno => takeWhile_ne_stop hno

/-- The string reads back from its own text. It has no carriage return. In parentheses it has no closing one inside, and otherwise
no quote. -/
def TextSurvives (s : Text) : Prop :=
  '\r' ∉ s ∧ (∀ inner, s = '(' :: (inner ++ [')']) → ')' ∉ inner) ∧ ((¬ ∃ inner, s = '(' :: (inner ++ [')'])) → '"' ∉ s)

theorem return_notMem_firstRead (s : Text) {t : Text} (h : firstRead (.str s : PyValue F) = .str t) : '\r' ∉ t := by
  simp only [firstRead, PyValue.str.injEq] at h
  rintro hmem
  rw [← h] at hmem
  split at hmem
  · rcases List.mem_append.mp hmem with hmem | hmem
    · exact return_notMem_universalNewlines s ((List.takeWhile_prefix _).subset hmem)
    · exact absurd hmem (by decide)
  · exact return_notMem_universalNewlines s ((List.takeWhile_prefix _).subset hmem)

theorem firstRead_str_iff (s : Text) : firstRead (.str s : PyValue F) = .str s ↔ TextSurvives s := by
  by_cases hreturn : '\r' ∈ s
  · exact iff_of_false (fun h => return_notMem_firstRead s h hreturn) fun h => h.1 hreturn
  by_cases hlist : ∃ inner, s = '(' :: (inner ++ [')'])
  · obtain ⟨inner, rfl⟩ := hlist
    rw [firstRead_list (by simpa using hreturn)]
    constructor
    · intro hno
      refine ⟨hreturn, fun inner' hinner => ?_, fun hnot => absurd ⟨inner, rfl⟩ hnot⟩
      obtain rfl := List.append_cancel_right (List.cons.inj hinner).2
      exact hno
    · exact fun h => h.2.1 inner rfl
  · rw [firstRead_of_not_list hreturn hlist]
    exact ⟨fun hquote => ⟨hreturn, fun inner hinner => absurd ⟨inner, hinner⟩ hlist, fun _ => hquote⟩, fun h => h.2.2 hlist⟩

/-! ## One entry -/

theorem return_notMem_key (h : IsKey k) : '\r' ∉ k := by
  intro hmem
  have hword := List.all_eq_true.mp h.2 _ hmem
  rw [isWordChar_of_isSpace (by decide)] at hword
  cases hword

theorem writtenEntry_eq (hkey : IsKey k) : writtenEntry (k, v) = k ++ '=' :: universalNewlines (valueText v) := by
  rw [writtenEntry, entryText, universalNewlines_append_left (return_notMem_key hkey),
    universalNewlines_cons (by decide)]

theorem tokens_written (hkey : IsKey k) :
    (Closed F (writtenEntry (k, v)) ↔ Closed F (behind v)) ∧
      tokens (writtenEntry (k, v)) = (k, firstRead v) :: spilled v := by
  obtain ⟨htoken, hopen⟩ := reads_written v
  rw [writtenEntry_eq hkey, closed_entry hkey htoken, tokens_entry hkey htoken]
  exact ⟨and_iff_right hopen, rfl⟩

/-! ## The dict -/

/-- The assignments that the values leave behind, from the entry of the key on, or from the first entry
when the key has none. -/
def spilledOnto (k : Text) (settings : Settings F) : List (Token F) :=
  (fromKey k settings.entries).flatMap fun kv => spilled kv.2

/-- **What a dict is read as** when no value leaves a quote or a parenthesis open. A key has what was last left
behind for it, and without that what its own value reads as. -/
theorem get?_parse_serialize_of_closed {settings : Settings F} (hkeys : ∀ kv ∈ settings.entries, IsKey kv.1)
    (hclosed : ∀ kv ∈ settings.entries, Closed F (behind kv.2)) (k : Text) :
    (parseIniFile (serializeIniSettings settings)).get? k
      = (lastOf k (spilledOnto k settings)).or ((settings.get? k).map firstRead) := by
  rw [get?_parse_serialize, readBack_of_closed fun kv hkv => (tokens_written (hkeys kv hkv)).1.mpr (hclosed kv hkv),
    List.flatMap_congr fun kv hkv => (tokens_written (hkeys kv hkv)).2]
  exact lastOf_flatMap_cons settings.nodup firstRead fun kv => spilled kv.2

end Palworld.Config

import Palworld.Config.Scan

/-!
# What the parser reads in a serialized dict

The entries are read one by one. An entry that leaves a value open is read together
with the entries behind it, up to the one that closes it.
-/

open Lib

namespace Palworld.Config

variable {F : Type} [Unicode] [PyFloat F]

/-- Glue a text to the ones behind it until it is closed. -/
def glue (F : Type) [PyFloat F] (piece : Text) : List Text → List Text
  | [] => [piece]
  | t :: ts => if Closed F piece then piece :: glue F t ts else glue F (piece ++ ',' :: t) ts

def pieces (F : Type) [PyFloat F] : List Text → List Text
  | [] => []
  | t :: ts => glue F t ts

/-- An entry as the file has it once its line ends are read. -/
def writtenEntry (kv : Text × PyValue F) : Text := universalNewlines (entryText kv)

def readBack (settings : Settings F) : List (Token F) :=
  (pieces F (settings.entries.map writtenEntry)).flatMap tokens

/-! ## The pieces of a join -/

theorem tokens_glue (piece : Text) (ts : List Text) :
    (tokens (commaJoin (piece :: ts)) : List (Token F)) = (glue F piece ts).flatMap tokens := by
  induction ts generalizing piece with
  | nil => simp [commaJoin, List.intercalate, glue]
  | cons t ts ih =>
    rw [commaJoin_cons_cons, glue]
    split
    · rename_i hclosed
      rw [tokens_append hclosed, ih, List.flatMap_cons]
    · rw [← ih]
      cases ts with
      | nil => simp [commaJoin, List.intercalate]
      | cons t' ts => simp [commaJoin_cons_cons]

theorem tokens_commaJoin (ts : List Text) :
    (tokens (commaJoin ts) : List (Token F)) = (pieces F ts).flatMap tokens := by
  cases ts with
  | nil => rfl
  | cons t ts => exact tokens_glue t ts

theorem pieces_of_closed {ts : List Text} (h : ∀ t ∈ ts, Closed F t) : pieces F ts = ts := by
  cases ts with
  | nil => rfl
  | cons t ts =>
    change glue F t ts = t :: ts
    induction ts generalizing t with
    | nil => rfl
    | cons t' ts ih =>
      rw [glue, if_pos (h t List.mem_cons_self), ih t' fun s hs => h s (List.mem_cons_of_mem _ hs)]

theorem readBack_of_closed {settings : Settings F}
    (h : ∀ kv ∈ settings.entries, Closed F (writtenEntry kv)) :
    readBack settings = settings.entries.flatMap fun kv => tokens (writtenEntry kv) := by
  rw [readBack, pieces_of_closed, List.flatMap_map]
  intro t ht
  obtain ⟨kv, hkv, rfl⟩ := List.mem_map.mp ht
  exact h kv hkv

/-! ## The last character of an entry -/

omit [Unicode] in
theorem valueText_solid (v : PyValue F) : ∃ t c, valueText v = t ++ [c] ∧ isSpace c = false := by
  have hnumeral : ∀ t : Text, t ≠ [] → (∀ c ∈ t, isNumeralChar c = true) →
      ∃ t' c, t = t' ++ [c] ∧ isSpace c = false := by
    intro t hne hchars
    refine ⟨t.dropLast, t.getLast hne, (List.dropLast_append_getLast hne).symm, ?_⟩
    exact isSpace_of_isNumeralChar (hchars _ (List.getLast_mem hne))
  cases v with
  | bool b =>
    cases b
    · exact ⟨lit "Fals", 'e', rfl, by decide⟩
    · exact ⟨lit "Tru", 'e', rfl, by decide⟩
  | int n => exact hnumeral _ n.toText_spec.1 n.toText_spec.2
  | float x => exact hnumeral _ (PyFloat.format6f_ne_nil x) (PyFloat.format6f_chars x)
  | str s =>
    rw [valueText_str]
    split
    · rename_i hparens
      obtain ⟨t, ht⟩ := List.isSuffixOf_iff_suffix.mp hparens.2
      exact ⟨t, ')', ht.symm, by decide⟩
    · exact ⟨'"' :: s, '"', rfl, by decide⟩
  | none => exact ⟨lit "\"None", '"', rfl, by decide⟩
  | other shown => exact ⟨'"' :: shown, '"', rfl, by decide⟩

omit [Unicode] in
theorem writtenEntry_solid (kv : Text × PyValue F) : ∃ t c, writtenEntry kv = t ++ [c] ∧ isSpace c = false := by
  obtain ⟨t, c, ht, hc⟩ := valueText_solid kv.2
  have hr : c ≠ '\r' := by
    rintro rfl
    cases hc
  have hn : c ≠ '\n' := by
    rintro rfl
    cases hc
  refine ⟨universalNewlines (kv.1 ++ '=' :: t), c, ?_, hc⟩
  rw [writtenEntry, entryText, ht, ← List.cons_append, ← List.append_assoc, universalNewlines_append hr hn]
  rfl

theorem tokens_strip_join (settings : Settings F) :
    (tokens (strip (commaJoin (settings.entries.map writtenEntry))) : List (Token F)) = readBack settings := by
  cases hentries : settings.entries with
  | nil => rw [readBack, hentries]; rfl
  | cons kv rest =>
    have hsolid : ∀ t ∈ settings.entries.map writtenEntry, ∃ t' c, t = t' ++ [c] ∧ isSpace c = false := by
      intro t ht
      obtain ⟨kv, -, rfl⟩ := List.mem_map.mp ht
      exact writtenEntry_solid kv
    obtain ⟨t, c, ht, hc⟩ := commaJoin_solid (by simp [hentries]) hsolid
    rw [← hentries, ht, strip_append_solid hc, ← ht, tokens_lstrip, tokens_commaJoin]
    rfl

/-! ## The whole file -/

omit [Unicode] in
theorem universalNewlines_serialize (settings : Settings F) :
    universalNewlines (serializeIniSettings settings)
      = iniHeader ++ (payloadOpen ++ (commaJoin (settings.entries.map writtenEntry) ++ ')' :: ['\n'])) := by
  have hjoin := universalNewlines_commaJoin (settings.entries.map entryText)
  rw [List.map_map] at hjoin
  have hend : universalNewlines ['\n'] = ['\n'] := by decide
  rw [serializeIniSettings, List.append_assoc, List.append_assoc, universalNewlines_append_left (by decide),
    universalNewlines_append_left (by decide), payloadClose, universalNewlines_append (by decide) (by decide), hjoin,
    hend]
  rfl

omit [Unicode] in
/-- The payload of a serialized dict runs to the closing parenthesis of the serializer. -/
theorem optionSettings_serialize (settings : Settings F) :
    optionSettings (universalNewlines (serializeIniSettings settings))
      = some (commaJoin (settings.entries.map writtenEntry)) := by
  have hopen : payloadOpen = 'O' :: lit "ptionSettings=(" := by decide +kernel
  rw [universalNewlines_serialize, optionSettings, hopen, afterFirst_append_of_not_mem (by decide),
    afterFirst_self_append, Option.bind_some, beforeLast_append (by decide)]

/-- **Read after write.** Parsing a serialized dict assigns what its pieces hold, in their order. -/
theorem parse_serialize (settings : Settings F) :
    parseIniFile (serializeIniSettings settings) = Dict.ofList (readBack settings) := by
  rw [parseIniFile, optionSettings_serialize]
  simp only [tokens_strip_join]

theorem get?_parse_serialize (settings : Settings F) (k : Text) :
    (parseIniFile (serializeIniSettings settings)).get? k = lastOf k (readBack settings) := by
  rw [parse_serialize, Dict.get?_ofList]

/-! ## Entries that keep to themselves -/

/-- The written entry is closed and assigns no key but its own. -/
def Isolated (kv : Text × PyValue F) : Prop :=
  Closed F (writtenEntry kv) ∧ ∀ k ∈ (tokens (writtenEntry kv) : List (Token F)).map Prod.fst, k = kv.1

instance (kv : Text × PyValue F) : Decidable (Isolated kv) := inferInstanceAs (Decidable (_ ∧ _))

def reread (k : Text) (v : PyValue F) : Option (PyValue F) := lastOf k (tokens (writtenEntry (k, v)))

/-- **Isolated entries are read as they are written**, each on its own. -/
theorem get?_parse_serialize_of_isolated {settings : Settings F} (h : ∀ kv ∈ settings.entries, Isolated kv) (k : Text) :
    (parseIniFile (serializeIniSettings settings)).get? k = (settings.get? k).bind (reread k) := by
  rw [get?_parse_serialize, readBack_of_closed fun kv hkv => (h kv hkv).1]
  exact lastOf_flatMap settings.nodup fun kv hkv => (h kv hkv).2

end Palworld.Config

import Palworld.Config.Spill

/-!
# What the entries of a file are read as

A value that leaves a quote or a parenthesis open swallows the entries behind it. The
others stand. Each is read up to the end of its value, and what is left behind the value is
scanned for assignments.
-/

open Lib

namespace Palworld.Config

variable {F : Type} [Unicode] [PyFloat F] {k text piece value rest : Text} {v : PyValue F} {kv : Token F} {settings : Settings F}

/-- What an entry leaves to be scanned. A key that is not a word is scanned with its value. -/
def leftover (kv : Token F) : Text := if IsKey kv.1 then behind kv.2 else writtenEntry kv

/-- The entries from `kv` on that stand, each with what is scanned behind its value. -/
def swallow (kv : Token F) (text : Text) : List (Token F) → List (Text × PyValue F × Text)
  | [] => [(kv.1, kv.2, text)]
  | e :: es =>
    if Closed F text then (kv.1, kv.2, text) :: swallow e (leftover e) es
    else swallow kv (text ++ ',' :: writtenEntry e) es

def standing : List (Token F) → List (Text × PyValue F × Text)
  | [] => []
  | e :: es => swallow e (leftover e) es

def Stands (k : Text) (settings : Settings F) : Prop := k ∈ (standing settings.entries).map Prod.fst

instance : Decidable (Stands k settings) := inferInstanceAs (Decidable (_ ∈ _))

/-- The assignments that the values leave behind, from the entry of the key on. When the key has none that stands, all of them. -/
def leftBehind (k : Text) (settings : Settings F) : List (Token F) :=
  (fromKey k (standing settings.entries)).flatMap fun e => tokens e.2.2

/-! ## One entry and what it swallows -/

omit [Unicode] [PyFloat F] in
theorem opensValue_append {t : Text} (h : opensValue value = false) (hne : value ≠ []) : opensValue (value ++ t) = false := by
  obtain ⟨c, s, rfl⟩ := List.exists_cons_of_ne_nil hne
  simp only [opensValue, List.cons_append, Bool.or_eq_false_iff, Bool.and_eq_false_imp, beq_iff_eq, Bool.not_eq_false',
    List.contains_iff_mem] at h ⊢
  exact ⟨fun hquote => List.mem_append_left _ (h.1 hquote), fun hparen => List.mem_append_left _ (h.2 hparen)⟩

theorem Reads.append (h : Reads value v rest) (t : Text) : Reads (value ++ ',' :: t) v (rest ++ ',' :: t) := by
  obtain ⟨htoken, hopen⟩ := h
  have hne : value ≠ [] := by
    rintro rfl
    cases htoken
  refine ⟨?_, opensValue_append hopen hne⟩
  rw [tokenValue_append hopen, htoken]
  rfl

/-- The scan of the piece takes the entry, and goes on with the text. -/
def Scans (kv : Token F) (text piece : Text) : Prop :=
  if IsKey kv.1 then ∃ value, piece = kv.1 ++ '=' :: value ∧ Reads value (firstRead kv.2) text else piece = text

theorem scans_written (kv : Token F) : Scans kv (leftover kv) (writtenEntry kv) := by
  unfold Scans leftover
  split
  · rename_i hkey
    exact ⟨_, writtenEntry_eq hkey, reads_written kv.2⟩
  · rfl

theorem Scans.append (h : Scans kv text piece) (t : Text) : Scans kv (text ++ ',' :: t) (piece ++ ',' :: t) := by
  unfold Scans at h ⊢
  split
  · rename_i hkey
    rw [if_pos hkey] at h
    obtain ⟨value, rfl, hreads⟩ := h
    exact ⟨value ++ ',' :: t, by simp, hreads.append t⟩
  · rename_i hkey
    rw [if_neg hkey] at h
    rw [h]

theorem Scans.closed (h : Scans kv text piece) : Closed F piece ↔ Closed F text := by
  unfold Scans at h
  split at h
  · rename_i hkey
    obtain ⟨value, rfl, hreads⟩ := h
    rw [closed_entry hkey hreads.1, hreads.2]
    exact and_iff_right rfl
  · rw [h]

/-- For a key that is a word, the other kinds of key make no difference. -/
theorem Scans.lastOf_tokens (h : Scans kv text piece) (hk : IsKey k) :
    lastOf k (tokens piece) = lastOf k ((kv.1, firstRead kv.2) :: tokens text) := by
  unfold Scans at h
  split at h
  · rename_i hkey
    obtain ⟨value, rfl, hreads⟩ := h
    rw [tokens_entry hkey hreads.1]
  · rename_i hkey
    have hne : kv.1 ≠ k := by
      rintro rfl
      exact hkey hk
    rw [h, lastOf, if_neg hne, Option.or_none]

/-! ## All entries -/

theorem lastOf_glue (hk : IsKey k) (h : Scans kv text piece) (es : List (Token F)) :
    lastOf k ((glue F piece (es.map writtenEntry)).flatMap tokens) =
      lastOf k ((swallow kv text es).flatMap fun e => (e.1, firstRead e.2.1) :: tokens e.2.2) := by
  induction es generalizing kv text piece with
  | nil => simpa [glue, swallow] using h.lastOf_tokens hk
  | cons e es ih =>
    rw [List.map_cons, glue, swallow]
    by_cases hclosed : Closed F text
    · rw [if_pos (h.closed.mpr hclosed), if_pos hclosed, List.flatMap_cons, List.flatMap_cons, lastOf_append, lastOf_append,
        ih (scans_written e), h.lastOf_tokens hk]
    · rw [if_neg (mt h.closed.mp hclosed), if_neg hclosed]
      exact ih (h.append _)

theorem lastOf_readBack (hk : IsKey k) (settings : Settings F) : lastOf k (readBack settings) =
    lastOf k ((standing settings.entries).flatMap fun e => (e.1, firstRead e.2.1) :: tokens e.2.2) := by
  unfold readBack
  cases settings.entries with
  | nil => rfl
  | cons e es => exact lastOf_glue hk (scans_written e) es

theorem mem_swallow {e : Text × PyValue F × Text} {es : List (Token F)} (h : e ∈ swallow kv text es) :
    (e.1, e.2.1) ∈ kv :: es := by
  induction es generalizing kv text with
  | nil =>
    obtain rfl := List.mem_singleton.mp h
    exact List.mem_singleton_self _
  | cons e' es ih =>
    rw [swallow] at h
    split at h
    · rcases List.mem_cons.mp h with rfl | h
      · exact List.mem_cons_self
      · exact List.mem_cons_of_mem _ (ih h)
    · rcases List.mem_cons.mp (ih h) with hown | h
      · exact hown ▸ List.mem_cons_self
      · exact List.mem_cons_of_mem _ (List.mem_cons_of_mem _ h)

theorem keys_swallow (kv : Token F) (text : Text) (es : List (Token F)) :
    ((swallow kv text es).map Prod.fst).Sublist (kv.1 :: es.map Prod.fst) := by
  induction es generalizing kv text with
  | nil => exact List.Sublist.refl _
  | cons e es ih =>
    rw [swallow]
    split
    · exact (ih e _).cons_cons _
    · exact (ih kv _).trans ((List.sublist_cons_self _ _).cons_cons _)

theorem nodup_standing (settings : Settings F) : ((standing settings.entries).map Prod.fst).Nodup := by
  have hnodup := settings.nodup
  revert hnodup
  cases settings.entries with
  | nil => exact id
  | cons e es => exact fun hnodup => hnodup.sublist (keys_swallow e _ es)

/-- An entry that stands has the value that the dict has for its key. -/
theorem lookup_standing (k : Text) (settings : Settings F) :
    (lookup k (standing settings.entries)).map Prod.fst = if Stands k settings then settings.get? k else none := by
  split
  · rename_i hstands
    cases hlookup : lookup k (standing settings.entries) with
    | none => exact absurd hstands (lookup_eq_none.mp hlookup)
    | some e =>
      have hmem := mem_of_lookup hlookup
      have hentry : (k, e.1) ∈ settings.entries := by
        revert hmem
        cases settings.entries with
        | nil => exact fun hmem => absurd hmem List.not_mem_nil
        | cons e' es => exact mem_swallow
      exact (Dict.mem_entries.mp hentry).symm
  · rename_i hstands
    rw [lookup_eq_none.mpr hstands]
    rfl

/-- **What a dict is read as.** A word has what was last left behind for it, and without that what its own value reads as, when
its entry stands. -/
theorem get?_parse_serialize_standing (hk : IsKey k) (settings : Settings F) :
    (parseIniFile (serializeIniSettings settings)).get? k =
      (lastOf k (leftBehind k settings)).or ((if Stands k settings then settings.get? k else none).map firstRead) := by
  have hread := lastOf_flatMap_cons (k := k) (nodup_standing settings) (fun e => firstRead e.1) fun e => tokens e.2.2
  rw [get?_parse_serialize, lastOf_readBack hk, hread, ← lookup_standing, Option.map_map]
  rfl

end Palworld.Config

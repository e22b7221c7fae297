import Palworld.Config.Spill
import Palworld.Lib.SixPlaces

/-!
# A partial save and the other settings

The whole live file is read, changed in the incoming keys and written again. A setting
that is not named comes through unless its entry is no token, its value does not survive
its own text, or a value with a parenthesis in it spills an assignment on it.
-/

open Lib

namespace Palworld.Config

/-! ## The live file -/

inductive LiveValue
  | bare (run : Text)
  | quoted (inner : Text)
  | list (inner : Text)
  deriving DecidableEq

namespace LiveValue

def text : LiveValue → Text
  | bare run => run
  | quoted inner => '"' :: (inner ++ ['"'])
  | list inner => '(' :: (inner ++ [')'])

def rstrip : LiveValue → LiveValue
  | bare run => bare (Lib.rstrip run)
  | quoted inner => quoted inner
  | list inner => list inner

variable [Unicode]

def value : LiveValue → PyValue Binary64
  | bare run => bareValue run
  | quoted inner => .str inner
  | list inner => .str ('(' :: (inner ++ [')']))

/-- A number with a point in it has at most six decimals. -/
def SixDecimals (run : Text) : Prop :=
  ∀ neg d, signedDecimal (strip run) = some (neg, d) → ∃ n : Nat, d = (n : ℚ) / 10 ^ 6

def Legal : LiveValue → Prop
  | bare run => (∀ c ∈ run, c ∉ [',', '"', '(', ')']) ∧ SixDecimals run
  | quoted inner => '"' ∉ inner
  | list inner => '(' ∉ inner ∧ ')' ∉ inner

/-- The number has not overflowed, and a quoted list has no closing parenthesis inside. -/
def Stable : LiveValue → Prop
  | bare run => ∀ neg, bareValue run ≠ (.float (.infinite neg) : PyValue Binary64)
  | quoted inner => ∀ s, inner = '(' :: (s ++ [')']) → ')' ∉ s
  | list _ => True

end LiveValue

def liveText (kv : Text × LiveValue) : Text := kv.1 ++ '=' :: kv.2.text

/-- A file whose payload is a list of entries. -/
structure LiveFile [Unicode] where
  text : Text
  entries : List (Text × LiveValue)
  payload : optionSettings (universalNewlines text) = some (commaJoin (entries.map liveText))
  keys : ∀ kv ∈ entries, IsKey kv.1
  nodup : (entries.map Prod.fst).Nodup
  legal : ∀ kv ∈ entries, kv.2.Legal

/-- The entries as the stripped payload has them. -/
def stripLast : List (Text × LiveValue) → List (Text × LiveValue)
  | [] => []
  | [kv] => [(kv.1, kv.2.rstrip)]
  | kv :: next :: rest => kv :: stripLast (next :: rest)

section Save

variable [Unicode] {file : LiveFile} {kv : Text × LiveValue} {entries : List (Text × LiveValue)}

def readEntry (kv : Text × LiveValue) : List (Token Binary64) :=
  if kv.2 = .bare [] then [] else [(kv.1, kv.2.value)]

def readEntries (entries : List (Text × LiveValue)) : List (Token Binary64) := (stripLast entries).flatMap readEntry

/-- The live entries with the incoming public values put in place or appended. -/
def LiveFile.saved (file : LiveFile) (incoming : Settings Binary64) : Settings Binary64 :=
  (Dict.ofList (readEntries file.entries)).update (publicEntries incoming)

/-- What comes last of what other values leave behind for the key is its value. Without that, the
entry has a value, and the value survives its own text. -/
def LiveFile.Keeps (file : LiveFile) (incoming : Settings Binary64) (k : Text) (v : LiveValue) : Prop :=
  match lastOf k (spilledOnto k (file.saved incoming)) with
  | some w => w = v.value
  | none => (k, .bare []) ∉ stripLast file.entries ∧ v.Stable

/-! ## Stripping the payload -/

omit [Unicode] in
theorem rstrip_liveText : rstrip (liveText kv) = liveText (kv.1, kv.2.rstrip) := by
  obtain ⟨k, v⟩ := kv
  unfold liveText
  rw [rstrip_append_solid (by decide)]
  cases v with
  | bare run => rfl
  | quoted inner =>
    have hend : rstrip ('"' :: inner ++ '"' :: []) = '"' :: inner ++ '"' :: [] := rstrip_append_solid (by decide)
    exact congrArg (k ++ '=' :: ·) hend
  | list inner =>
    have hend : rstrip ('(' :: inner ++ ')' :: []) = '(' :: inner ++ ')' :: [] := rstrip_append_solid (by decide)
    exact congrArg (k ++ '=' :: ·) hend

omit [Unicode] in
theorem rstrip_join (entries : List (Text × LiveValue)) :
    rstrip (commaJoin (entries.map liveText)) = commaJoin ((stripLast entries).map liveText) := by
  fun_induction stripLast entries with
  | case1 => rfl
  | case2 kv => simpa [commaJoin, List.intercalate] using rstrip_liveText
  | case3 kv next rest ih =>
    have hcons : ∃ t ts, (stripLast (next :: rest)).map liveText = t :: ts := by
      cases rest <;> exact ⟨_, _, rfl⟩
    obtain ⟨t, ts, hts⟩ := hcons
    rw [List.map_cons, List.map_cons, commaJoin_cons_cons, rstrip_append_solid (by decide), ← List.map_cons, ih, hts,
      List.map_cons, hts, commaJoin_cons_cons]

theorem strip_join (hkeys : ∀ kv ∈ entries, IsKey kv.1) :
    strip (commaJoin (entries.map liveText)) = commaJoin ((stripLast entries).map liveText) := by
  have hleft : lstrip (commaJoin (entries.map liveText)) = commaJoin (entries.map liveText) := by
    cases entries with
    | nil => rfl
    | cons kv rest =>
      obtain ⟨k, v⟩ := kv
      have hkey := hkeys _ List.mem_cons_self
      obtain ⟨c, k, rfl⟩ := List.exists_cons_of_ne_nil hkey.1
      have hword : isWordChar c = true := List.all_eq_true.mp hkey.2 c List.mem_cons_self
      have hsolid : isSpace c = false := by
        rw [Bool.eq_false_iff]
        intro hspace
        rw [isWordChar_of_isSpace hspace] at hword
        cases hword
      have hhead : ∃ t, commaJoin (((c :: k, v) :: rest).map liveText) = c :: t := by
        cases rest with
        | nil => exact ⟨k ++ '=' :: v.text, by simp [commaJoin, List.intercalate, liveText]⟩
        | cons next rest =>
          exact ⟨_, by rw [List.map_cons, List.map_cons, commaJoin_cons_cons, liveText]; rfl⟩
      obtain ⟨t, ht⟩ := hhead
      rw [ht, lstrip, List.dropWhile_cons_of_neg (by simp [hsolid])]
  rw [strip, hleft, rstrip_join]

/-! ## The stripped entries -/

theorem value_rstrip (v : LiveValue) : v.rstrip.value = v.value := by
  cases v with
  | bare run => simp only [LiveValue.rstrip, LiveValue.value, bareValue, strip_rstrip]
  | quoted inner => rfl
  | list inner => rfl

theorem legal_rstrip {v : LiveValue} (h : v.Legal) : v.rstrip.Legal := by
  cases v with
  | bare run =>
    obtain ⟨hchars, hdecimals⟩ := h
    refine ⟨fun c hc => hchars c (mem_of_mem_rstrip hc), ?_⟩
    unfold LiveValue.SixDecimals
    rwa [strip_rstrip]
  | quoted inner => exact h
  | list inner => exact h

omit [Unicode] in
theorem keys_stripLast (entries : List (Text × LiveValue)) :
    (stripLast entries).map Prod.fst = entries.map Prod.fst := by
  fun_induction stripLast entries with
  | case1 => rfl
  | case2 kv => rfl
  | case3 kv next rest ih => rw [List.map_cons, ih, List.map_cons (a := kv)]

omit [Unicode] in
theorem mem_stripLast {k : Text} {v : LiveValue} (h : (k, v) ∈ stripLast entries) :
    ∃ u, (k, u) ∈ entries ∧ (v = u ∨ v = u.rstrip) := by
  fun_induction stripLast entries with
  | case1 => cases h
  | case2 kv =>
    obtain ⟨rfl, rfl⟩ := Prod.mk.inj (List.mem_singleton.mp h)
    exact ⟨kv.2, List.mem_singleton.mpr rfl, Or.inr rfl⟩
  | case3 kv next rest ih =>
    rcases List.mem_cons.mp h with rfl | h
    · exact ⟨v, List.mem_cons_self, Or.inl rfl⟩
    · obtain ⟨u, hu, hv⟩ := ih h
      exact ⟨u, List.mem_cons_of_mem _ hu, hv⟩

omit [Unicode] in
theorem stripLast_of_mem {k : Text} {u : LiveValue} (h : (k, u) ∈ entries) :
    ∃ v, (k, v) ∈ stripLast entries ∧ (v = u ∨ v = u.rstrip) := by
  fun_induction stripLast entries with
  | case1 => cases h
  | case2 kv =>
    obtain rfl := List.mem_singleton.mp h
    exact ⟨u.rstrip, List.mem_singleton.mpr rfl, Or.inr rfl⟩
  | case3 kv next rest ih =>
    rcases List.mem_cons.mp h with rfl | h
    · exact ⟨u, List.mem_cons_self, Or.inl rfl⟩
    · obtain ⟨v, hv, hu⟩ := ih h
      exact ⟨v, List.mem_cons_of_mem _ hv, hu⟩

theorem legal_stripLast (hlegal : ∀ kv ∈ entries, kv.2.Legal) {k : Text} {v : LiveValue}
    (h : (k, v) ∈ stripLast entries) : v.Legal := by
  obtain ⟨u, hu, rfl | rfl⟩ := mem_stripLast h
  · exact hlegal _ hu
  · exact legal_rstrip (hlegal _ hu)

/-! ## Reading the live file -/

/-- A legal entry is one token, or none when it has no value. -/
theorem tokens_liveText (hkey : IsKey kv.1) (hlegal : kv.2.Legal) :
    Closed Binary64 (liveText kv) ∧ tokens (liveText kv) = readEntry kv := by
  obtain ⟨k, v⟩ := kv
  have hread : ∀ {t : Text} {w : PyValue Binary64}, tokenValue t = some (w, []) → opensValue t = false →
      Closed Binary64 (k ++ '=' :: t) ∧ tokens (k ++ '=' :: t) = [(k, w)] := by
    intro t w htoken hopen
    rw [closed_entry hkey htoken, tokens_entry hkey htoken]
    exact ⟨⟨hopen, closed_nil⟩, rfl⟩
  cases v with
  | bare run =>
    obtain ⟨hchars, -⟩ := hlegal
    by_cases hempty : run = []
    · subst hempty
      exact entry_without_value hkey
    · have hnot : ∀ c ∈ [',', '"', '(', ')'], c ∉ run := fun c hc hmem => hchars c hmem hc
      have hhead : ∀ c ∈ [',', '"', '(', ')'], run.head? ≠ some c :=
        fun c hc hc' => hnot c hc (List.mem_of_mem_head? hc')
      have hquote := hhead '"' (by simp)
      have hparen := hhead '(' (by simp)
      have hone := hread (tokenValue_run hempty (hnot ',' (by simp)) hquote hparen) (opensValue_run hquote hparen)
      have hentry : readEntry (k, .bare run) = [(k, bareValue run)] := by simp [readEntry, hempty, LiveValue.value]
      exact ⟨hone.1, hone.2.trans hentry.symm⟩
  | quoted inner => exact hread (tokenValue_quoted hlegal) opensValue_quoted
  | list inner => exact hread (tokenValue_list hlegal.2) opensValue_list

theorem parse_live (file : LiveFile) : parseIniFile file.text = Dict.ofList (readEntries file.entries) := by
  have hkeys : ∀ kv ∈ stripLast file.entries, IsKey kv.1 := by
    intro kv hkv
    obtain ⟨u, hu, -⟩ := mem_stripLast hkv
    exact file.keys (kv.1, u) hu
  have hread : ∀ kv ∈ stripLast file.entries, Closed Binary64 (liveText kv) ∧ tokens (liveText kv) = readEntry kv :=
    fun kv hkv => tokens_liveText (hkeys kv hkv) (legal_stripLast file.legal hkv)
  rw [parseIniFile, file.payload]
  simp only
  rw [strip_join file.keys, tokens_commaJoin, pieces_of_closed, List.flatMap_map,
    List.flatMap_congr fun kv hkv => (hread kv hkv).2]
  · rfl
  · intro t ht
    obtain ⟨kv, hkv, rfl⟩ := List.mem_map.mp ht
    exact (hread kv hkv).1

/-! ## Values that survive their own text -/

/-- A bare value is a truth value, a number as it reads, or the stripped run itself. -/
theorem bareValue_cases (run : Text) : (∃ b, bareValue run = (.bool b : PyValue Binary64)) ∨
    (∃ x, pyFloat (strip run) = some x ∧ bareValue run = .float x) ∨
    (∃ n, bareValue run = (.int n : PyValue Binary64)) ∨ bareValue run = (.str (strip run) : PyValue Binary64) := by
  generalize hv : (bareValue run : PyValue Binary64) = v
  simp only [bareValue] at hv
  split at hv
  · exact Or.inl ⟨true, hv.symm⟩
  · split at hv
    · exact Or.inl ⟨false, hv.symm⟩
    · split at hv
      · change ((pyFloat (strip run)).map PyValue.float).getD _ = v at hv
        cases hfloat : pyFloat (strip run) with
        | none =>
          rw [hfloat] at hv
          exact Or.inr (Or.inr (Or.inr hv.symm))
        | some x =>
          rw [hfloat] at hv
          exact Or.inr (Or.inl ⟨x, rfl, hv.symm⟩)
      · cases hint : pyInt (strip run) with
        | none =>
          rw [hint] at hv
          exact Or.inr (Or.inr (Or.inr hv.symm))
        | some n =>
          rw [hint] at hv
          exact Or.inr (Or.inr (Or.inl ⟨n, hv.symm⟩))

theorem bareValue_ne_float {run : Text} {x : Binary64} (h : '.' ∉ run) : bareValue run ≠ .float x := by
  have hstrip : '.' ∉ strip run := fun hmem => h (mem_of_mem_strip hmem)
  simp only [bareValue, if_neg hstrip]
  split
  · simp
  · split
    · simp
    · cases pyInt (strip run) <;> simp

/-- A number of at most six decimals is read as itself unless it has overflowed. -/
theorem firstRead_float {run : Text} {x : Binary64} (hdecimals : LiveValue.SixDecimals run)
    (hx : pyFloat (strip run) = some x) : firstRead (.float x) = .float x ↔ ∀ neg, x ≠ .infinite neg := by
  rw [pyFloat_eq] at hx
  obtain ⟨⟨neg, d⟩, hd, hround⟩ := Option.map_eq_some_iff.mp hx
  obtain ⟨n, rfl⟩ := hdecimals neg d hd
  cases x with
  | finite neg' mag =>
    have hneg : neg' = neg := by
      simp only [Binary64.round] at hround
      split at hround
      · cases hround; rfl
      · cases hround
    subst hneg
    have hread := read_format6f (roundSix_of_millionths hround)
    refine iff_of_true ?_ (by simp)
    show bareValue (format6f (.finite neg' mag)) = _
    rw [format6f_finite] at hread ⊢
    rw [bareValue_decimalText]
    show ((pyFloat _).map PyValue.float).getD _ = _
    rw [hread]
    rfl
  | infinite neg' =>
    refine iff_of_false ?_ (by simp)
    apply bareValue_ne_float
    show '.' ∉ format6f (.infinite neg')
    cases neg' <;> decide
  | nan =>
    simp only [Binary64.round] at hround
    split at hround <;> cases hround

/-- **The value of a legal entry survives its own text exactly when it is stable.** -/
theorem firstRead_value {v : LiveValue} (hlegal : v.Legal) (hreturn : '\r' ∉ v.text) :
    firstRead v.value = v.value ↔ v.Stable := by
  cases v with
  | bare run =>
    obtain ⟨hchars, hdecimals⟩ := hlegal
    simp only [LiveValue.value, LiveValue.Stable]
    rcases bareValue_cases run with ⟨b, hb⟩ | ⟨x, hx, hfloat⟩ | ⟨n, hn⟩ | hstr
    · simp [hb, firstRead]
    · simp only [hfloat, firstRead_float hdecimals hx, ne_eq, PyValue.float.injEq]
    · simp [hn, firstRead]
    · have hreturn' : '\r' ∉ strip run := fun hmem => hreturn (mem_of_mem_strip hmem)
      have hno : ¬ ∃ inner, strip run = '(' :: (inner ++ [')']) := by
        rintro ⟨inner, hinner⟩
        exact hchars '(' (mem_of_mem_strip (hinner ▸ List.mem_cons_self)) (by simp)
      have hquote : '"' ∉ strip run := fun hmem => hchars '"' (mem_of_mem_strip hmem) (by simp)
      simp [hstr, (firstRead_of_not_list hreturn' hno).mpr hquote]
  | quoted inner =>
    have hreturn' : '\r' ∉ inner := fun hmem => hreturn (by simp [LiveValue.text, hmem])
    simp only [LiveValue.value, LiveValue.Stable]
    by_cases hlist : ∃ s, inner = '(' :: (s ++ [')'])
    · obtain ⟨s, rfl⟩ := hlist
      rw [firstRead_list (by simpa using hreturn')]
      constructor
      · intro hno s' hs'
        obtain rfl := List.append_cancel_right (List.cons.inj hs').2
        exact hno
      · exact fun h => h s rfl
    · exact iff_of_true ((firstRead_of_not_list hreturn' hlist).mpr hlegal) fun s hs => absurd ⟨s, hs⟩ hlist
  | list inner =>
    have hreturn' : '\r' ∉ inner := fun hmem => hreturn (by simp [LiveValue.text, hmem])
    exact iff_of_true ((firstRead_list hreturn').mpr hlegal.2) trivial

theorem return_notMem_text {k : Text} {v : LiveValue} (h : (k, v) ∈ file.entries) : '\r' ∉ v.text := by
  intro hmem
  have hjoin : '\r' ∈ commaJoin (file.entries.map liveText) :=
    mem_commaJoin (List.mem_map_of_mem h) (by simp [liveText, hmem])
  have hpayload := file.payload
  rw [optionSettings, Option.bind_eq_some_iff] at hpayload
  obtain ⟨rest, hafter, hbefore⟩ := hpayload
  have hcontent := (suffix_of_afterFirst hafter).subset ((prefix_of_beforeLast hbefore).subset hjoin)
  exact return_notMem_universalNewlines _ hcontent

/-! ## The saved dict -/

theorem written_value {v : LiveValue} (h : v.Legal) : QuoteFree v.value ∨ PlainList v.value := by
  cases v with
  | bare run =>
    left
    rcases bareValue_cases run with ⟨b, hb⟩ | ⟨x, -, hfloat⟩ | ⟨n, hn⟩ | hstr
    · rw [LiveValue.value, hb]; trivial
    · rw [LiveValue.value, hfloat]; trivial
    · rw [LiveValue.value, hn]; trivial
    · rw [LiveValue.value, hstr]
      exact fun hmem => h.1 '"' (mem_of_mem_strip hmem) (by simp)
  | quoted inner => exact Or.inl h
  | list inner => exact Or.inr ⟨inner, rfl, h.2⟩

theorem mem_readEntries {k : Text} {w : PyValue Binary64} (h : (k, w) ∈ readEntries entries) :
    ∃ v, (k, v) ∈ stripLast entries ∧ v ≠ .bare [] ∧ w = v.value := by
  obtain ⟨⟨k', v⟩, hv, hkw⟩ := List.mem_flatMap.mp h
  unfold readEntry at hkw
  split at hkw
  · cases hkw
  · rename_i hne
    obtain ⟨rfl, rfl⟩ := Prod.mk.inj (List.mem_singleton.mp hkw)
    exact ⟨v, hv, hne, rfl⟩

theorem saved_written (file : LiveFile) {incoming : Settings Binary64} (hkeys : ∀ kv ∈ incoming.entries, IsKey kv.1)
    (hquotes : ∀ kv ∈ incoming.entries, QuoteFree kv.2) :
    ∀ kv ∈ (file.saved incoming).entries, IsKey kv.1 ∧ (QuoteFree kv.2 ∨ PlainList kv.2) := by
  rintro ⟨k, w⟩ hkw
  rcases Dict.mem_update hkw with hlive | hpublic
  · rcases Dict.mem_update hlive with hnone | hread
    · cases hnone
    · obtain ⟨v, hv, -, rfl⟩ := mem_readEntries hread
      obtain ⟨u, hu, -⟩ := mem_stripLast hv
      exact ⟨file.keys _ hu, written_value (legal_stripLast file.legal hv)⟩
  · have hmem := (List.mem_filter.mp hpublic).1
    exact ⟨hkeys _ hmem, Or.inl (hquotes _ hmem)⟩

theorem get?_saved {incoming : Settings Binary64} {k : Text} {v : LiveValue} (hv : (k, v) ∈ stripLast file.entries)
    (hunnamed : incoming.get? k = none) :
    (file.saved incoming).get? k = if v = .bare [] then none else some v.value := by
  have hnodup : ((stripLast file.entries).map Prod.fst).Nodup := by
    rw [keys_stripLast]
    exact file.nodup
  have hown : ∀ kv ∈ stripLast file.entries, ∀ j ∈ (readEntry kv).map Prod.fst, j = kv.1 := by
    intro kv _ j hj
    unfold readEntry at hj
    split at hj
    · cases hj
    · simpa using hj
  rw [LiveFile.saved, Dict.get?_update, lastOf_publicEntries, hunnamed, ite_self, Option.none_or, Dict.get?_ofList,
    readEntries, lastOf_flatMap hnodup hown, lookup_of_mem hnodup hv, Option.bind_some, readEntry]
  split
  · rfl
  · simp [lastOf]

/-! ## The save -/

/-- **A partial save keeps a setting that it does not name** exactly under the condition: for every live
file, every incoming dict of word keys and values without quotes, and every such setting. -/
theorem partial_save_keeps_iff (file : LiveFile) {incoming : Settings Binary64}
    (hkeys : ∀ kv ∈ incoming.entries, IsKey kv.1) (hquotes : ∀ kv ∈ incoming.entries, QuoteFree kv.2) :
    (∀ k v, (k, v) ∈ file.entries → incoming.get? k = none →
        (parseIniFile (mergeAndSerialize (some file.text) incoming)).get? k = some v.value) ↔
      ∀ k v, (k, v) ∈ file.entries → incoming.get? k = none → file.Keeps incoming k v := by
  have hmerge : merge (some file.text) incoming = file.saved incoming := by
    rw [merge_eq, LiveFile.saved, ← parse_live]
    rfl
  have hsaved := saved_written file hkeys hquotes
  have hone : ∀ k v, (k, v) ∈ file.entries → incoming.get? k = none →
      ((parseIniFile (mergeAndSerialize (some file.text) incoming)).get? k = some v.value ↔
        file.Keeps incoming k v) := by
    intro k u hu hunnamed
    obtain ⟨v, hv, hsame⟩ := stripLast_of_mem hu
    have hvalue : v.value = u.value := by
      rcases hsame with rfl | rfl
      · rfl
      · exact value_rstrip u
    have hdropped : (k, .bare []) ∈ stripLast file.entries ↔ v = .bare [] := by
      have hnodup : ((stripLast file.entries).map Prod.fst).Nodup := by
        rw [keys_stripLast]
        exact file.nodup
      constructor
      · intro hmem
        exact Option.some.inj ((lookup_of_mem hnodup hv).symm.trans (lookup_of_mem hnodup hmem))
      · rintro rfl
        exact hv
    rw [mergeAndSerialize, hmerge, get?_parse_serialize_of_closed (fun kv hkv => (hsaved kv hkv).1)
      (fun kv hkv => closed_behind (hsaved kv hkv).2), get?_saved hv hunnamed, hvalue]
    unfold LiveFile.Keeps
    rw [hdropped, ← firstRead_value (file.legal _ hu) (return_notMem_text hu)]
    cases lastOf k (spilledOnto k (file.saved incoming)) with
    | some w => simp
    | none =>
      by_cases hempty : v = .bare []
      · simp [hempty]
      · simp [hempty]
  constructor
  · intro h k v hv hunnamed
    exact (hone k v hv hunnamed).mp (h k v hv hunnamed)
  · intro h k v hv hunnamed
    exact (hone k v hv hunnamed).mpr (h k v hv hunnamed)

end Save

section Example

attribute [local instance] Unicode.ascii

theorem sixDecimals_decimalText (n : Nat) (h : strip (decimalText false n) = decimalText false n) :
    LiveValue.SixDecimals (decimalText false n) := by
  intro neg d hd
  rw [h, signedDecimal_decimalText] at hd
  cases hd
  exact ⟨n, rfl⟩

def fullFile : LiveFile where
  text := lit "OptionSettings=(ServerName=\"Pal, (EU)\",CrossplayPlatforms=(Steam,Xbox),ExpRate=1.500000)"
  entries := [(lit "ServerName", .quoted (lit "Pal, (EU)")), (lit "CrossplayPlatforms", .list (lit "Steam,Xbox")),
    (lit "ExpRate", .bare (decimalText false 1500000))]
  payload := by decide +kernel
  keys := by decide +kernel
  nodup := by decide +kernel
  legal := by
    simp only [List.forall_mem_cons, List.not_mem_nil, false_imp_iff, implies_true, and_true]
    have hchars : (decimalText false 1500000).all (fun c => decide (c ∉ [',', '"', '(', ')'])) = true := by decide +kernel
    exact ⟨by unfold LiveValue.Legal; decide +kernel, by unfold LiveValue.Legal; decide +kernel,
      fun c hc => of_decide_eq_true (List.all_eq_true.mp hchars c hc), sixDecimals_decimalText _ (by decide +kernel)⟩

def newName : Settings Binary64 where
  entries := [(lit "ServerName", .str (lit "Pal"))]
  nodup := by decide +kernel

theorem partial_save_keeps_fullFile :
    (parseIniFile (mergeAndSerialize (some fullFile.text) newName)).get? (lit "CrossplayPlatforms")
      = some (LiveValue.list (lit "Steam,Xbox")).value := by
  refine (partial_save_keeps_iff fullFile (by decide +kernel) ?_).mpr ?_ (lit "CrossplayPlatforms")
    (.list (lit "Steam,Xbox")) (by simp [fullFile]) (by decide +kernel)
  · intro kv hkv
    obtain rfl := List.mem_singleton.mp hkv
    unfold QuoteFree
    decide +kernel
  · intro k v hkv hunnamed
    simp only [fullFile, List.mem_cons, Prod.mk.injEq, List.not_mem_nil, or_false] at hkv
    unfold LiveFile.Keeps
    rcases hkv with ⟨rfl, rfl⟩ | ⟨rfl, rfl⟩ | ⟨rfl, rfl⟩
    · exact absurd hunnamed (by decide +kernel)
    · have hspilled : lastOf (lit "CrossplayPlatforms") (spilledOnto (lit "CrossplayPlatforms") (fullFile.saved newName))
          = none := by decide +kernel
      rw [hspilled]
      exact ⟨by decide +kernel, trivial⟩
    · have hspilled : lastOf (lit "ExpRate") (spilledOnto (lit "ExpRate") (fullFile.saved newName)) = none := by
        decide +kernel
      rw [hspilled]
      exact ⟨by decide +kernel, fun neg => by cases neg <;> decide +kernel⟩

def emptyListFile : LiveFile where
  text := lit "OptionSettings=(DenyTechnologyList=,ServerName=\"Pal\")"
  entries := [(lit "DenyTechnologyList", .bare []), (lit "ServerName", .quoted (lit "Pal"))]
  payload := by decide +kernel
  keys := by decide +kernel
  nodup := by decide +kernel
  legal := by
    simp only [List.forall_mem_cons, List.not_mem_nil, false_imp_iff, implies_true, and_true]
    refine ⟨⟨by simp, fun neg d hd => ?_⟩, by unfold LiveValue.Legal; decide +kernel⟩
    cases hd

theorem empty_value_is_lost : ¬ ∀ (_ : Unicode) (file : LiveFile) (incoming : Settings Binary64),
    (∀ kv ∈ incoming.entries, IsKey kv.1) → (∀ kv ∈ incoming.entries, QuoteFree kv.2) →
    ∀ k v, (k, v) ∈ file.entries → incoming.get? k = none →
      (parseIniFile (mergeAndSerialize (some file.text) incoming)).get? k = some v.value := by
  intro h
  have hkept := h Unicode.ascii emptyListFile Dict.empty (by simp [Dict.empty]) (by simp [Dict.empty])
    (lit "DenyTechnologyList") (.bare []) List.mem_cons_self rfl
  exact absurd hkept (by decide +kernel)

end Example

end Palworld.Config

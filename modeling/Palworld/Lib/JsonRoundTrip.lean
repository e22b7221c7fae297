import Palworld.Lib.JsonText

/-!
# JSON read back

A value that Python has read is written as a text that is read as the same value. What is read
has its surrogate pairs joined, each key of an object once and no deeper nesting than the
interpreter allows.
-/

namespace Lib

/-! ## What a reader returns -/

mutual

/-- Strings with their pairs joined, and objects with each key once. -/
def JsonValue.Wf : JsonValue → Prop
  | .str s => Joined s
  | .array items => WfItems items
  | .object fields => (fields.map Prod.fst).Nodup ∧ WfFields fields
  | _ => True

def WfItems : List JsonValue → Prop
  | [] => True
  | item :: items => item.Wf ∧ WfItems items

def WfFields : List (PyStr × JsonValue) → Prop
  | [] => True
  | (key, item) :: fields => (Joined key ∧ item.Wf) ∧ WfFields fields

end

theorem wfItems_iff (items : List JsonValue) : WfItems items ↔ ∀ item ∈ items, item.Wf := by
  induction items with
  | nil => simp [WfItems]
  | cons item items ih => simp [WfItems, ih]

theorem wfFields_iff (fields : List (PyStr × JsonValue)) : WfFields fields ↔ ∀ field ∈ fields, Joined field.1 ∧ field.2.Wf := by
  induction fields with
  | nil => simp [WfFields]
  | cons field fields ih => simp [WfFields, ih]

theorem depthItems_le (items : List JsonValue) (d : Nat) : depthItems items ≤ d ↔ ∀ item ∈ items, item.depth ≤ d := by
  induction items with
  | nil => simp [depthItems]
  | cons item items ih => simp [depthItems, ih]

theorem depthFields_le (fields : List (PyStr × JsonValue)) (d : Nat) : depthFields fields ≤ d ↔ ∀ field ∈ fields, field.2.depth ≤ d := by
  induction fields with
  | nil => simp [depthFields]
  | cons field fields ih => simp [depthFields, ih]

/-- The values inside a value are smaller. -/
theorem JsonValue.induction {P : JsonValue → Prop} (scalar : ∀ v, (∀ items, v ≠ .array items) → (∀ fields, v ≠ .object fields) → P v)
    (array : ∀ items, (∀ item ∈ items, P item) → P (.array items))
    (object : ∀ fields, (∀ field ∈ fields, P field.2) → P (.object fields)) (v : JsonValue) : P v := by
  refine @JsonValue.rec P (fun items => ∀ item ∈ items, P item) (fun fields => ∀ field ∈ fields, P field.2) (fun field => P field.2)
    ?_ ?_ ?_ ?_ ?_ array object ?_ ?_ ?_ ?_ ?_ v
  · exact scalar _ (by simp) (by simp)
  · exact fun b => scalar _ (by simp) (by simp)
  · exact fun n => scalar _ (by simp) (by simp)
  · exact fun x => scalar _ (by simp) (by simp)
  · exact fun s => scalar _ (by simp) (by simp)
  · simp
  · intro item items hitem hitems j hj
    rcases List.mem_cons.mp hj with rfl | hj
    · exact hitem
    · exact hitems j hj
  · simp
  · intro field fields hfield hfields g hg
    rcases List.mem_cons.mp hg with rfl | hg
    · exact hfield
    · exact hfields g hg
  · exact fun key item hitem => hitem

/-! ## Scalars -/

section

variable {nested : Option (Text → Scanned JsonValue)} {t rest : Text} {number : NumberText} {result : JsonValue × Text}

theorem scanConstant_of_number (h : scanNumber t = some (number, rest)) : scanConstant t = none := by
  unfold scanConstant
  rw [Option.map_eq_none_iff, List.find?_eq_none]
  intro entry hentry hpre
  obtain ⟨tail, rfl⟩ := List.isPrefixOf_iff_prefix.mp hpre
  simp only [constants, List.mem_cons, List.not_mem_nil, or_false] at hentry
  rcases hentry with rfl | rfl | rfl | rfl | rfl | rfl <;> cases h

/-- A number is neither a string nor a container. -/
theorem scanValue_number (h : scanNumber t = some (number, rest)) : scanValue nested t = number.value.map fun value => (value, rest) := by
  unfold scanValue
  split
  · cases h
  · cases h
  · cases h
  · rw [scanConstant_of_number h]
    simp only [h]

theorem scanValue_constant {t : Text} {value : JsonValue} (h : (t, value) ∈ constants) (rest : Text) :
    scanValue nested (t ++ rest) = .ok (value, rest) := by
  simp only [constants, List.mem_cons, Prod.mk.injEq, List.not_mem_nil, or_false] at h
  rcases h with ⟨rfl, rfl⟩ | ⟨rfl, rfl⟩ | ⟨rfl, rfl⟩ | ⟨rfl, rfl⟩ | ⟨rfl, rfl⟩ | ⟨rfl, rfl⟩ <;> rfl

theorem scanValue_float (x : Binary64) (hfollows : Follows rest) : scanValue nested (floatText x ++ rest) = .ok (.float x, rest) := by
  cases x with
  | finite neg mag =>
    obtain ⟨number, hnumber, hvalue⟩ := scanNumber_float neg mag hfollows
    show scanValue nested (finiteRepr neg mag ++ rest) = _
    rw [scanValue_number hnumber, hvalue]
    rfl
  | infinite neg =>
    cases neg with
    | true =>
      have hmem : (lit "-Infinity", JsonValue.float (.infinite true)) ∈ constants := by simp [constants]
      exact scanValue_constant hmem rest
    | false =>
      have hmem : (lit "Infinity", JsonValue.float (.infinite false)) ∈ constants := by simp [constants]
      exact scanValue_constant hmem rest
  | nan =>
    have hmem : (lit "NaN", JsonValue.float .nan) ∈ constants := by simp [constants]
    exact scanValue_constant hmem rest

theorem scanValue_quoted {s : PyStr} (h : Joined s) (rest : Text) : scanValue nested (quoted s ++ rest) = .ok (.str s, rest) := by
  have hquoted : quoted s ++ rest = '"' :: (s.flatMap escapeChar ++ '"' :: rest) := by
    simp [quoted]
  rw [hquoted, scanValue, scanString_quoted h]
  rfl

/-- A value begins with no blank and with no bracket that closes. -/
theorem scanValue_head (h : scanValue nested t = .ok result) :
    ∃ c tail, t = c :: tail ∧ isJsonBlank c = false ∧ c ≠ ']' ∧ c ≠ '\x7d' := by
  cases t with
  | nil => cases h
  | cons c tail =>
    refine ⟨c, tail, rfl, ?_, ?_, ?_⟩
    · cases hblank : isJsonBlank c with
      | false => rfl
      | true =>
        simp only [isJsonBlank, Bool.or_eq_true, beq_iff_eq] at hblank
        rcases hblank with ((rfl | rfl) | rfl) | rfl <;> cases h
    · rintro rfl
      cases h
    · rintro rfl
      cases h

theorem skipBlanks_of_scanValue (h : scanValue nested t = .ok result) : skipBlanks t = t := by
  obtain ⟨c, tail, rfl, hblank, -⟩ := scanValue_head h
  unfold skipBlanks
  rw [List.dropWhile_cons_of_neg (by simp [hblank])]

end

/-! ## Containers -/

section

variable {value : Text → Scanned JsonValue} {level n : Nat} {t rest : Text}

theorem skipBlanks_newLine (level : Nat) (t : Text) : skipBlanks (newLine level ++ t) = skipBlanks t := by
  have hblanks : ∀ n, (List.replicate n ' ' ++ t).dropWhile isJsonBlank = t.dropWhile isJsonBlank := by
    intro n
    induction n with
    | zero => rfl
    | succ n ih =>
      rw [List.replicate_succ, List.cons_append, List.dropWhile_cons_of_pos rfl]
      exact ih
  unfold skipBlanks newLine
  rw [List.cons_append, List.dropWhile_cons_of_pos rfl]
  exact hblanks _

/-- A scanner reads back what is written at a level. -/
structure ReadsBack (value : Text → Scanned JsonValue) (level : Nat) (item : JsonValue) : Prop where
  reads : ∀ rest, Follows rest → value (item.dump level ++ rest) = .ok (item, rest)
  starts : ∃ c tail, item.dump level = c :: tail ∧ isJsonBlank c = false ∧ c ≠ ']'

theorem ReadsBack.skipBlanks {item : JsonValue} (h : ReadsBack value level item) (rest : Text) :
    skipBlanks (item.dump level ++ rest) = item.dump level ++ rest := by
  obtain ⟨c, tail, hdump, hblank, -⟩ := h.starts
  unfold Lib.skipBlanks
  rw [hdump, List.cons_append, List.dropWhile_cons_of_neg (by simp [hblank])]

theorem follows_dumpItems (level l : Nat) (items : List JsonValue) (t : Text) : Follows (dumpItems level items ++ (newLine l ++ t)) := by
  cases items with
  | nil => exact follows_newLine l t
  | cons item items => exact follows_comma _

theorem follows_dumpFields (level l : Nat) (fields : List (PyStr × JsonValue)) (t : Text) :
    Follows (dumpFields level fields ++ (newLine l ++ t)) := by
  cases fields with
  | nil => exact follows_newLine l t
  | cons field fields => exact follows_comma _

theorem scanItems_last {item : JsonValue} {behind : Text} (h : value t = .ok (item, behind)) (hbehind : skipBlanks behind = ']' :: rest) :
    scanItems value (n + 1) t = .ok ([item], rest) := by
  unfold scanItems
  simp only [h, bind, Except.bind, hbehind]
  rfl

theorem scanItems_more {item : JsonValue} {behind : Text} (h : value t = .ok (item, behind)) (hbehind : skipBlanks behind = ',' :: rest) :
    scanItems value (n + 1) t = (scanItems value n (skipBlanks rest)).map fun (items, rest) => (item :: items, rest) := by
  conv_lhs => unfold scanItems
  simp only [h, bind, Except.bind, hbehind]
  cases scanItems value n (skipBlanks rest) with
  | error e => rfl
  | ok scanned => rfl

theorem scanItems_dump {item : JsonValue} {items : List JsonValue} (l : Nat) (hitem : ReadsBack value level item)
    (hitems : ∀ item ∈ items, ReadsBack value level item) (hn : items.length < n) (rest : Text) :
    scanItems value n (item.dump level ++ (dumpItems level items ++ (newLine l ++ ']' :: rest))) = .ok (item :: items, rest) := by
  induction items generalizing item n with
  | nil =>
    obtain ⟨n, rfl⟩ : ∃ k, n = k + 1 := ⟨n - 1, by simp at hn; omega⟩
    exact scanItems_last (hitem.reads _ (follows_dumpItems level l [] (']' :: rest))) (skipBlanks_newLine l _)
  | cons next items ih =>
    obtain ⟨n, rfl⟩ : ∃ k, n = k + 1 := ⟨n - 1, by simp at hn; omega⟩
    obtain ⟨hnext, hitems⟩ := List.forall_mem_cons.mp hitems
    have hbehind := ih hnext hitems (n := n) (by simpa using hn)
    have hcomma : dumpItems level (next :: items) ++ (newLine l ++ ']' :: rest) =
        ',' :: (newLine level ++ (next.dump level ++ (dumpItems level items ++ (newLine l ++ ']' :: rest)))) := by
      simp [dumpItems]
    rw [scanItems_more (hitem.reads _ (follows_dumpItems level l (next :: items) (']' :: rest))) (by rw [hcomma]; rfl), skipBlanks_newLine,
      hnext.skipBlanks, hbehind]
    rfl

theorem length_dumpItems (level : Nat) (items : List JsonValue) : items.length ≤ (dumpItems level items).length := by
  induction items with
  | nil => exact Nat.le_refl _
  | cons item items ih =>
    simp only [dumpItems, List.length_cons, List.length_append]
    omega

theorem scanArray_dump {item : JsonValue} {items : List JsonValue} (l : Nat) (hitem : ReadsBack value level item)
    (hitems : ∀ item ∈ items, ReadsBack value level item) (rest : Text) :
    scanArray value (newLine level ++ (item.dump level ++ (dumpItems level items ++ (newLine l ++ ']' :: rest)))) =
      .ok (.array (item :: items), rest) := by
  obtain ⟨c, dumped, hdump, -, hopen⟩ := hitem.starts
  have hlength := length_dumpItems level items
  have hfuel : items.length < (item.dump level ++ (dumpItems level items ++ (newLine l ++ ']' :: rest))).length := by
    simp only [hdump, List.length_append, List.length_cons]
    omega
  unfold scanArray
  rw [skipBlanks_newLine, hitem.skipBlanks]
  split
  · rename_i tail heq
    rw [hdump, List.cons_append] at heq
    exact absurd (List.cons.inj heq).1 hopen
  · rw [scanItems_dump l hitem hitems hfuel]
    rfl

theorem scanFields_last {key : PyStr} {item : JsonValue} {named behind after : Text} (hkey : scanString t = .ok (key, named))
    (hcolon : skipBlanks named = ':' :: behind) (h : value (skipBlanks behind) = .ok (item, after))
    (hafter : skipBlanks after = '\x7d' :: rest) : scanFields value (n + 1) ('"' :: t) = .ok ([(key, item)], rest) := by
  unfold scanFields
  simp only [hkey, bind, Except.bind, hcolon, h, hafter]
  rfl

theorem scanFields_more {key : PyStr} {item : JsonValue} {named behind after : Text} (hkey : scanString t = .ok (key, named))
    (hcolon : skipBlanks named = ':' :: behind) (h : value (skipBlanks behind) = .ok (item, after)) (hafter : skipBlanks after = ',' :: rest) :
    scanFields value (n + 1) ('"' :: t) =
      (scanFields value n (skipBlanks rest)).map fun (fields, rest) => ((key, item) :: fields, rest) := by
  conv_lhs => unfold scanFields
  simp only [hkey, bind, Except.bind, hcolon, h, hafter]
  cases scanFields value n (skipBlanks rest) with
  | error e => rfl
  | ok scanned => rfl

/-- How a field is written. -/
theorem quoted_field (key : PyStr) (t : Text) : quoted key ++ (':' :: ' ' :: t) = '"' :: (key.flatMap escapeChar ++ '"' :: ':' :: ' ' :: t) := by
  simp [quoted]

theorem scanFields_dump {key : PyStr} {item : JsonValue} {fields : List (PyStr × JsonValue)} (l : Nat) (hkey : Joined key)
    (hitem : ReadsBack value level item) (hfields : ∀ field ∈ fields, Joined field.1 ∧ ReadsBack value level field.2)
    (hn : fields.length < n) (rest : Text) :
    scanFields value n (quoted key ++ (':' :: ' ' :: (item.dump level ++ (dumpFields level fields ++ (newLine l ++ '\x7d' :: rest))))) =
      .ok ((key, item) :: fields, rest) := by
  induction fields generalizing key item n with
  | nil =>
    obtain ⟨n, rfl⟩ : ∃ k, n = k + 1 := ⟨n - 1, by simp at hn; omega⟩
    have hread : value (skipBlanks (' ' :: (item.dump level ++ (newLine l ++ '\x7d' :: rest)))) = .ok (item, newLine l ++ '\x7d' :: rest) := by
      show value (skipBlanks (item.dump level ++ (newLine l ++ '\x7d' :: rest))) = _
      rw [hitem.skipBlanks, hitem.reads _ (follows_newLine l _)]
    rw [quoted_field]
    exact scanFields_last (scanString_quoted hkey _) rfl hread (skipBlanks_newLine l _)
  | cons next fields ih =>
    obtain ⟨n, rfl⟩ : ∃ k, n = k + 1 := ⟨n - 1, by simp at hn; omega⟩
    obtain ⟨⟨hname, hnext⟩, hfields⟩ := List.forall_mem_cons.mp hfields
    have hbehind := ih hname hnext hfields (n := n) (by simpa using hn)
    have hcomma : dumpFields level (next :: fields) ++ (newLine l ++ '\x7d' :: rest) = ',' :: (newLine level ++ (quoted next.1 ++
        (':' :: ' ' :: (next.2.dump level ++ (dumpFields level fields ++ (newLine l ++ '\x7d' :: rest)))))) := by
      simp [dumpFields]
    have hread : value (skipBlanks (' ' :: (item.dump level ++ (dumpFields level (next :: fields) ++ (newLine l ++ '\x7d' :: rest))))) =
        .ok (item, dumpFields level (next :: fields) ++ (newLine l ++ '\x7d' :: rest)) := by
      show value (skipBlanks (item.dump level ++ _)) = _
      rw [hitem.skipBlanks, hitem.reads _ (follows_dumpFields level l (next :: fields) _)]
    rw [quoted_field, scanFields_more (scanString_quoted hkey _) rfl hread (by rw [hcomma]; rfl), skipBlanks_newLine]
    rw [show skipBlanks (quoted next.1 ++ _) = quoted next.1 ++ _ from rfl, hbehind]
    rfl

theorem length_dumpFields (level : Nat) (fields : List (PyStr × JsonValue)) : fields.length ≤ (dumpFields level fields).length := by
  induction fields with
  | nil => exact Nat.le_refl _
  | cons field fields ih =>
    simp only [dumpFields, List.length_cons, List.length_append]
    omega

theorem scanObject_dump {key : PyStr} {item : JsonValue} {fields : List (PyStr × JsonValue)} (l : Nat) (hkey : Joined key)
    (hitem : ReadsBack value level item) (hfields : ∀ field ∈ fields, Joined field.1 ∧ ReadsBack value level field.2)
    (hnodup : (((key, item) :: fields).map Prod.fst).Nodup) (rest : Text) :
    scanObject value (newLine level ++ (quoted key ++ (':' :: ' ' :: (item.dump level ++
      (dumpFields level fields ++ (newLine l ++ '\x7d' :: rest)))))) = .ok (.object ((key, item) :: fields), rest) := by
  have hlength := length_dumpFields level fields
  have hfuel : fields.length <
      (quoted key ++ (':' :: ' ' :: (item.dump level ++ (dumpFields level fields ++ (newLine l ++ '\x7d' :: rest))))).length := by
    simp only [List.length_append, List.length_cons]
    omega
  have hscan := scanFields_dump l hkey hitem hfields hfuel rest
  unfold scanObject
  rw [skipBlanks_newLine, show skipBlanks (quoted key ++ _) = quoted key ++ _ from rfl]
  split
  · rename_i tail heq
    cases heq
  · rw [hscan]
    have hdict := Dict.ofList_entries (⟨(key, item) :: fields, hnodup⟩ : Dict PyStr JsonValue)
    simp only [Except.map, hdict]

end

/-! ## The round trip -/

section

variable {nested : Option (Text → Scanned JsonValue)} {v : JsonValue} {d level : Nat} {t rest : Text}

theorem readsBack_scanValue (h : ∀ rest, Follows rest → scanValue nested (v.dump level ++ rest) = .ok (v, rest)) :
    ReadsBack (scanValue nested) level v := by
  obtain ⟨c, tail, hdump, hblank, hopen, -⟩ := scanValue_head (h [] follows_nil)
  rw [List.append_nil] at hdump
  exact ⟨h, c, tail, hdump, hblank, hopen⟩

theorem scanOnce_eq (d : Nat) : ∃ nested, scanOnce d = scanValue nested := by
  cases d with
  | zero => exact ⟨none, rfl⟩
  | succ d => exact ⟨some (scanOnce d), rfl⟩

theorem readsBack_scalar (harray : ∀ items, v ≠ .array items) (hobject : ∀ fields, v ≠ .object fields) (hwf : v.Wf) (level : Nat) :
    ReadsBack (scanValue nested) level v := by
  apply readsBack_scanValue
  intro rest hfollows
  cases v with
  | null => exact scanValue_constant (t := lit "null") (by simp [constants]) rest
  | bool b =>
    cases b with
    | true => exact scanValue_constant (t := lit "true") (by simp [constants]) rest
    | false => exact scanValue_constant (t := lit "false") (by simp [constants]) rest
  | int n =>
    obtain ⟨number, hnumber, hvalue⟩ := scanNumber_int n hfollows
    show scanValue nested (n.toText ++ rest) = _
    rw [scanValue_number hnumber, hvalue]
    rfl
  | float x => exact scanValue_float x hfollows
  | str s => exact scanValue_quoted hwf rest
  | array items => exact absurd rfl (harray items)
  | object fields => exact absurd rfl (hobject fields)

theorem readsBack_array {items : List JsonValue} (hitems : ∀ item ∈ items, ReadsBack (scanOnce d) (level + 1) item) :
    ReadsBack (scanOnce (d + 1)) level (.array items) := by
  apply readsBack_scanValue
  intro rest hfollows
  cases items with
  | nil => rfl
  | cons item items =>
    obtain ⟨hitem, hitems⟩ := List.forall_mem_cons.mp hitems
    have hscan := scanArray_dump level hitem hitems rest
    simpa [JsonValue.dump, scanValue] using hscan

theorem readsBack_object {fields : List (PyStr × JsonValue)} (hnodup : (fields.map Prod.fst).Nodup)
    (hfields : ∀ field ∈ fields, Joined field.1 ∧ ReadsBack (scanOnce d) (level + 1) field.2) :
    ReadsBack (scanOnce (d + 1)) level (.object fields) := by
  apply readsBack_scanValue
  intro rest hfollows
  cases fields with
  | nil => rfl
  | cons field fields =>
    obtain ⟨⟨hkey, hitem⟩, hfields⟩ := List.forall_mem_cons.mp hfields
    have hscan := scanObject_dump level hkey hitem hfields hnodup rest
    simpa [JsonValue.dump, scanValue] using hscan

/-- **Round trip.** A value that is not nested too deep is read back at every level, with any text behind it. -/
theorem readsBack_scanOnce (v : JsonValue) (hwf : v.Wf) (hdepth : v.depth ≤ d) (level : Nat) : ReadsBack (scanOnce d) level v := by
  induction v using JsonValue.induction generalizing d level with
  | scalar v harray hobject =>
    obtain ⟨nested, hnested⟩ := scanOnce_eq d
    rw [hnested]
    exact readsBack_scalar harray hobject hwf level
  | array items ih =>
    obtain ⟨d, rfl⟩ : ∃ k, d = k + 1 := ⟨d - 1, by simp [JsonValue.depth] at hdepth; omega⟩
    have hwfs := (wfItems_iff items).mp hwf
    have hdepths := (depthItems_le items d).mp (Nat.le_of_succ_le_succ hdepth)
    exact readsBack_array fun item hitem => ih item hitem (hwfs item hitem) (hdepths item hitem) (level + 1)
  | object fields ih =>
    obtain ⟨d, rfl⟩ : ∃ k, d = k + 1 := ⟨d - 1, by simp [JsonValue.depth] at hdepth; omega⟩
    obtain ⟨hnodup, hwf⟩ := hwf
    have hwfs := (wfFields_iff fields).mp hwf
    have hdepths := (depthFields_le fields d).mp (Nat.le_of_succ_le_succ hdepth)
    exact readsBack_object hnodup fun field hfield =>
      ⟨(hwfs field hfield).1, ih field hfield (hwfs field hfield).2 (hdepths field hfield) (level + 1)⟩

theorem loads_nil (d : Nat) : loads d [] = .error .malformed := by
  obtain ⟨nested, hnested⟩ := scanOnce_eq d
  unfold loads
  rw [hnested]
  rfl

theorem loads_dump (hwf : v.Wf) (hdepth : v.depth ≤ d) : loads d (v.dump 0) = .ok v := by
  have hback := readsBack_scanOnce v hwf hdepth 0
  have hstart := hback.skipBlanks []
  have hread := hback.reads [] follows_nil
  rw [List.append_nil] at hstart hread
  unfold loads
  rw [hstart, hread]
  rfl

theorem dumps_eq_some {limit : Nat} : dumps limit v = some t ↔ v.depth ≤ limit ∧ t = v.dump 0 := by
  unfold dumps
  by_cases hdepth : v.depth ≤ limit
  · simp [hdepth, eq_comm]
  · simp [hdepth]

end

/-! ## What is written -/

/-- A printable character of ASCII, or the end of a line. -/
def isDumped (c : Char) : Bool := c = '\n' || 32 ≤ c.toNat && c.toNat < 127

section

variable {t rest : Text}

theorem isDumped_of_isDigit {c : Char} (h : c.isDigit = true) : isDumped c = true := by
  have hrange := isDigit_toNat h
  simp only [isDumped, Bool.or_eq_true, Bool.and_eq_true, decide_eq_true_eq]
  omega

/-- The rest is behind characters that may be written. -/
def Past (t rest : Text) : Prop := ∃ front, t = front ++ rest ∧ front.all isDumped = true

theorem Past.refl (t : Text) : Past t t := ⟨[], rfl, rfl⟩

theorem Past.trans {a b c : Text} (hab : Past a b) (hbc : Past b c) : Past a c := by
  obtain ⟨front, rfl, hfront⟩ := hab
  obtain ⟨next, rfl, hnext⟩ := hbc
  exact ⟨front ++ next, (List.append_assoc _ _ _).symm, by rw [List.all_append, hfront, hnext]; rfl⟩

theorem Past.cons {c : Char} (h : isDumped c = true) (t : Text) : Past (c :: t) t := ⟨[c], rfl, by simp [h]⟩

theorem past_digits (t : Text) : Past t (t.dropWhile Char.isDigit) := by
  refine ⟨t.takeWhile Char.isDigit, (List.takeWhile_append_dropWhile).symm, ?_⟩
  rw [List.all_eq_true]
  intro c hc
  exact isDumped_of_isDigit (List.mem_takeWhile_imp hc)

theorem past_minus (t : Text) : Past t (scanMinus t).2 := by
  unfold scanMinus
  split
  · exact Past.cons rfl _
  · exact Past.refl _

theorem past_sign (t : Text) : Past t (readSign t).2 := by
  unfold readSign
  split
  · exact Past.cons rfl _
  · exact Past.cons rfl _
  · exact Past.refl _

theorem past_whole {whole : Text} (h : scanWhole t = some (whole, rest)) : Past t rest := by
  unfold scanWhole at h
  split at h
  · cases h
    exact Past.cons rfl _
  · split at h
    · cases h
    · cases h
      exact past_digits t

theorem past_fraction (t : Text) : Past t (scanFraction t).2 := by
  unfold scanFraction
  split
  · split
    · exact Past.refl _
    · exact (Past.cons rfl _).trans (past_digits _)
  · exact Past.refl _

theorem past_exponent (t : Text) : Past t (scanExponent t).2 := by
  cases t with
  | nil => exact Past.refl _
  | cons c t =>
    unfold scanExponent
    dsimp only
    split
    · rename_i hexponent
      have hc : isDumped c = true := by
        rcases hexponent.1 with rfl | rfl
        · rfl
        · rfl
      exact (Past.cons hc _).trans ((past_sign t).trans (past_digits _))
    · exact Past.refl _

theorem past_number {number : NumberText} (h : scanNumber t = some (number, rest)) : Past t rest := by
  unfold scanNumber at h
  obtain ⟨⟨whole, behind⟩, hwhole, h⟩ := Option.bind_eq_some_iff.mp h
  simp only [Option.pure_def, Option.some.injEq, Prod.mk.injEq] at h
  rw [← h.2]
  exact (past_minus t).trans ((past_whole hwhole).trans ((past_fraction behind).trans (past_exponent _)))

theorem isDumped_number {number : NumberText} (h : scanNumber t = some (number, [])) : t.all isDumped = true := by
  obtain ⟨front, rfl, hfront⟩ := past_number h
  rwa [List.append_nil]

theorem isDumped_floatText (x : Binary64) : (floatText x).all isDumped = true := by
  cases x with
  | finite neg mag =>
    obtain ⟨number, hnumber, -⟩ := readsAs_spec (readsAs_finiteRepr neg mag)
    exact isDumped_number hnumber
  | infinite neg => cases neg <;> decide
  | nan => decide

theorem isDumped_hexDigit : ∀ n < 16, isDumped (hexDigit n) = true := by decide

theorem isDumped_escapeUnit (n : Nat) : (escapeUnit n).all isDumped = true := by
  have hback : isDumped '\\' = true := rfl
  have hu : isDumped 'u' = true := rfl
  simp only [escapeUnit, List.all_cons, List.all_nil, hback, hu, isDumped_hexDigit _ (Nat.mod_lt _ (by decide : 0 < 16)), Bool.and_true]

theorem isDumped_escapeLetter {c letter : Char} (h : escapeLetter c = some letter) : isDumped letter = true := by
  have hback := (escapeLetter_spec h).1
  unfold unescape at hback
  split at hback <;> first | rfl | cases hback

theorem isDumped_escapeChar (c : PyChar) : (escapeChar c).all isDumped = true := by
  unfold escapeChar
  split
  · exact isDumped_escapeUnit _
  · rename_i d
    split
    · rename_i letter hletter
      have hback : isDumped '\\' = true := rfl
      simp only [List.all_cons, List.all_nil, hback, isDumped_escapeLetter hletter, Bool.and_true]
    · split
      · rename_i hplain
        have hd : isDumped d = true := by
          simp only [isDumped, Bool.or_eq_true, Bool.and_eq_true, decide_eq_true_eq]
          omega
        simp [hd]
      · split
        · exact isDumped_escapeUnit _
        · rw [List.all_append, isDumped_escapeUnit, isDumped_escapeUnit]
          rfl

theorem isDumped_quoted (s : PyStr) : (quoted s).all isDumped = true := by
  have hquote : isDumped '"' = true := rfl
  have hescaped : (s.flatMap escapeChar).all isDumped = true := by
    rw [List.all_flatMap, List.all_eq_true]
    exact fun c _ => isDumped_escapeChar c
  simp only [quoted, List.all_cons, List.all_append, List.all_nil, hquote, hescaped, Bool.and_true]

theorem isDumped_newLine (level : Nat) : (newLine level).all isDumped = true := by
  simp only [newLine, List.all_cons, List.all_replicate]
  split <;> rfl

theorem isDumped_dumpItems {level : Nat} {items : List JsonValue} (h : ∀ item ∈ items, (item.dump level).all isDumped = true) :
    (dumpItems level items).all isDumped = true := by
  have hcomma : isDumped ',' = true := rfl
  induction items with
  | nil => rfl
  | cons item items ih =>
    obtain ⟨hitem, hitems⟩ := List.forall_mem_cons.mp h
    simp only [dumpItems, List.all_cons, List.all_append, hcomma, isDumped_newLine, hitem, ih hitems, Bool.and_true]

theorem isDumped_dumpFields {level : Nat} {fields : List (PyStr × JsonValue)}
    (h : ∀ field ∈ fields, (field.2.dump level).all isDumped = true) : (dumpFields level fields).all isDumped = true := by
  have hcomma : isDumped ',' = true := rfl
  have hcolon : isDumped ':' = true := rfl
  have hblank : isDumped ' ' = true := rfl
  induction fields with
  | nil => rfl
  | cons field fields ih =>
    obtain ⟨hfield, hfields⟩ := List.forall_mem_cons.mp h
    simp only [dumpFields, List.all_cons, List.all_append, hcomma, hcolon, hblank, isDumped_newLine, isDumped_quoted, hfield, ih hfields,
      Bool.and_true]

/-- A document is made of printable ASCII and line ends. -/
theorem isDumped_dump (v : JsonValue) (level : Nat) : (v.dump level).all isDumped = true := by
  induction v using JsonValue.induction generalizing level with
  | scalar v harray hobject =>
    cases v with
    | null => rfl
    | bool b => cases b <;> rfl
    | int n =>
      obtain ⟨number, hnumber, -⟩ := scanNumber_int n follows_nil
      rw [List.append_nil] at hnumber
      exact isDumped_number hnumber
    | float x => exact isDumped_floatText x
    | str s => exact isDumped_quoted s
    | array items => exact absurd rfl (harray items)
    | object fields => exact absurd rfl (hobject fields)
  | array items ih =>
    have hopen : isDumped '[' = true := rfl
    have hclose : isDumped ']' = true := rfl
    cases items with
    | nil => rfl
    | cons item items =>
      obtain ⟨hitem, hitems⟩ := List.forall_mem_cons.mp ih
      simp only [JsonValue.dump, List.all_cons, List.all_append, List.all_nil, hopen, hclose, isDumped_newLine, hitem,
        isDumped_dumpItems fun j hj => hitems j hj (level + 1), Bool.and_true]
  | object fields ih =>
    have hopen : isDumped '\x7b' = true := rfl
    have hclose : isDumped '\x7d' = true := rfl
    have hcolon : isDumped ':' = true := rfl
    have hblank : isDumped ' ' = true := rfl
    cases fields with
    | nil => rfl
    | cons field fields =>
      obtain ⟨hfield, hfields⟩ := List.forall_mem_cons.mp ih
      simp only [JsonValue.dump, List.all_cons, List.all_append, List.all_nil, hopen, hclose, hcolon, hblank, isDumped_newLine, isDumped_quoted,
        hfield, isDumped_dumpFields fun f hf => hfields f hf (level + 1), Bool.and_true]

/-- An object begins and ends with its braces. -/
theorem dump_object (level : Nat) (fields : List (PyStr × JsonValue)) :
    ∃ inner, (JsonValue.object fields).dump level = '\x7b' :: (inner ++ ['\x7d']) := by
  cases fields with
  | nil => exact ⟨[], rfl⟩
  | cons field fields =>
    refine ⟨newLine (level + 1) ++ (quoted field.1 ++ (':' :: ' ' :: (field.2.dump (level + 1) ++
      (dumpFields (level + 1) fields ++ newLine level)))), ?_⟩
    simp [JsonValue.dump]

end

/-! ## What is read -/

section

variable {value : Text → Scanned JsonValue} {P : JsonValue → Prop} {d n : Nat} {t rest : Text}

/-- What a computation that goes through has computed on the way. -/
theorem ok_of_bind {ε α β : Type} {x : Except ε α} {f : α → Except ε β} {b : β} (h : (x >>= f) = .ok b) :
    ∃ a, x = .ok a ∧ f a = .ok b := by
  cases x with
  | error e => cases h
  | ok a => exact ⟨a, rfl, h⟩

theorem ok_of_map {ε α β : Type} {x : Except ε α} {f : α → β} {b : β} (h : x.map f = .ok b) : ∃ a, x = .ok a ∧ f a = b := by
  cases x with
  | error e => cases h
  | ok a => exact ⟨a, rfl, Except.ok.inj h⟩

theorem scanItems_spec (hvalue : ∀ t item rest, value t = .ok (item, rest) → P item) {items : List JsonValue}
    (h : scanItems value n t = .ok (items, rest)) : ∀ item ∈ items, P item := by
  induction n generalizing t items rest with
  | zero => cases h
  | succ n ih =>
    unfold scanItems at h
    obtain ⟨⟨item, behind⟩, hitem, h⟩ := ok_of_bind h
    dsimp only at h
    split at h
    · cases h
      simpa using hvalue _ _ _ hitem
    · obtain ⟨⟨others, after⟩, hothers, h⟩ := ok_of_bind h
      cases h
      exact List.forall_mem_cons.mpr ⟨hvalue _ _ _ hitem, ih hothers⟩
    · cases h

theorem scanFields_spec (hvalue : ∀ t item rest, value t = .ok (item, rest) → P item) {fields : List (PyStr × JsonValue)}
    (h : scanFields value n t = .ok (fields, rest)) : ∀ field ∈ fields, Joined field.1 ∧ P field.2 := by
  induction n generalizing t fields rest with
  | zero => cases t <;> cases h
  | succ n ih =>
    unfold scanFields at h
    split at h
    · rename_i n' t' heq
      cases heq
      obtain ⟨⟨key, named⟩, hkey, h⟩ := ok_of_bind h
      dsimp only at h
      split at h
      · obtain ⟨⟨item, behind⟩, hitem, h⟩ := ok_of_bind h
        have hfield : Joined key ∧ P item := ⟨joined_of_scanString hkey, hvalue _ _ _ hitem⟩
        dsimp only at h
        split at h
        · cases h
          simpa using hfield
        · obtain ⟨⟨others, after⟩, hothers, h⟩ := ok_of_bind h
          cases h
          exact List.forall_mem_cons.mpr ⟨hfield, ih hothers⟩
        · cases h
      · cases h
    · cases h

theorem mem_ofList {fields : List (PyStr × JsonValue)} {field : PyStr × JsonValue} (h : field ∈ (Dict.ofList fields).entries) :
    field ∈ fields := by
  rcases Dict.mem_update h with h | h
  · cases h
  · exact h

/-- What a scanner may return at the depth it reads. -/
def ReadAt (d : Nat) (v : JsonValue) : Prop := v.Wf ∧ v.depth ≤ d

theorem readAt_array {items : List JsonValue} (h : ∀ item ∈ items, ReadAt d item) : ReadAt (d + 1) (.array items) := by
  refine ⟨(wfItems_iff items).mpr fun item hitem => (h item hitem).1, ?_⟩
  exact Nat.succ_le_succ ((depthItems_le items d).mpr fun item hitem => (h item hitem).2)

theorem readAt_object {fields : List (PyStr × JsonValue)} (hnodup : (fields.map Prod.fst).Nodup)
    (h : ∀ field ∈ fields, Joined field.1 ∧ ReadAt d field.2) : ReadAt (d + 1) (.object fields) := by
  refine ⟨⟨hnodup, (wfFields_iff fields).mpr fun field hfield => ⟨(h field hfield).1, (h field hfield).2.1⟩⟩, ?_⟩
  exact Nat.succ_le_succ ((depthFields_le fields d).mpr fun field hfield => (h field hfield).2.2)

theorem scanArray_spec (hvalue : ∀ t item rest, value t = .ok (item, rest) → ReadAt d item) {v : JsonValue}
    (h : scanArray value t = .ok (v, rest)) : ReadAt (d + 1) v := by
  unfold scanArray at h
  split at h
  · cases h
    exact readAt_array (by simp)
  · obtain ⟨⟨items, behind⟩, hitems, h⟩ := ok_of_map h
    cases h
    exact readAt_array (scanItems_spec hvalue hitems)

theorem scanObject_spec (hvalue : ∀ t item rest, value t = .ok (item, rest) → ReadAt d item) {v : JsonValue}
    (h : scanObject value t = .ok (v, rest)) : ReadAt (d + 1) v := by
  unfold scanObject at h
  split at h
  · cases h
    exact readAt_object (by simp) (by simp)
  · obtain ⟨⟨fields, behind⟩, hfields, h⟩ := ok_of_map h
    cases h
    exact readAt_object (Dict.ofList fields).nodup fun field hfield => scanFields_spec hvalue hfields field (mem_ofList hfield)

theorem readAt_constant {v : JsonValue} (h : scanConstant t = some (v, rest)) : ReadAt d v := by
  unfold scanConstant at h
  obtain ⟨entry, hfind, h⟩ := Option.map_eq_some_iff.mp h
  cases h
  have hmem := List.mem_of_find?_eq_some hfind
  simp only [constants, List.mem_cons, List.not_mem_nil, or_false] at hmem
  rcases hmem with rfl | rfl | rfl | rfl | rfl | rfl <;> exact ⟨trivial, Nat.zero_le _⟩

theorem readAt_number {number : NumberText} {v : JsonValue} (h : number.value = .ok v) : ReadAt d v := by
  unfold NumberText.value at h
  split at h
  · split at h
    · cases h
      exact ⟨trivial, Nat.zero_le _⟩
    · cases h
  · cases h
    exact ⟨trivial, Nat.zero_le _⟩

theorem scanValue_spec {nested : Option (Text → Scanned JsonValue)} {v : JsonValue} (h : scanValue nested t = .ok (v, rest))
    (hnested : ∀ value, nested = some value → ∃ k, d = k + 1 ∧ ∀ t item rest, value t = .ok (item, rest) → ReadAt k item) : ReadAt d v := by
  unfold scanValue at h
  split at h
  · obtain ⟨⟨s, behind⟩, hs, h⟩ := ok_of_map h
    cases h
    exact ⟨joined_of_scanString hs, Nat.zero_le _⟩
  · cases nested with
    | none => cases h
    | some value =>
      obtain ⟨k, rfl, hvalue⟩ := hnested value rfl
      exact scanObject_spec hvalue h
  · cases nested with
    | none => cases h
    | some value =>
      obtain ⟨k, rfl, hvalue⟩ := hnested value rfl
      exact scanArray_spec hvalue h
  · split at h
    · rename_i scanned hconstant
      cases h
      exact readAt_constant hconstant
    · split at h
      · obtain ⟨value, hvalue, h⟩ := ok_of_map h
        cases h
        exact readAt_number hvalue
      · cases h

theorem scanOnce_spec (d : Nat) (t : Text) (v : JsonValue) (rest : Text) (h : scanOnce d t = .ok (v, rest)) : ReadAt d v := by
  induction d generalizing t v rest with
  | zero => exact scanValue_spec h fun value hvalue => by cases hvalue
  | succ d ih =>
    refine scanValue_spec h fun value hvalue => ⟨d, rfl, ?_⟩
    cases hvalue
    exact ih

theorem loads_spec {v : JsonValue} (h : loads d t = .ok v) : ReadAt d v := by
  unfold loads at h
  obtain ⟨⟨value, behind⟩, hvalue, h⟩ := ok_of_bind h
  dsimp only at h
  split at h
  · cases h
    exact scanOnce_spec d _ _ _ hvalue
  · cases h

end

end Lib

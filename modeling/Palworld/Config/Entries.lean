import Palworld.Config.Written
import Palworld.Lib.Decimal

/-!
# One entry and what it is read as

A key of word characters, an equals sign and the text of a value. The scan takes the entry
as one token and goes on behind the value.
-/

open Lib

namespace Palworld.Config

variable {F : Type} [Unicode] [PyFloat F] {k t rest : Text} {v : PyValue F}

/-- What `\w+` matches as a whole. -/
def IsKey (k : Text) : Prop := k ≠ [] ∧ k.all isWordChar = true

instance (k : Text) : Decidable (IsKey k) := inferInstanceAs (Decidable (_ ∧ _))

theorem isKey_of_ascii (hne : k ≠ []) (h : k.all (fun c => c.toNat < 128 && (c.isAlphanum || c == '_')) = true) :
    IsKey k := by
  refine ⟨hne, List.all_eq_true.mpr fun c hc => ?_⟩
  have hword := List.all_eq_true.mp h c hc
  simp only [Bool.and_eq_true, decide_eq_true_eq] at hword
  rw [isWordChar, Unicode.isAlnum_ascii c hword.1]
  exact hword.2

/-! ## The scan -/

theorem isWordChar_equals : isWordChar '=' = false := by
  simp only [isWordChar, Unicode.isAlnum_ascii '=' (by decide)]
  decide

theorem takeWhile_key (h : IsKey k) : (k ++ '=' :: t).takeWhile isWordChar = k := by
  rw [takeWhile_append_stop isWordChar_equals]
  exact List.takeWhile_eq_self_iff.mpr (List.all_eq_true.mp h.2)

theorem dropWhile_key (h : IsKey k) : (k ++ '=' :: t).dropWhile isWordChar = '=' :: t := by
  rw [dropWhile_append_stop isWordChar_equals, List.dropWhile_eq_nil_iff.mpr (List.all_eq_true.mp h.2)]
  rfl

theorem tokenAt_entry (h : IsKey k) :
    (tokenAt (k ++ '=' :: t) : Option (Token F × Text)) = (tokenValue t).map fun v => ((k, v.1), v.2) := by
  unfold tokenAt
  rw [dropWhile_key h, takeWhile_key h]
  simp only [if_neg h.1]

theorem leavesOpen_entry (h : IsKey k) : leavesOpen (k ++ '=' :: t) = opensValue t := by
  unfold leavesOpen
  rw [dropWhile_key h, takeWhile_key h]
  simp [h.1]

theorem tries_entry (h : IsKey k) (hvalue : tokenValue t = some (v, rest)) :
    tries F (k ++ '=' :: t) = (k ++ '=' :: t) :: tries F rest := by
  have hnext : nextTry F (k ++ '=' :: t) = rest := by
    unfold nextTry
    rw [tokenAt_entry h, hvalue]
    rfl
  obtain ⟨c, k, rfl⟩ := List.exists_cons_of_ne_nil h.1
  rw [List.cons_append] at hnext ⊢
  rw [tries_cons, hnext]

/-- An entry is read as its key with the value, and then what stands behind the value. -/
theorem tokens_entry (h : IsKey k) (hvalue : tokenValue t = some (v, rest)) :
    tokens (k ++ '=' :: t) = (k, v) :: tokens rest := by
  unfold tokens
  rw [tries_entry h hvalue, List.filterMap_cons, tokenAt_entry h, hvalue]
  rfl

theorem closed_entry (h : IsKey k) (hvalue : tokenValue t = some (v, rest)) :
    Closed F (k ++ '=' :: t) ↔ opensValue t = false ∧ Closed F rest := by
  unfold Closed
  rw [tries_entry h hvalue, List.forall_mem_cons, leavesOpen_entry h]

theorem closed_nil : Closed F [] := by
  intro p hp
  cases hp

/-- A text without a quote that ends with a closing parenthesis leaves no value open. -/
theorem closed_of_quoteless (hquote : '"' ∉ t) (hlast : t.getLast? = some ')') : Closed F t := by
  intro p hp
  obtain ⟨hsuffix, hne⟩ := suffix_of_mem_tries hp
  unfold leavesOpen
  split
  · rename_i r hr
    have hr' : r <:+ t := ((List.suffix_cons '=' r).trans (hr ▸ List.dropWhile_suffix _)).trans hsuffix
    rw [Bool.and_eq_false_iff]
    right
    cases r with
    | nil => rfl
    | cons c r =>
      have hc : c ≠ '"' := by
        rintro rfl
        exact hquote (hr'.subset List.mem_cons_self)
      have hend : (c :: r).getLast? = some ')' := by
        obtain ⟨front, rfl⟩ := hr'
        rwa [List.getLast?_append_of_ne_nil _ (List.cons_ne_nil c r)] at hlast
      have hparen : c = '(' → ')' ∈ r := by
        rintro rfl
        have hmem := List.mem_of_getLast? hend
        simpa using hmem
      simpa [opensValue, hc] using hparen
  · rfl

/-- An entry with an empty value is no token. -/
theorem entry_without_value (h : IsKey k) :
    Closed F (k ++ ['=']) ∧ (tokens (k ++ ['=']) : List (Token F)) = [] := by
  have htry : ∀ p ∈ tries F (k ++ ['=']), leavesOpen p = false ∧ (tokenAt p : Option (Token F × Text)) = none := by
    intro p hp
    obtain ⟨hsuffix, hne⟩ := suffix_of_mem_tries hp
    rcases List.suffix_concat_iff.mp hsuffix with rfl | ⟨k', rfl, hk'⟩
    · exact absurd rfl hne
    · by_cases hempty : k' = []
      · subst hempty
        have hnone : (tokenAt ['='] : Option (Token F × Text)) = none := tokenAt_of_not_word isWordChar_equals
        refine ⟨?_, hnone⟩
        simp [leavesOpen, isWordChar_equals]
      · have hkey : IsKey k' := ⟨hempty, by
          rw [List.all_eq_true]
          exact fun c hc => List.all_eq_true.mp h.2 c (hk'.subset hc)⟩
        rw [leavesOpen_entry hkey, tokenAt_entry hkey]
        exact ⟨rfl, rfl⟩
  refine ⟨fun p hp => (htry p hp).1, ?_⟩
  rw [tokens, List.filterMap_eq_nil_iff]
  intro p hp
  rw [(htry p hp).2]
  rfl

/-! ## The value -/

/-- A quoted text without a quote in it. -/
theorem tokenValue_quoted {s : Text} (h : '"' ∉ s) :
    (tokenValue ('"' :: (s ++ '"' :: rest)) : Option (PyValue F × Text)) = some (.str s, rest) := by
  rw [tokenValue_quote (by simp), takeWhile_ne_stop h, dropWhile_ne_stop h]
  rfl

/-- A list ends with its first closing parenthesis. -/
theorem tokenValue_list {s : Text} (h : ')' ∉ s) :
    (tokenValue ('(' :: (s ++ ')' :: rest)) : Option (PyValue F × Text)) = some (.str ('(' :: s ++ [')']), rest) := by
  rw [tokenValue_paren (by simp), takeWhile_ne_stop h, dropWhile_ne_stop h]
  rfl

/-- A run of characters other than commas, quotes in front and opening parentheses in front. -/
theorem tokenValue_run (hne : t ≠ []) (hcomma : ',' ∉ t) (hquote : t.head? ≠ some '"') (hparen : t.head? ≠ some '(') :
    (tokenValue t : Option (PyValue F × Text)) = some (bareValue t, []) := by
  have hsame : ∀ c ∈ t, decide (c ≠ ',') = true := by
    intro c hc
    rw [decide_eq_true_eq]
    rintro rfl
    exact hcomma hc
  obtain ⟨c, s, rfl⟩ := List.exists_cons_of_ne_nil hne
  rw [tokenValue_bare (by simpa using hquote) (by simpa using hparen), bareRun,
    List.takeWhile_eq_self_iff.mpr hsame, List.dropWhile_eq_nil_iff.mpr hsame, if_neg hne]

omit [Unicode] in
theorem opensValue_quoted {s : Text} : opensValue ('"' :: (s ++ '"' :: rest)) = false := by
  simp [opensValue]

omit [Unicode] in
theorem opensValue_list {s : Text} : opensValue ('(' :: (s ++ ')' :: rest)) = false := by
  simp [opensValue]

omit [Unicode] in
theorem opensValue_run (hquote : t.head? ≠ some '"') (hparen : t.head? ≠ some '(') : opensValue t = false := by
  cases t with
  | nil => rfl
  | cons c t => simp_all [opensValue]

/-! ## Strings -/

omit [Unicode] in
theorem listLike_iff (s : Text) :
    ['('].isPrefixOf s = true ∧ [')'].isSuffixOf s = true ↔ ∃ inner, s = '(' :: (inner ++ [')']) := by
  rw [List.isPrefixOf_iff_prefix, List.isSuffixOf_iff_suffix]
  constructor
  · rintro ⟨⟨rest, rfl⟩, ⟨front, hfront⟩⟩
    cases front with
    | nil => cases hfront
    | cons c front =>
      obtain ⟨rfl, hrest⟩ := List.cons.inj hfront
      exact ⟨front, hfront.symm⟩
  · rintro ⟨inner, rfl⟩
    exact ⟨⟨inner ++ [')'], rfl⟩, '(' :: inner, rfl⟩

omit [Unicode] in
/-- A string in parentheses is written as it is, any other one in quotes. -/
theorem valueText_str_cases (s : Text) :
    (∃ inner, s = '(' :: (inner ++ [')']) ∧ valueText (.str s : PyValue F) = '(' :: (inner ++ [')'])) ∨
      (¬ ∃ inner, s = '(' :: (inner ++ [')'])) ∧ valueText (.str s : PyValue F) = '"' :: (s ++ ['"']) := by
  rw [valueText_str]
  split
  · rename_i hparens
    obtain ⟨inner, hinner⟩ := (listLike_iff s).mp hparens
    exact Or.inl ⟨inner, hinner, hinner⟩
  · rename_i hparens
    exact Or.inr ⟨fun h => hparens ((listLike_iff s).mpr h), rfl⟩

/-! ## Numbers and truth values -/

theorem bareValue_true : (bareValue (lit "True") : PyValue F) = .bool true := by
  unfold bareValue
  rw [if_pos (by decide +kernel)]

theorem bareValue_false : (bareValue (lit "False") : PyValue F) = .bool false := by
  unfold bareValue
  rw [if_neg (by decide +kernel), if_pos (by decide +kernel)]

theorem tokenValue_numeral (hne : t ≠ []) (hchars : ∀ c ∈ t, isNumeralChar c = true) :
    (tokenValue t : Option (PyValue F × Text)) = some (bareValue t, []) ∧ opensValue t = false := by
  have hnot : ∀ c, isNumeralChar c = false → t.head? ≠ some c := by
    rintro c hc hhead
    have := hchars c (List.mem_of_mem_head? hhead)
    rw [hc] at this
    cases this
  have hcomma : ',' ∉ t := fun hmem => absurd (hchars _ hmem) (by decide)
  have hquote := hnot '"' (by decide)
  have hparen := hnot '(' (by decide)
  exact ⟨tokenValue_run hne hcomma hquote hparen, opensValue_run hquote hparen⟩

/-- A text without letters and without spaces is an integer, a decimal or nothing of the kind. -/
theorem bareValue_plain (h : t.all isPlainChar = true) : (bareValue t : PyValue F) =
    if '.' ∈ t then ((PyFloat.read t).map .float).getD (.str t) else ((pyInt t).map .int).getD (.str t) := by
  rw [List.all_eq_true] at h
  have hstrip : strip t = t := by
    apply strip_of_solid
    intro c hc
    have hplain := h c hc
    simp only [isPlainChar, Bool.or_eq_true, beq_iff_eq] at hplain
    rcases hplain with (hdigit | rfl) | rfl
    · exact isSpace_of_isNumeralChar (isNumeralChar_of_isDigit hdigit)
    · decide
    · decide
  have hnot : ∀ s : Text, ∀ c ∈ s, isPlainChar c = false → t ≠ s := by
    rintro s c hc hplain rfl
    rw [h c hc] at hplain
    cases hplain
  unfold bareValue
  rw [hstrip]
  simp only
  rw [if_neg (hnot _ 'T' (by decide +kernel) (by decide)), if_neg (hnot _ 'F' (by decide +kernel) (by decide))]

theorem bareValue_toText (n : PyInt) : (bareValue n.toText : PyValue F) = .int n := by
  obtain ⟨hplain, hpoint⟩ := isPlainChar_toText n
  rw [bareValue_plain hplain, if_neg hpoint, pyInt_toText]
  rfl

theorem bareValue_decimalText (neg : Bool) (n : Nat) : (bareValue (decimalText neg n) : PyValue F)
    = ((PyFloat.read (decimalText neg n)).map .float).getD (.str (decimalText neg n)) := by
  rw [bareValue_plain (isPlainChar_decimalText neg n), if_pos]
  simp [decimalText, signed]

end Palworld.Config

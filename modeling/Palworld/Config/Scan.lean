import Palworld.Config.Ini

/-!
# Scanning what the serializer writes

A text is closed when the scan meets no quote and no parenthesis in it that the text
leaves open. What follows the next comma does not change the tokens of a closed text.
-/

open Lib

namespace Palworld.Config

variable {F : Type} [Unicode] [PyFloat F]

/-- The value opens a quote or a parenthesis that is not closed. -/
def opensValue : Text → Bool
  | [] => false
  | c :: rest => (c == '"' && !rest.contains '"') || (c == '(' && !rest.contains ')')

def leavesOpen (t : Text) : Bool :=
  match t.dropWhile isWordChar with
  | '=' :: rest => t.takeWhile isWordChar ≠ [] && opensValue rest
  | _ => false

/-- No try of the scan leaves a value open. -/
def Closed (F : Type) [PyFloat F] (t : Text) : Prop := ∀ p ∈ tries F t, leavesOpen p = false

instance (t : Text) : Decidable (Closed F t) := inferInstanceAs (Decidable (∀ p ∈ tries F t, leavesOpen p = false))

/-! ## One try -/

theorem bareRun_suffix {t rest : Text} {v : PyValue F} (h : bareRun t = some (v, rest)) : rest <:+ t := by
  unfold bareRun at h
  split at h
  · cases h
  · cases h
    exact List.dropWhile_suffix _

theorem tokenValue_suffix {t rest : Text} {v : PyValue F} (h : tokenValue t = some (v, rest)) : rest <:+ t := by
  cases t with
  | nil => cases h
  | cons c t =>
    have hbehind : ∀ p : Char → Bool, (t.dropWhile p).tail <:+ c :: t := fun p =>
      (List.tail_suffix _).trans ((List.dropWhile_suffix p).trans (List.suffix_cons c t))
    simp only [tokenValue] at h
    split at h
    · cases h
      exact hbehind _
    · split at h
      · cases h
        exact hbehind _
      · exact bareRun_suffix h

/-- Behind the word of a token are an equals sign and the value. -/
theorem tokenAt_value {t rest : Text} {kv : Token F} (h : tokenAt t = some (kv, rest)) :
    ∃ (r : Text) (v : PyValue F), t.dropWhile isWordChar = '=' :: r ∧ tokenValue r = some (v, rest) := by
  unfold tokenAt at h
  split at h
  · rename_i r hr
    split at h
    · cases h
    · simp only [Option.map_eq_some_iff, Prod.mk.injEq] at h
      obtain ⟨⟨v, rest'⟩, hv, -, rfl⟩ := h
      exact ⟨r, v, hr, hv⟩
  · cases h

theorem tokenAt_suffix {t rest : Text} {kv : Token F} (h : tokenAt t = some (kv, rest)) : rest <:+ t := by
  obtain ⟨r, v, hr, hv⟩ := tokenAt_value h
  have hr' : r <:+ t := (List.suffix_cons '=' r).trans (hr ▸ List.dropWhile_suffix _)
  exact (tokenValue_suffix hv).trans hr'

theorem tokenAt_length {t rest : Text} {kv : Token F} (h : tokenAt t = some (kv, rest)) :
    rest.length < t.length := by
  obtain ⟨r, v, hr, hv⟩ := tokenAt_value h
  have hle := (tokenValue_suffix hv).length_le
  have hlt := (List.dropWhile_sublist (l := t) isWordChar).length_le
  rw [hr, List.length_cons] at hlt
  omega

theorem nextTry_length {t : Text} (h : t ≠ []) : (nextTry F t).length < t.length := by
  unfold nextTry
  split
  · rename_i hat
    exact tokenAt_length hat
  · have hpos := List.length_pos_iff.mpr h
    simp only [List.length_tail]
    omega

theorem nextTry_suffix (t : Text) : nextTry F t <:+ t := by
  unfold nextTry
  split
  · rename_i hat
    exact tokenAt_suffix hat
  · exact List.tail_suffix t

theorem tokenValue_quote {t : Text} (h : '"' ∈ t) :
    (tokenValue ('"' :: t) : Option (PyValue F × Text))
      = some (.str (t.takeWhile (· ≠ '"')), (t.dropWhile (· ≠ '"')).tail) := by
  simp [tokenValue, h]

theorem tokenValue_paren {t : Text} (h : ')' ∈ t) :
    (tokenValue ('(' :: t) : Option (PyValue F × Text))
      = some (.str ('(' :: t.takeWhile (· ≠ ')') ++ [')']), (t.dropWhile (· ≠ ')')).tail) := by
  simp [tokenValue, h]

theorem tokenValue_bare {c : Char} {t : Text} (hquote : c ≠ '"') (hparen : c ≠ '(') :
    (tokenValue (c :: t) : Option (PyValue F × Text)) = bareRun (c :: t) := by
  simp [tokenValue, hquote, hparen]

theorem bareRun_append {t rest : Text} :
    (bareRun (t ++ ',' :: rest) : Option (PyValue F × Text))
      = (bareRun t).map fun x => (x.1, x.2 ++ ',' :: rest) := by
  unfold bareRun
  rw [takeWhile_append_stop (by simp), dropWhile_append_stop (by simp)]
  split <;> rfl

theorem tokenValue_append {t rest : Text} (h : opensValue t = false) :
    (tokenValue (t ++ ',' :: rest) : Option (PyValue F × Text))
      = (tokenValue t).map fun x => (x.1, x.2 ++ ',' :: rest) := by
  cases t with
  | nil => exact tokenValue_bare (by decide) (by decide)
  | cons c t =>
    simp only [opensValue, Bool.or_eq_false_iff, Bool.and_eq_false_imp, beq_iff_eq, Bool.not_eq_false',
      List.contains_iff_mem] at h
    by_cases hquote : c = '"'
    · have hmem := h.1 hquote
      obtain ⟨hdrop, hne⟩ := dropWhile_ne_append (b := ',' :: rest) hmem
      rw [hquote, List.cons_append, tokenValue_quote (List.mem_append_left _ hmem), tokenValue_quote hmem,
        takeWhile_ne_append hmem, hdrop, List.tail_append_of_ne_nil hne]
      rfl
    · by_cases hparen : c = '('
      · have hmem := h.2 hparen
        obtain ⟨hdrop, hne⟩ := dropWhile_ne_append (b := ',' :: rest) hmem
        rw [hparen, List.cons_append, tokenValue_paren (List.mem_append_left _ hmem), tokenValue_paren hmem,
          takeWhile_ne_append hmem, hdrop, List.tail_append_of_ne_nil hne]
        rfl
      · rw [List.cons_append, tokenValue_bare hquote hparen, tokenValue_bare hquote hparen, ← List.cons_append,
          bareRun_append]

theorem tokenAt_append {t rest : Text} (h : leavesOpen t = false) :
    (tokenAt (t ++ ',' :: rest) : Option (Token F × Text))
      = (tokenAt t).map fun x => (x.1, x.2 ++ ',' :: rest) := by
  unfold tokenAt leavesOpen at *
  rw [takeWhile_append_stop isWordChar_comma, dropWhile_append_stop isWordChar_comma]
  rcases hd : t.dropWhile isWordChar with _ | ⟨c, r⟩
  · rfl
  · rw [hd] at h
    by_cases hc : c = '='
    · subst hc
      simp only [List.cons_append]
      by_cases hkey : t.takeWhile isWordChar = []
      · rw [if_pos hkey, if_pos hkey]
        rfl
      · simp only [hkey, ne_eq, not_false_eq_true, decide_true, Bool.true_and] at h
        rw [if_neg hkey, if_neg hkey, tokenValue_append h, Option.map_map, Option.map_map]
        rfl
    · simp [hc]

theorem nextTry_append {t rest : Text} (hne : t ≠ []) (h : leavesOpen t = false) :
    nextTry F (t ++ ',' :: rest) = nextTry F t ++ ',' :: rest := by
  unfold nextTry
  rw [tokenAt_append h]
  cases (tokenAt t : Option (Token F × Text)) with
  | none => exact List.tail_append_of_ne_nil hne
  | some x => rfl

theorem tokenAt_of_not_word {c : Char} {rest : Text} (h : isWordChar c = false) :
    (tokenAt (c :: rest) : Option (Token F × Text)) = none := by
  unfold tokenAt
  rw [List.takeWhile_cons_of_neg (by simp [h]), List.dropWhile_cons_of_neg (by simp [h])]
  split <;> simp

/-! ## The whole scan -/

theorem triesFrom_eq {n m : Nat} {t : Text} (hn : t.length ≤ n) (hm : t.length ≤ m) :
    triesFrom F n t = triesFrom F m t := by
  induction n generalizing m t with
  | zero =>
    rw [List.length_eq_zero_iff.mp (Nat.le_zero.mp hn)]
    cases m <;> rfl
  | succ n ih =>
    cases t with
    | nil => cases m <;> rfl
    | cons c t =>
      cases m with
      | zero => cases hm
      | succ m =>
        have hlt : (nextTry F (c :: t)).length < (c :: t).length := nextTry_length (List.cons_ne_nil c t)
        rw [triesFrom, triesFrom, ih (m := m) (by omega) (by omega)]

theorem tries_cons (c : Char) (t : Text) : tries F (c :: t) = (c :: t) :: tries F (nextTry F (c :: t)) := by
  have hlt : (nextTry F (c :: t)).length < (c :: t).length := nextTry_length (List.cons_ne_nil c t)
  rw [List.length_cons] at hlt
  rw [tries, tries, List.length_cons, triesFrom, triesFrom_eq (m := (nextTry F (c :: t)).length) (by omega) (by omega)]

/-- The scan tries only what is left of the text. -/
theorem suffix_of_mem_tries {t p : Text} (h : p ∈ tries F t) : p <:+ t ∧ p ≠ [] := by
  generalize hn : t.length = n
  induction n using Nat.strong_induction_on generalizing t with
  | _ n ih =>
    cases t with
    | nil => cases h
    | cons c t =>
      rw [tries_cons, List.mem_cons] at h
      rcases h with rfl | hrest
      · exact ⟨List.suffix_refl _, List.cons_ne_nil c t⟩
      · have hlt : (nextTry F (c :: t)).length < n := hn ▸ nextTry_length (List.cons_ne_nil c t)
        obtain ⟨hsuffix, hne⟩ := ih _ hlt hrest rfl
        exact ⟨hsuffix.trans (nextTry_suffix _), hne⟩

theorem tokens_cons_of_not_word {c : Char} {rest : Text} (h : isWordChar c = false) :
    (tokens (c :: rest) : List (Token F)) = tokens rest := by
  have hat : (tokenAt (c :: rest) : Option (Token F × Text)) = none := tokenAt_of_not_word h
  have hnext : nextTry F (c :: rest) = rest := by
    unfold nextTry
    rw [hat]
    rfl
  rw [tokens, tries_cons, List.filterMap_cons, hat, hnext]
  rfl

theorem tokens_lstrip (t : Text) : (tokens (lstrip t) : List (Token F)) = tokens t := by
  unfold lstrip
  induction t with
  | nil => rfl
  | cons c t ih =>
    by_cases hc : isSpace c = true
    · rw [List.dropWhile_cons_of_pos hc, ih, tokens_cons_of_not_word (isWordChar_of_isSpace hc)]
    · rw [List.dropWhile_cons_of_neg hc]

theorem tries_append {t rest : Text} (h : Closed F t) :
    tries F (t ++ ',' :: rest) = (tries F t).map (· ++ ',' :: rest) ++ tries F (',' :: rest) := by
  generalize hn : t.length = n
  induction n using Nat.strong_induction_on generalizing t with
  | _ n ih =>
    cases t with
    | nil => rfl
    | cons c t =>
      unfold Closed at h
      rw [tries_cons] at h
      have hopen := h _ List.mem_cons_self
      have hlt : (nextTry F (c :: t)).length < n := hn ▸ nextTry_length (List.cons_ne_nil c t)
      have hrest := ih _ hlt (fun p hp => h p (List.mem_cons_of_mem _ hp)) rfl
      rw [List.cons_append, tries_cons, ← List.cons_append, nextTry_append (List.cons_ne_nil c t) hopen, hrest,
        tries_cons (F := F) c t]
      rfl

/-- **A closed text keeps its tokens.** The text behind the comma adds its own. -/
theorem tokens_append {t rest : Text} (h : Closed F t) :
    (tokens (t ++ ',' :: rest) : List (Token F)) = tokens t ++ tokens rest := by
  have hcomma : (tokens (',' :: rest) : List (Token F)) = tokens rest := tokens_cons_of_not_word isWordChar_comma
  rw [← hcomma]
  unfold tokens
  rw [tries_append h, List.filterMap_append, List.filterMap_map]
  congr 1
  apply List.filterMap_congr
  intro p hp
  simp only [Function.comp_apply]
  rw [tokenAt_append (h p hp), Option.map_map]
  rfl

end Palworld.Config

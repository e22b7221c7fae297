import Palworld.Lib.Text
import Mathlib.Tactic.Common
import Mathlib.Data.List.TakeWhile
import Mathlib.Data.List.Induction
import Mathlib.Data.List.Infix

/-!
# Strings as Python has them

Only the tables of Unicode are left open. `Unicode` says what they hold for ASCII.
-/

namespace Lib

/-- `str.isspace` of one character. -/
def isSpace (c : Char) : Bool :=
  let n := c.toNat
  (9 ≤ n && n ≤ 13) || (28 ≤ n && n ≤ 32) || n == 0x85 || n == 0xA0 || n == 0x1680 ||
    (0x2000 ≤ n && n ≤ 0x200A) || n == 0x2028 || n == 0x2029 || n == 0x202F || n == 0x205F || n == 0x3000

theorem charLe_iff_toNat {a b : Char} : a ≤ b ↔ a.toNat ≤ b.toNat := Iff.rfl

theorem isAlphanum_iff_toNat {c : Char} : c.isAlphanum = true ↔
    (65 ≤ c.toNat ∧ c.toNat ≤ 90) ∨ (97 ≤ c.toNat ∧ c.toNat ≤ 122) ∨ (48 ≤ c.toNat ∧ c.toNat ≤ 57) := by
  have hclasses : c.isAlphanum =
      ((decide ('A' ≤ c ∧ c ≤ 'Z') || (decide ('a' ≤ c) && decide (c ≤ 'z'))) || c.isDigit) := rfl
  rw [hclasses]
  simp only [Bool.or_eq_true, Bool.and_eq_true, decide_eq_true_eq, charLe_iff_toNat, Char.isDigit_iff_toNat, or_assoc]
  exact Iff.rfl

theorem isAlphanum_of_isSpace {c : Char} (h : isSpace c = true) : c.isAlphanum = false := by
  simp only [isSpace, Bool.or_eq_true, Bool.and_eq_true, decide_eq_true_eq, beq_iff_eq] at h
  rw [Bool.eq_false_iff, ne_eq, isAlphanum_iff_toNat]
  omega

/-- The Unicode tables behind `str.isalnum`, `int` and `str.upper`. -/
class Unicode where
  isAlnum : Char → Bool
  /-- The value of a decimal digit of any script. -/
  digit : Char → Option Nat
  upper : Char → Text
  isAlnum_ascii (c : Char) : c.toNat < 128 → isAlnum c = c.isAlphanum
  isAlnum_space (c : Char) : isSpace c = true → isAlnum c = false
  digit_ascii (c : Char) : c.toNat < 128 → digit c = if c.isDigit then some (c.toNat - 48) else none
  digit_lt (c : Char) (d : Nat) : digit c = some d → d < 10
  upper_ascii (c : Char) : c.toNat < 128 → upper c = [c.toUpper]

/-- The tables cut down to ASCII. They agree with Unicode on every ASCII text. -/
@[reducible]
def Unicode.ascii : Unicode where
  isAlnum c := c.isAlphanum
  digit c := if c.isDigit then some (c.toNat - 48) else none
  upper c := [c.toUpper]
  isAlnum_ascii _ _ := rfl
  isAlnum_space _ h := isAlphanum_of_isSpace h
  digit_ascii _ _ := rfl
  digit_lt c d h := by
    split at h
    · rename_i hd
      have hle : c.toNat ≤ 57 := by
        simp only [Char.isDigit, Bool.and_eq_true, decide_eq_true_eq, UInt32.le_iff_toNat_le] at hd
        exact hd.2
      cases h
      omega
    · cases h
  upper_ascii _ _ := rfl

def lstrip (t : Text) : Text := t.dropWhile isSpace

def rstrip (t : Text) : Text := (t.reverse.dropWhile isSpace).reverse

def strip (t : Text) : Text := rstrip (lstrip t)

/-- What reading a file in text mode makes of the ends of its lines. -/
def universalNewlines : Text → Text
  | '\r' :: '\n' :: rest => '\n' :: universalNewlines rest
  | '\r' :: rest => '\n' :: universalNewlines rest
  | c :: rest => c :: universalNewlines rest
  | [] => []

def commaJoin (texts : List Text) : Text := [','].intercalate texts

/-- What follows the first occurrence of `pat`. -/
def afterFirst (pat : Text) : Text → Option Text
  | [] => if pat = [] then some [] else none
  | c :: rest => if pat.isPrefixOf (c :: rest) then some ((c :: rest).drop pat.length) else afterFirst pat rest

/-- What stands before the last occurrence of `stop`. -/
def beforeLast (stop : Char) : Text → Option Text
  | [] => none
  | c :: rest =>
    match beforeLast stop rest with
    | some t => some (c :: t)
    | none => if c = stop then some [] else none

section Word

variable [Unicode]

def isWordChar (c : Char) : Bool := Unicode.isAlnum c || c == '_'

def upper (t : Text) : Text := t.flatMap Unicode.upper

theorem isWordChar_of_isSpace {c : Char} (h : isSpace c = true) : isWordChar c = false := by
  have hne : c ≠ '_' := by
    rintro rfl
    exact absurd h (by decide)
  simp [isWordChar, Unicode.isAlnum_space c h, hne]

theorem isWordChar_comma : isWordChar ',' = false := by
  simp only [isWordChar, Unicode.isAlnum_ascii ',' (by decide)]
  decide

end Word

/-! ## Runs

A run of characters ends at the first one that does not belong to it.
-/

section Runs

variable {p : Char → Bool} {c : Char} {a b : Text}

theorem takeWhile_append_stop (hc : p c = false) : (a ++ c :: b).takeWhile p = a.takeWhile p := by
  induction a with
  | nil => simp [hc]
  | cons d a ih => simp only [List.cons_append, List.takeWhile_cons, ih]

theorem dropWhile_append_stop (hc : p c = false) : (a ++ c :: b).dropWhile p = a.dropWhile p ++ c :: b := by
  induction a with
  | nil => simp [hc]
  | cons d a ih =>
    simp only [List.cons_append, List.dropWhile_cons, ih]
    split <;> rfl

theorem takeWhile_ne_append (h : c ∈ a) : (a ++ b).takeWhile (· ≠ c) = a.takeWhile (· ≠ c) := by
  obtain ⟨x, y, rfl⟩ := List.append_of_mem h
  rw [List.append_assoc, List.cons_append, takeWhile_append_stop (by simp), takeWhile_append_stop (by simp)]

theorem dropWhile_ne_append (h : c ∈ a) :
    (a ++ b).dropWhile (· ≠ c) = a.dropWhile (· ≠ c) ++ b ∧ a.dropWhile (· ≠ c) ≠ [] := by
  obtain ⟨x, y, rfl⟩ := List.append_of_mem h
  rw [List.append_assoc, List.cons_append, dropWhile_append_stop (by simp), dropWhile_append_stop (by simp)]
  simp

theorem takeWhile_ne_stop (h : c ∉ a) : (a ++ c :: b).takeWhile (· ≠ c) = a := by
  rw [takeWhile_append_stop (by simp), List.takeWhile_eq_self_iff]
  intro d hd
  simp only [ne_eq, decide_eq_true_eq]
  rintro rfl
  exact h hd

theorem dropWhile_ne_stop (h : c ∉ a) : (a ++ c :: b).dropWhile (· ≠ c) = c :: b := by
  rw [dropWhile_append_stop (by simp), List.dropWhile_eq_nil_iff.mpr]
  · rfl
  · intro d hd
    simp only [ne_eq, decide_eq_true_eq]
    rintro rfl
    exact h hd

end Runs

theorem strip_append_solid {t : Text} {c : Char} (h : isSpace c = false) :
    strip (t ++ [c]) = lstrip (t ++ [c]) := by
  unfold strip lstrip rstrip
  rw [dropWhile_append_stop h, List.reverse_append, List.reverse_singleton, List.singleton_append,
    List.dropWhile_cons_of_neg (by simp [h]), List.reverse_cons, List.reverse_reverse]

theorem rstrip_append_solid {a b : Text} {c : Char} (h : isSpace c = false) : rstrip (a ++ c :: b) = a ++ c :: rstrip b := by
  unfold rstrip
  rw [List.reverse_append, List.reverse_cons, List.append_assoc, List.singleton_append, dropWhile_append_stop h,
    List.reverse_append, List.reverse_cons, List.reverse_reverse, List.append_assoc, List.singleton_append]

/-- What `rstrip` drops is all space, and before it the text ends with no space. -/
theorem rstrip_cases (t : Text) : (∀ c ∈ t, isSpace c = true) ∨
    ∃ a c b, t = a ++ c :: b ∧ isSpace c = false ∧ ∀ d ∈ b, isSpace d = true := by
  induction t using List.reverseRecOn with
  | nil => exact Or.inl (by simp)
  | append_singleton t c ih =>
    cases hc : isSpace c with
    | false => exact Or.inr ⟨t, c, [], rfl, hc, by simp⟩
    | true =>
      rcases ih with hall | ⟨a, d, b, rfl, hd, hb⟩
      · left
        intro e he
        rcases List.mem_append.mp he with he | he
        · exact hall e he
        · rwa [List.mem_singleton.mp he]
      · right
        refine ⟨a, d, b ++ [c], by simp, hd, ?_⟩
        intro e he
        rcases List.mem_append.mp he with he | he
        · exact hb e he
        · rwa [List.mem_singleton.mp he]

theorem rstrip_of_space {t : Text} (h : ∀ c ∈ t, isSpace c = true) : rstrip t = [] := by
  have hdrop : t.reverse.dropWhile isSpace = [] :=
    List.dropWhile_eq_nil_iff.mpr fun c hc => h c (List.mem_reverse.mp hc)
  rw [rstrip, hdrop, List.reverse_nil]

theorem rstrip_begins (t : Text) : rstrip t <+: t := by
  rcases rstrip_cases t with hall | ⟨a, c, b, rfl, hc, hb⟩
  · rw [rstrip_of_space hall]
    exact List.nil_prefix
  · rw [rstrip_append_solid hc, rstrip_of_space hb]
    exact ⟨b, by simp⟩

/-- What ends with no blank is found in a line after `rstrip` if it is found before. -/
theorem infix_rstrip {t : Text} {c : Char} (pat : Text) (hc : isSpace c = false) : pat ++ [c] <:+: rstrip t ↔ pat ++ [c] <:+: t := by
  constructor
  · intro h
    exact h.trans (rstrip_begins t).isInfix
  · rintro ⟨before, after, rfl⟩
    have hsplit : before ++ (pat ++ [c]) ++ after = (before ++ pat) ++ c :: after := by simp
    rw [hsplit, rstrip_append_solid hc]
    exact ⟨before, rstrip after, by simp⟩

theorem mem_of_mem_rstrip {t : Text} {c : Char} (h : c ∈ rstrip t) : c ∈ t := by
  rw [rstrip, List.mem_reverse] at h
  exact List.mem_reverse.mp ((List.dropWhile_suffix _).subset h)

theorem mem_of_mem_strip {t : Text} {c : Char} (h : c ∈ strip t) : c ∈ t :=
  (List.dropWhile_suffix _).subset (mem_of_mem_rstrip h)

theorem strip_rstrip (t : Text) : strip (rstrip t) = strip t := by
  rcases rstrip_cases t with hall | ⟨a, c, b, rfl, hc, hb⟩
  · have hdrop : lstrip t = [] := List.dropWhile_eq_nil_iff.mpr hall
    rw [rstrip_of_space hall, strip, strip, hdrop]
    rfl
  · have hlstrip : lstrip (a ++ c :: b) = lstrip a ++ c :: b := dropWhile_append_stop hc
    have hlstrip' : lstrip (a ++ [c]) = lstrip a ++ [c] := dropWhile_append_stop hc
    rw [rstrip_append_solid hc, rstrip_of_space hb, strip_append_solid hc, strip, hlstrip, hlstrip',
      rstrip_append_solid hc, rstrip_of_space hb]

theorem strip_of_solid {t : Text} (h : ∀ c ∈ t, isSpace c = false) : strip t = t := by
  have hdrop : ∀ {s : Text}, (∀ c ∈ s, isSpace c = false) → s.dropWhile isSpace = s := by
    intro s hs
    cases s with
    | nil => rfl
    | cons c s => rw [List.dropWhile_cons_of_neg (by simp [hs c List.mem_cons_self])]
  unfold strip lstrip rstrip
  rw [hdrop h, hdrop (fun c hc => h c (List.mem_reverse.mp hc)), List.reverse_reverse]

/-! ## Line ends -/

theorem universalNewlines_nil : universalNewlines [] = [] := rfl

theorem universalNewlines_crlf (t : Text) : universalNewlines ('\r' :: '\n' :: t) = '\n' :: universalNewlines t := by
  rw [universalNewlines]

theorem universalNewlines_return {t : Text} (h : ∀ rest, t ≠ '\n' :: rest) : universalNewlines ('\r' :: t) = '\n' :: universalNewlines t := by
  rw [universalNewlines]
  exact h

theorem universalNewlines_cons {c : Char} {rest : Text} (h : c ≠ '\r') :
    universalNewlines (c :: rest) = c :: universalNewlines rest := by
  rw [universalNewlines]
  · rintro r rfl
    exact absurd rfl h
  · rintro rfl
    exact absurd rfl h

/-- A text is read by its line ends and its other characters. -/
theorem newlines_induction {motive : Text → Prop} (nil : motive []) (crlf : ∀ t, motive t → motive ('\r' :: '\n' :: t))
    (lone : ∀ t, (∀ rest, t ≠ '\n' :: rest) → motive t → motive ('\r' :: t))
    (char : ∀ c t, c ≠ '\r' → motive t → motive (c :: t)) (t : Text) : motive t := by
  induction hn : t.length using Nat.strong_induction_on generalizing t with
  | _ n ih =>
    subst hn
    cases t with
    | nil => exact nil
    | cons c t =>
      by_cases hc : c = '\r'
      · subst hc
        by_cases hcrlf : ∃ rest, t = '\n' :: rest
        · obtain ⟨rest, rfl⟩ := hcrlf
          exact crlf rest (ih rest.length (by simp only [List.length_cons]; omega) rest rfl)
        · exact lone t (fun rest h => hcrlf ⟨rest, h⟩) (ih t.length (by simp) t rfl)
      · exact char c t hc (ih t.length (by simp) t rfl)

/-- What ends in no `\r` is read apart from what is behind it. -/
theorem universalNewlines_append_of_end {a : Text} {c : Char} (hc : c ≠ '\r') (b : Text) :
    universalNewlines (a ++ c :: b) = universalNewlines (a ++ [c]) ++ universalNewlines b := by
  induction a using newlines_induction with
  | nil =>
    rw [List.nil_append, List.nil_append, universalNewlines_cons hc, universalNewlines_cons hc]
    rfl
  | crlf t ih => simp only [List.cons_append, universalNewlines_crlf, ih]
  | lone t hcrlf ih =>
    cases t with
    | nil =>
      by_cases hn : c = '\n'
      · subst hn
        simp only [List.cons_append, List.nil_append, universalNewlines_crlf, universalNewlines_nil]
      · have hfirst : ∀ s : Text, universalNewlines ('\r' :: c :: s) = '\n' :: c :: universalNewlines s := fun s => by
          rw [universalNewlines_return (fun rest h => hn (List.cons.inj h).1), universalNewlines_cons hc]
        simp only [List.cons_append, List.nil_append, hfirst]
        rfl
    | cons d t =>
      have hfirst : ∀ s : Text, universalNewlines ('\r' :: d :: s) = '\n' :: universalNewlines (d :: s) := fun s => by
        refine universalNewlines_return fun rest h => hcrlf t ?_
        rw [(List.cons.inj h).1]
      simp only [List.cons_append] at ih ⊢
      rw [hfirst, hfirst, ih, List.cons_append]
  | char d t hd ih => rw [List.cons_append, List.cons_append, universalNewlines_cons hd, universalNewlines_cons hd, ih, List.cons_append]

theorem universalNewlines_solid {c : Char} (hr : c ≠ '\r') (hn : c ≠ '\n') (a : Text) :
    universalNewlines (a ++ [c]) = universalNewlines a ++ [c] := by
  induction a using newlines_induction with
  | nil => rw [List.nil_append, universalNewlines_cons hr, universalNewlines_nil, List.nil_append]
  | crlf t ih => simp only [List.cons_append, universalNewlines_crlf, ih]
  | lone t hcrlf ih =>
    rw [List.cons_append, universalNewlines_return, ih, universalNewlines_return hcrlf, List.cons_append]
    intro rest h
    cases t with
    | nil => exact hn (List.cons.inj h).1
    | cons d t => exact hcrlf t (by rw [(List.cons.inj h).1])
  | char d t hd ih => rw [List.cons_append, universalNewlines_cons hd, universalNewlines_cons hd, ih, List.cons_append]

/-- A character that is no line end separates what is before it from what is after it. -/
theorem universalNewlines_append {a b : Text} {c : Char} (hr : c ≠ '\r') (hn : c ≠ '\n') :
    universalNewlines (a ++ c :: b) = universalNewlines a ++ c :: universalNewlines b := by
  rw [universalNewlines_append_of_end hr, universalNewlines_solid hr hn, List.append_assoc, List.singleton_append]

theorem universalNewlines_append_left {a b : Text} (h : '\r' ∉ a) :
    universalNewlines (a ++ b) = a ++ universalNewlines b := by
  induction a with
  | nil => rfl
  | cons c a ih =>
    rw [List.mem_cons, not_or] at h
    rw [List.cons_append, universalNewlines_cons (Ne.symm h.1), ih h.2, List.cons_append]

theorem universalNewlines_eq {t : Text} (h : '\r' ∉ t) : universalNewlines t = t := by
  have hread := universalNewlines_append_left (b := []) h
  rwa [List.append_nil, universalNewlines_nil, List.append_nil] at hread

theorem return_notMem_universalNewlines (t : Text) : '\r' ∉ universalNewlines t := by
  induction t using newlines_induction with
  | nil => exact List.not_mem_nil
  | crlf t ih =>
    rw [universalNewlines_crlf]
    simpa using ih
  | lone t hcrlf ih =>
    rw [universalNewlines_return hcrlf]
    simpa using ih
  | char c t hc ih =>
    rw [universalNewlines_cons hc]
    simpa using ⟨fun h => hc h.symm, ih⟩

theorem universalNewlines_ends (t : Text) : ∃ line, universalNewlines (t ++ ['\n']) = line ++ ['\n'] := by
  induction t using newlines_induction with
  | nil => exact ⟨[], rfl⟩
  | crlf t ih =>
    obtain ⟨line, hline⟩ := ih
    exact ⟨'\n' :: line, by rw [List.cons_append, List.cons_append, universalNewlines_crlf, hline, List.cons_append]⟩
  | lone t hcrlf ih =>
    cases t with
    | nil => exact ⟨[], rfl⟩
    | cons d t =>
      obtain ⟨line, hline⟩ := ih
      refine ⟨'\n' :: line, ?_⟩
      rw [List.cons_append, universalNewlines_return, hline, List.cons_append]
      rintro more h
      exact hcrlf t (by rw [(List.cons.inj h).1])
  | char d t hd ih =>
    obtain ⟨line, hline⟩ := ih
    exact ⟨d :: line, by rw [List.cons_append, universalNewlines_cons hd, hline, List.cons_append]⟩

/-- A text cut off between `\r` and `\n` is read like one cut off behind both. -/
theorem universalNewlines_mono {a t : Text} (h : a <+: t) : universalNewlines a <+: universalNewlines t := by
  obtain ⟨b, rfl⟩ := h
  induction a using newlines_induction with
  | nil => exact List.nil_prefix
  | crlf t ih =>
    rw [List.cons_append, List.cons_append, universalNewlines_crlf, universalNewlines_crlf]
    exact List.cons_prefix_cons.mpr ⟨rfl, ih⟩
  | lone t hcrlf ih =>
    rw [universalNewlines_return hcrlf]
    by_cases hnext : ∃ more, t ++ b = '\n' :: more
    · obtain ⟨more, hmore⟩ := hnext
      cases t with
      | nil =>
        rw [List.cons_append, List.nil_append, show b = '\n' :: more from hmore, universalNewlines_crlf]
        exact List.cons_prefix_cons.mpr ⟨rfl, List.nil_prefix⟩
      | cons d t =>
        rw [List.cons_append] at hmore
        exact absurd (by rw [(List.cons.inj hmore).1]) (hcrlf t)
    · rw [List.cons_append, universalNewlines_return (fun more h => hnext ⟨more, h⟩)]
      exact List.cons_prefix_cons.mpr ⟨rfl, ih⟩
  | char d t hd ih =>
    rw [List.cons_append, universalNewlines_cons hd, universalNewlines_cons hd]
    exact List.cons_prefix_cons.mpr ⟨rfl, ih⟩

/-- Each part of what is read is what is read of a part. -/
theorem exists_prefix_universalNewlines {p t : Text} (h : p <+: universalNewlines t) : ∃ a, a <+: t ∧ universalNewlines a = p := by
  induction t using newlines_induction generalizing p with
  | nil => exact ⟨[], List.nil_prefix, (List.prefix_nil.mp h).symm⟩
  | crlf t ih =>
    cases p with
    | nil => exact ⟨[], List.nil_prefix, rfl⟩
    | cons c p =>
      rw [universalNewlines_crlf] at h
      obtain ⟨rfl, hp⟩ := List.cons_prefix_cons.mp h
      obtain ⟨a, ha, hread⟩ := ih hp
      exact ⟨'\r' :: '\n' :: a, by simpa using ha, by rw [universalNewlines_crlf, hread]⟩
  | lone t hcrlf ih =>
    cases p with
    | nil => exact ⟨[], List.nil_prefix, rfl⟩
    | cons c p =>
      rw [universalNewlines_return hcrlf] at h
      obtain ⟨rfl, hp⟩ := List.cons_prefix_cons.mp h
      obtain ⟨a, ha, hread⟩ := ih hp
      refine ⟨'\r' :: a, by simpa using ha, ?_⟩
      rw [universalNewlines_return, hread]
      rintro more rfl
      obtain ⟨b, rfl⟩ := ha
      exact hcrlf _ rfl
  | char d t hd ih =>
    cases p with
    | nil => exact ⟨[], List.nil_prefix, rfl⟩
    | cons c p =>
      rw [universalNewlines_cons hd] at h
      obtain ⟨rfl, hp⟩ := List.cons_prefix_cons.mp h
      obtain ⟨a, ha, hread⟩ := ih hp
      exact ⟨c :: a, by simpa using ha, by rw [universalNewlines_cons hd, hread]⟩

theorem mem_universalNewlines {t : Text} {c : Char} (h : c ∈ universalNewlines t) : c ∈ t ∨ c = '\n' := by
  have htail : ∀ {t rest : Text} {d : Char}, (c ∈ rest → c ∈ t ∨ c = '\n') → c ∈ d :: rest → d = '\n' ∨ d ∈ t → c ∈ t ∨ c = '\n' := by
    intro t rest d hrest hmem hd
    rcases List.mem_cons.mp hmem with rfl | hmem
    · exact hd.symm
    · exact hrest hmem
  induction t using newlines_induction with
  | nil => cases h
  | crlf t ih =>
    rw [universalNewlines_crlf] at h
    exact htail (fun hmem => (ih hmem).imp_left fun hin => by simp [hin]) h (.inl rfl)
  | lone t hcrlf ih =>
    rw [universalNewlines_return hcrlf] at h
    exact htail (fun hmem => (ih hmem).imp_left (List.mem_cons_of_mem _)) h (.inl rfl)
  | char d t hd ih =>
    rw [universalNewlines_cons hd] at h
    exact htail (fun hmem => (ih hmem).imp_left (List.mem_cons_of_mem _)) h (.inr List.mem_cons_self)

theorem length_universalNewlines (t : Text) : (universalNewlines t).length ≤ t.length := by
  induction t using newlines_induction with
  | nil => exact Nat.le_refl _
  | crlf t ih =>
    rw [universalNewlines_crlf]
    simp only [List.length_cons]
    omega
  | lone t hcrlf ih =>
    rw [universalNewlines_return hcrlf]
    simp only [List.length_cons]
    omega
  | char c t hc ih =>
    rw [universalNewlines_cons hc]
    simp only [List.length_cons]
    omega

theorem newline_mem_universalNewlines {t : Text} (h : '\r' ∈ t) : '\n' ∈ universalNewlines t := by
  induction t using newlines_induction with
  | nil => cases h
  | crlf t ih =>
    rw [universalNewlines_crlf]
    exact List.mem_cons_self
  | lone t hcrlf ih =>
    rw [universalNewlines_return hcrlf]
    exact List.mem_cons_self
  | char c t hc ih =>
    rw [universalNewlines_cons hc]
    rcases List.mem_cons.mp h with rfl | h
    · exact absurd rfl hc
    · exact List.mem_cons_of_mem _ (ih h)

/-! ## Joins -/

theorem commaJoin_cons_cons (a b : Text) (ts : List Text) : commaJoin (a :: b :: ts) = a ++ ',' :: commaJoin (b :: ts) := by
  simp [commaJoin, List.intercalate, List.intersperse]

theorem universalNewlines_commaJoin (ts : List Text) :
    universalNewlines (commaJoin ts) = commaJoin (ts.map universalNewlines) := by
  induction ts with
  | nil => rfl
  | cons t ts ih =>
    cases ts with
    | nil => simp [commaJoin, List.intercalate]
    | cons t' ts =>
      rw [List.map_cons] at ih
      rw [commaJoin_cons_cons, universalNewlines_append (by decide) (by decide), ih, List.map_cons, List.map_cons,
        commaJoin_cons_cons]

theorem mem_commaJoin {ts : List Text} {t : Text} {c : Char} (ht : t ∈ ts) (hc : c ∈ t) : c ∈ commaJoin ts := by
  induction ts with
  | nil => cases ht
  | cons s ts ih =>
    cases ts with
    | nil =>
      obtain rfl := List.mem_singleton.mp ht
      simpa [commaJoin, List.intercalate] using hc
    | cons s' ts =>
      rw [commaJoin_cons_cons, List.mem_append, List.mem_cons]
      rcases List.mem_cons.mp ht with rfl | ht
      · exact Or.inl hc
      · exact Or.inr (Or.inr (ih ht))

theorem commaJoin_solid {ts : List Text} (hne : ts ≠ [])
    (h : ∀ t ∈ ts, ∃ t' c, t = t' ++ [c] ∧ isSpace c = false) :
    ∃ t' c, commaJoin ts = t' ++ [c] ∧ isSpace c = false := by
  induction ts with
  | nil => exact absurd rfl hne
  | cons t ts ih =>
    cases ts with
    | nil => simpa [commaJoin, List.intercalate] using h t List.mem_cons_self
    | cons t' ts =>
      obtain ⟨s, c, hs, hc⟩ := ih (List.cons_ne_nil _ _) fun x hx => h x (List.mem_cons_of_mem _ hx)
      exact ⟨t ++ ',' :: s, c, by rw [commaJoin_cons_cons, hs]; simp, hc⟩

/-! ## Finding -/

theorem afterFirst_append_of_not_mem {c : Char} {pat a b : Text} (h : c ∉ a) :
    afterFirst (c :: pat) (a ++ b) = afterFirst (c :: pat) b := by
  induction a with
  | nil => rfl
  | cons d a ih =>
    rw [List.mem_cons, not_or] at h
    have hpre : (c :: pat).isPrefixOf (d :: (a ++ b)) = false := by simp [List.isPrefixOf, h.1]
    rw [List.cons_append, afterFirst, hpre, if_neg (by decide), ih h.2]

theorem afterFirst_self_append {c : Char} {pat b : Text} : afterFirst (c :: pat) (c :: pat ++ b) = some b := by
  have hpre : (c :: pat).isPrefixOf (c :: (pat ++ b)) = true := by simp [List.isPrefixOf_iff_prefix]
  rw [List.cons_append, afterFirst, if_pos hpre]
  simp

theorem suffix_of_afterFirst {pat t r : Text} (h : afterFirst pat t = some r) : r <:+ t := by
  induction t with
  | nil =>
    unfold afterFirst at h
    split at h
    · obtain rfl := Option.some.inj h
      exact List.suffix_refl _
    · cases h
  | cons c t ih =>
    unfold afterFirst at h
    split at h
    · obtain rfl := Option.some.inj h
      exact List.drop_suffix ..
    · exact (ih h).trans (List.suffix_cons c t)

theorem prefix_of_beforeLast {t r : Text} {stop : Char} (h : beforeLast stop t = some r) : r <+: t := by
  induction t generalizing r with
  | nil => cases h
  | cons c t ih =>
    unfold beforeLast at h
    split at h
    · rename_i r' hr'
      obtain rfl := Option.some.inj h
      rw [List.prefix_cons_inj]
      exact ih hr'
    · split at h
      · obtain rfl := Option.some.inj h
        exact List.nil_prefix
      · cases h

theorem beforeLast_append {a b : Text} {stop : Char} (h : stop ∉ b) :
    beforeLast stop (a ++ stop :: b) = some a := by
  have hb : beforeLast stop b = none := by
    induction b with
    | nil => rfl
    | cons c rest ih =>
      rw [List.mem_cons, not_or] at h
      rw [beforeLast, ih h.2]
      exact if_neg (Ne.symm h.1)
  induction a with
  | nil => simp [beforeLast, hb]
  | cons c rest ih => rw [List.cons_append, beforeLast, ih]

end Lib

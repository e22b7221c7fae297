import Palworld.Changelog.Parser

/-!
# The lines of a document

What a line of each kind looks like. A line may have its brackets, its `v` and its blanks or not, and
prose may stand between the lines.
-/

open Lib Lib.Re

namespace Palworld.Changelog

/-- A run of characters of a class. -/
structure Run (p : Char → Bool) where
  text : Text
  ne : text ≠ []
  all : ∀ c ∈ text, p c = true

structure Digits (n : Nat) where
  text : Text
  length : text.length = n
  all : ∀ c ∈ text, Char.isDigit c = true

structure Version where
  major : Run Char.isDigit
  minor : Run Char.isDigit
  patch : Option (Run Char.isDigit)
  label : Option (Run isLabelChar)

/-- What stands behind a mark, if anything does. -/
def marked {p : Char → Bool} (mark : Char) : Option (Run p) → Text
  | none => []
  | some run => mark :: run.text

def Version.text (v : Version) : Text := v.major.text ++ '.' :: (v.minor.text ++ (marked '.' v.patch ++ marked '-' v.label))

structure Date where
  year : Digits 4
  month : Digits 2
  day : Digits 2

def Date.text (d : Date) : Text := d.year.text ++ '-' :: (d.month.text ++ '-' :: d.day.text)

structure CategoryName extends Run isCategoryChar where
  stripped : strip text = text

/-- The text of an item stands on one line. -/
structure ItemText extends Run (· != '\n') where
  stripped : strip text = text

inductive Token
  | unreleased
  | release (version : Version) (date : Option Date)
  | category (name : CategoryName)
  | item (text : ItemText)

/-- A blank within a line. -/
def isBlank (c : Char) : Bool := isSpace c && c != '\n'

def Blanks (t : Text) : Prop := ∀ c ∈ t, isBlank c = true

/-- The date of a release, with its dash. Without the closing bracket a blank ends the version. -/
inductive DatePart (closing : Text) : Option Date → Text → Prop
  | none : DatePart closing none []
  | some (date : Date) {before after : Text} (hbefore : Blanks before) (hafter : Blanks after) (hend : closing = [] → before ≠ []) :
      DatePart closing (some date) (before ++ '-' :: (after ++ date.text))

/-- A line says what the token is. -/
inductive Describes : Token → Text → Prop
  | unreleased {opening key closing tail : Text} (gap : Run isBlank) (hopening : opening = [] ∨ opening = ['['])
      (hkey : key.map Logs.foldCase = lit "unreleased") (hclosing : closing = [] ∨ closing = [']']) (htail : Blanks tail) :
      Describes .unreleased (lit "##" ++ (gap.text ++ (opening ++ (key ++ (closing ++ tail)))))
  | release {opening v closing part tail : Text} {date : Option Date} (version : Version) (gap : Run isBlank)
      (hopening : opening = [] ∨ opening = ['[']) (hv : v = [] ∨ v = ['v'] ∨ v = ['V'])
      (hclosing : closing = [] ∨ closing = [']']) (hpart : DatePart closing date part) (htail : Blanks tail) :
      Describes (.release version date) (lit "##" ++ (gap.text ++ (opening ++ (v ++ (version.text ++ (closing ++ (part ++ tail)))))))
  | category {tail : Text} (name : CategoryName) (gap : Run isBlank) (htail : Blanks tail) :
      Describes (.category name) (lit "###" ++ (gap.text ++ (name.text ++ tail)))
  | item {indent tail : Text} {mark : Char} (text : ItemText) (gap : Run isBlank) (hindent : Blanks indent)
      (hmark : mark = '*' ∨ mark = '-') (htail : Blanks tail) :
      Describes (.item text) (indent ++ mark :: (gap.text ++ (text.text ++ tail)))

/-- A line that is no header and no bullet. -/
structure Prose (line_str : Text) : Prop where
  no_header : ¬ lit "##" <+: line_str
  no_bullet : ∀ c ∈ (line_str.dropWhile isSpace).head?, c ≠ '*' ∧ c ≠ '-'

/-- The lines describe the tokens, in their order. -/
inductive Renders : List Token → List Text → Prop
  | nil : Renders [] []
  | token {token : Token} {line : Text} {tokens : List Token} {lines : List Text} (hline : Describes token (rstripNewlines line))
      (h : Renders tokens lines) : Renders (token :: tokens) (line :: lines)
  | prose {line : Text} {tokens : List Token} {lines : List Text} (hline : Prose (rstripNewlines line)) (h : Renders tokens lines) :
      Renders tokens (line :: lines)

/-! ## Where runs stop -/

section

variable {s t tail : Text} {c : Char}

theorem isSpace_of_isBlank (h : isBlank c = true) : isSpace c = true := by
  unfold isBlank at h
  rw [Bool.and_eq_true] at h
  exact h.1

theorem Blanks.space (h : Blanks t) : ∀ c ∈ t, isSpace c = true := fun c hc => isSpace_of_isBlank (h c hc)

theorem Run.space (gap : Run isBlank) : ∀ c ∈ gap.text, isSpace c = true := Blanks.space gap.all

theorem isBlank_of_mem (h : Blanks t) (hc : c ∈ (t ++ s).head?) : isBlank c = true ∨ c ∈ s.head? := by
  cases t with
  | nil => exact Or.inr hc
  | cons d t =>
    obtain rfl : d = c := Option.some.inj hc
    exact Or.inl (h d List.mem_cons_self)

/-- Blanks end a run of what is no blank. -/
theorem Blanks.stops {p : Char → Bool} (h : Blanks t) (hp : ∀ c, isSpace c = true → p c = false) (hs : Stops p s) : Stops p (t ++ s) := by
  intro c hc
  rcases isBlank_of_mem h hc with hblank | hc
  · exact hp c (isSpace_of_isBlank hblank)
  · exact hs c hc

theorem Run.stops {q p : Char → Bool} (run : Run q) (hp : ∀ c, q c = true → p c = false) : Stops p (run.text ++ s) := by
  obtain ⟨d, rest, hrun⟩ := List.exists_cons_of_ne_nil run.ne
  rw [hrun, List.cons_append, stops_cons]
  exact hp d (run.all d (by rw [hrun]; exact List.mem_cons_self))

theorem isDigit_of_isSpace (h : isSpace c = true) : c.isDigit = false := by
  have hword := isAlphanum_of_isSpace h
  unfold Char.isAlphanum at hword
  rw [Bool.or_eq_false_iff] at hword
  exact hword.2

theorem ne_of_isSpace {d : Char} (hd : isSpace d = false) (h : isSpace c = true) : (c == d) = false := by
  rw [beq_eq_false_iff_ne]
  rintro rfl
  rw [hd] at h
  cases h

theorem isLabelChar_of_isSpace (h : isSpace c = true) : isLabelChar c = false := by
  unfold isLabelChar
  rw [isAlphanum_of_isSpace h, List.contains_cons, List.contains_cons, List.contains_cons, ne_of_isSpace (d := '_') (by decide) h,
    ne_of_isSpace (d := '.') (by decide) h, ne_of_isSpace (d := '-') (by decide) h]
  rfl

theorem isSpace_of_isDigit (h : c.isDigit = true) : isSpace c = false := by
  cases hspace : isSpace c with
  | false => rfl
  | true => rw [isDigit_of_isSpace hspace] at h; cases h

/-- A stripped text begins with no blank. -/
theorem stops_of_strip (hne : t ≠ []) (h : strip t = t) : Stops isSpace (t ++ s) := by
  obtain ⟨d, rest, rfl⟩ := List.exists_cons_of_ne_nil hne
  rw [List.cons_append, stops_cons]
  cases hd : isSpace d with
  | false => rfl
  | true =>
    have hlstrip : lstrip (d :: rest) = lstrip rest := List.dropWhile_cons_of_pos hd
    have hlen : (strip (d :: rest)).length ≤ rest.length := by
      unfold strip
      rw [hlstrip]
      exact (rstrip_begins (lstrip rest)).length_le.trans (List.dropWhile_suffix isSpace).length_le
    rw [h, List.length_cons] at hlen
    omega

theorem rstrip_append_space (htail : ∀ c ∈ tail, isSpace c = true) : rstrip (t ++ tail) = rstrip t := by
  unfold rstrip
  rw [List.reverse_append, List.dropWhile_append_of_pos fun c hc => htail c (List.mem_reverse.mp hc)]

theorem strip_append_space (hne : t ≠ []) (h : strip t = t) (htail : ∀ c ∈ tail, isSpace c = true) : strip (t ++ tail) = t := by
  have hstops := stops_of_strip (s := []) hne h
  have hstops' := stops_of_strip (s := tail) hne h
  obtain ⟨d, rest, rfl⟩ := List.exists_cons_of_ne_nil hne
  rw [List.cons_append, stops_cons] at hstops'
  have hlstrip : ∀ u, lstrip (d :: u) = d :: u := fun u => List.dropWhile_cons_of_neg (by simp [hstops'])
  unfold strip at h ⊢
  rw [List.cons_append, hlstrip, ← List.cons_append, rstrip_append_space htail]
  rwa [hlstrip] at h

end

/-! ## The headers -/

section

variable {s closing part tail : Text} {date : Option Date}

theorem yields_marked {p : Char → Bool} (mark : Char) (run : Option (Run p)) (hs : Stops p s) (hmark : Stops (· == mark) s) :
    Yields (orEmpty do
      let m ← char (· == mark)
      let r ← many1 p
      return m ++ r) (marked mark run ++ s) (marked mark run) s := by
  cases run with
  | none => exact ((fails_char hmark).bind).orEmpty
  | some run =>
    have hchar : Yields (char (· == mark)) (mark :: (run.text ++ s)) [mark] (run.text ++ s) := yields_char (beq_self_eq_true mark)
    have hpure : Yields (pure ([mark] ++ run.text)) s (marked mark (some run)) s := yields_pure
    exact (hchar.bind ((yields_many1 run.ne run.all hs).bind hpure)).orEmpty

theorem yields_reVersion (v : Version) (hs : Stops isLabelChar s) : Yields reVersion (v.text ++ s) v.text s := by
  have hdash : Stops (· == '-') s := hs.mono fun c hc => by rw [beq_iff_eq.mp hc]; decide
  have hdot : Stops (· == '.') s := hs.mono fun c hc => by rw [beq_iff_eq.mp hc]; decide
  have hdigit : Stops Char.isDigit s := hs.mono fun c hc => by unfold isLabelChar Char.isAlphanum; rw [hc]; simp
  have hlabel := yields_marked '-' v.label hs hdash
  have hpatch : Yields _ (marked '.' v.patch ++ (marked '-' v.label ++ s)) (marked '.' v.patch) _ :=
    yields_marked '.' v.patch (by
      cases v.label with
      | none => exact hdigit
      | some l => exact stops_cons.mpr (by decide)) (by
      cases v.label with
      | none => exact hdot
      | some l => exact stops_cons.mpr (by decide))
  have hminor : Yields (many1 Char.isDigit) (v.minor.text ++ (marked '.' v.patch ++ (marked '-' v.label ++ s))) v.minor.text _ :=
    yields_many1 v.minor.ne v.minor.all (by
      cases v.patch with
      | none =>
        cases v.label with
        | none => exact hdigit
        | some l => exact stops_cons.mpr (by decide)
      | some n => exact stops_cons.mpr (by decide))
  have hpoint : Yields (char (· == '.')) ('.' :: (v.minor.text ++ (marked '.' v.patch ++ (marked '-' v.label ++ s)))) ['.'] _ :=
    yields_char (by decide)
  have hmajor := yields_many1 v.major.ne v.major.all (stops_cons (s := v.minor.text ++ (marked '.' v.patch ++ (marked '-' v.label ++ s))).mpr
    (by decide : Char.isDigit '.' = false))
  unfold reVersion Version.text
  rw [List.append_assoc, List.cons_append, List.append_assoc, List.append_assoc]
  exact hmajor.bind (hpoint.bind (hminor.bind (hpatch.bind (hlabel.bind yields_pure))))

theorem yields_reDate (d : Date) : Yields reDate (d.text ++ s) d.text s := by
  have hdash : ∀ u, Yields (char (· == '-')) ('-' :: u) ['-'] u := fun u => yields_char (by decide)
  unfold reDate Date.text
  rw [List.append_assoc, List.cons_append, List.append_assoc, List.cons_append]
  exact (yields_exactly d.year.length d.year.all).bind ((hdash _).bind ((yields_exactly d.month.length d.month.all).bind
    ((hdash _).bind ((yields_exactly d.day.length d.day.all).bind yields_pure))))

theorem stops_version {p : Char → Bool} {v : Text} (version : Version) (hsmall : p 'v' = false) (hcapital : p 'V' = false)
    (hdigit : ∀ c, Char.isDigit c = true → p c = false) (hv : v = [] ∨ v = ['v'] ∨ v = ['V']) : Stops p (v ++ (version.text ++ s)) := by
  rcases hv with rfl | rfl | rfl
  · unfold Version.text
    rw [List.nil_append, List.append_assoc]
    exact version.major.stops hdigit
  · exact stops_cons.mpr hsmall
  · exact stops_cons.mpr hcapital

theorem stops_optional {p : Char → Bool} {piece : Text} {c : Char} (hp : p c = false) (hpiece : piece = [] ∨ piece = [c]) (hs : Stops p s) :
    Stops p (piece ++ s) := by
  rcases hpiece with rfl | rfl
  · exact hs
  · exact stops_cons.mpr hp

theorem optional_char {piece : Text} {c : Char} (hpiece : piece = [] ∨ piece = [c]) :
    piece = [] ∨ ∃ d, (d == c) = true ∧ piece = [d] := by
  rcases hpiece with rfl | rfl
  · exact Or.inl rfl
  · exact Or.inr ⟨c, beq_self_eq_true c, rfl⟩

theorem DatePart.stops_label (hpart : DatePart closing date part) (hclosing : closing = [] ∨ closing = [']']) (htail : Blanks tail) :
    Stops isLabelChar (closing ++ (part ++ tail)) := by
  have hblank := htail.stops (s := []) (fun c hc => isLabelChar_of_isSpace hc) stops_nil
  rw [List.append_nil] at hblank
  rcases hclosing with rfl | rfl
  · cases hpart with
    | none => exact hblank
    | some date hbefore hafter hend =>
      rw [List.nil_append, List.append_assoc]
      exact Run.stops ⟨_, hend rfl, hbefore⟩ fun c hc => isLabelChar_of_isSpace (isSpace_of_isBlank hc)
  · exact stops_cons.mpr (by decide)

theorem DatePart.stops_bracket (hpart : DatePart closing date part) (htail : Blanks tail) : Stops (· == ']') (part ++ tail) := by
  cases hpart with
  | none => simpa using htail.stops (s := []) (fun c hc => ne_of_isSpace (by decide) hc) stops_nil
  | some date hbefore hafter hend =>
    rw [List.append_assoc]
    exact hbefore.stops (fun c hc => ne_of_isSpace (by decide) hc) (stops_cons.mpr (by decide))

theorem fails_reDatePart (htail : Blanks tail) : Fails reDatePart tail := by
  refine Fails.of_bind fun a t hm => Fails.bind (fails_char ?_)
  rw [← List.append_nil tail] at hm
  obtain ⟨v, rfl, hv⟩ := mem_many htail.space stops_nil hm
  rw [List.append_nil]
  cases v with
  | nil => exact stops_nil
  | cons c v => exact stops_cons.mpr (ne_of_isSpace (by decide) (hv c List.mem_cons_self))

theorem DatePart.yields (hpart : DatePart closing date part) (htail : Blanks tail) :
    Yields reDatePart.opt (part ++ tail) (date.map Date.text) tail := by
  cases hpart with
  | none => exact (fails_reDatePart htail).opt
  | some date hbefore hafter hend =>
    have hdash : ∀ u, Yields (char (· == '-')) ('-' :: u) ['-'] u := fun u => yields_char (by decide)
    have hyear : Stops isSpace (date.text ++ tail) := by
      have hdigits : date.year.text ≠ [] := by
        intro hnil
        have hlen := date.year.length
        rw [hnil] at hlen
        cases hlen
      unfold Date.text
      rw [List.append_assoc]
      exact Run.stops ⟨_, hdigits, date.year.all⟩ fun c hc => isSpace_of_isDigit hc
    refine Yields.opt ?_
    rw [List.append_assoc, List.cons_append, List.append_assoc]
    exact (yields_many hbefore.space (stops_cons.mpr (by decide))).bind ((hdash _).bind
      ((yields_many hafter.space hyear).bind (yields_reDate date)))

theorem yields_tail (htail : Blanks tail) : Yields (many isSpace) tail tail [] := by
  have hmany := yields_many (s := []) htail.space stops_nil
  rwa [List.append_nil] at hmany

theorem yields_reReleaseHeader {opening v : Text} (version : Version) (gap : Run isBlank) (hopening : opening = [] ∨ opening = ['['])
    (hv : v = [] ∨ v = ['v'] ∨ v = ['V']) (hclosing : closing = [] ∨ closing = [']']) (hpart : DatePart closing date part)
    (htail : Blanks tail) :
    Yields reReleaseHeader (lit "##" ++ (gap.text ++ (opening ++ (v ++ (version.text ++ (closing ++ (part ++ tail)))))))
      (version.text, date.map Date.text) [] := by
  have hgap := yields_many1 gap.ne gap.space (stops_optional (by decide) hopening
    (stops_version (s := closing ++ (part ++ tail)) version (by decide) (by decide) (fun c hc => isSpace_of_isDigit hc) hv))
  have hbracket := yields_orEmpty_char (optional_char hopening)
    (stops_version (s := closing ++ (part ++ tail)) version (by decide) (by decide)
      (fun c hc => by rw [beq_eq_false_iff_ne]; rintro rfl; exact absurd hc (by decide)) hv)
  have hletter := yields_orEmpty_char (p := fun c => c == 'v' || c == 'V') (w := v)
    (s := version.text ++ (closing ++ (part ++ tail))) (by
      rcases hv with rfl | rfl | rfl
      · exact Or.inl rfl
      · exact Or.inr ⟨'v', by decide, rfl⟩
      · exact Or.inr ⟨'V', by decide, rfl⟩) (by
      unfold Version.text
      rw [List.append_assoc]
      refine version.major.stops fun c hc => ?_
      rw [Bool.or_eq_false_iff, beq_eq_false_iff_ne, beq_eq_false_iff_ne]
      constructor <;> rintro rfl <;> exact absurd hc (by decide))
  have hversion := yields_reVersion version (hpart.stops_label hclosing htail)
  have hclose := yields_orEmpty_char (optional_char hclosing) (hpart.stops_bracket htail)
  exact (yields_word (List.map_id _)).bind (hgap.bind (hbracket.bind (hletter.bind (hversion.bind (hclose.bind
    ((hpart.yields htail).bind ((yields_tail htail).bind (yields_atEnd.bind yields_pure))))))))

theorem fold_of_key {key : Text} (hkey : key.map Logs.foldCase = lit "unreleased") {c : Char} (hc : c ∈ key) :
    Logs.isLetter (Logs.foldCase c) = true := by
  have hmem : Logs.foldCase c ∈ lit "unreleased" := by
    rw [← hkey]
    exact List.mem_map_of_mem hc
  have hall : (lit "unreleased").all Logs.isLetter = true := by decide +kernel
  exact List.all_eq_true.mp hall _ hmem

theorem yields_reUnreleasedHeader {opening key : Text} (gap : Run isBlank) (hopening : opening = [] ∨ opening = ['['])
    (hkey : key.map Logs.foldCase = lit "unreleased") (hclosing : closing = [] ∨ closing = [']']) (htail : Blanks tail) :
    Yields reUnreleasedHeader (lit "##" ++ (gap.text ++ (opening ++ (key ++ (closing ++ tail))))) () [] := by
  have hne : key ≠ [] := by
    rintro rfl
    revert hkey
    decide +kernel
  have hletters : ∀ c ∈ key, (Logs.isLetter (Logs.foldCase c)) = true := fun c hc => fold_of_key hkey hc
  have hrun : ∀ {p : Char → Bool}, (∀ c, Logs.isLetter (Logs.foldCase c) = true → p c = false) →
      Stops p (key ++ (closing ++ tail)) := fun hp => Run.stops ⟨key, hne, hletters⟩ hp
  have hgap := yields_many1 gap.ne gap.space (stops_optional (by decide) hopening (hrun fun c hc => Logs.isSpace_of_fold hc))
  have hbracket := yields_orEmpty_char (optional_char hopening) (hrun fun c hc => by
    rw [beq_eq_false_iff_ne]
    rintro rfl
    exact absurd hc (by decide))
  have hclose := yields_orEmpty_char (optional_char hclosing) (s := tail) (by
    simpa using htail.stops (s := []) (fun c hc => ne_of_isSpace (by decide) hc) stops_nil)
  exact (yields_word (List.map_id _)).bind (hgap.bind (hbracket.bind ((yields_word hkey).bind (hclose.bind
    ((yields_tail htail).bind yields_atEnd)))))

/-- A release is not taken for the unreleased changes. -/
theorem fails_reUnreleasedHeader {opening v : Text} (version : Version) (gap : Run isBlank) (hopening : opening = [] ∨ opening = ['['])
    (hv : v = [] ∨ v = ['v'] ∨ v = ['V']) : Fails reUnreleasedHeader (lit "##" ++ (gap.text ++ (opening ++ (v ++ (version.text ++ s))))) := by
  have hdigit : ∀ c : Char, c.isDigit = true → (Logs.foldCase c == 'u') = false := by
    intro c hc
    rw [beq_eq_false_iff_ne]
    intro hfold
    have hletter : Logs.isLetter (Logs.foldCase c) = true := by rw [hfold]; decide
    have hrange := Logs.toNat_of_fold hletter
    have hdigit : 48 ≤ c.toNat ∧ c.toNat ≤ 57 := Char.isDigit_iff_toNat.mp hc
    omega
  have hstart := stops_version (s := s) version (p := fun c => Logs.foldCase c == 'u') (by decide) (by decide) hdigit hv
  have hspace : Stops isSpace (opening ++ (v ++ (version.text ++ s))) := stops_optional (by decide) hopening
    (stops_version version (by decide) (by decide) (fun c hc => isSpace_of_isDigit hc) hv)
  have hopen : Stops (fun c => Logs.foldCase c == 'u') (opening ++ (v ++ (version.text ++ s))) := stops_optional (by decide) hopening hstart
  refine fails_behind_word (Fails.of_bind fun _ t hm => Fails.of_bind fun _ t' hm' => Fails.bind (fails_word ?_))
  obtain ⟨blank, rfl, hblank⟩ := mem_many1 gap.space hspace hm
  cases blank with
  | cons c blank =>
    -- the gap has given back a blank, which is no bracket
    have hc := hblank c List.mem_cons_self
    rcases mem_orEmpty hm' with ⟨_, hbracket⟩ | rfl
    · obtain ⟨d, hd, heq⟩ := mem_char hbracket
      obtain ⟨rfl, -⟩ := List.cons.inj heq
      rw [ne_of_isSpace (by decide) hc] at hd
      cases hd
    · rw [List.cons_append, stops_cons, beq_eq_false_iff_ne]
      intro hfold
      have hletter : Logs.isLetter (Logs.foldCase c) = true := by rw [hfold]; decide
      rw [Logs.isSpace_of_fold hletter] at hc
      cases hc
  | nil =>
    rcases mem_orEmpty hm' with ⟨_, hbracket⟩ | rfl
    · obtain ⟨d, hd, heq⟩ := mem_char hbracket
      rcases hopening with rfl | rfl
      · have hnone := stops_version (s := s) version (p := (· == '[')) (by decide) (by decide)
          (fun c hc => by rw [beq_eq_false_iff_ne]; rintro rfl; exact absurd hc (by decide)) hv
        rw [List.nil_append, List.nil_append] at heq
        rw [heq, stops_cons, hd] at hnone
        cases hnone
      · obtain ⟨-, rfl⟩ := List.cons.inj heq
        exact hstart
    · exact hopen

end

/-! ## Categories and items -/

section

variable {s tail : Text}

theorem yields_reCategoryHeader (name : CategoryName) (gap : Run isBlank) (htail : Blanks tail) :
    ∃ category, Yields reCategoryHeader (lit "###" ++ (gap.text ++ (name.text ++ tail))) category [] ∧ strip category = name.text := by
  have hsplit := List.takeWhile_append_dropWhile (p := isCategoryChar) (l := tail)
  have hfront : ∀ c ∈ tail.takeWhile isCategoryChar, isSpace c = true := fun c hc => htail.space c ((List.takeWhile_prefix _).subset hc)
  have hback : Blanks (tail.dropWhile isCategoryChar) := fun c hc => htail c ((List.dropWhile_suffix _).subset hc)
  have hall : ∀ c ∈ name.text ++ tail.takeWhile isCategoryChar, isCategoryChar c = true := by
    intro c hc
    rcases List.mem_append.mp hc with hc | hc
    · exact name.all c hc
    · exact List.mem_takeWhile_imp hc
  have hstops : Stops isCategoryChar (tail.dropWhile isCategoryChar) := by
    intro c hc
    have hhead := List.head?_dropWhile_not isCategoryChar tail
    rw [Option.mem_def.mp hc] at hhead
    simpa using hhead
  have hne : name.text ++ tail.takeWhile isCategoryChar ≠ [] := fun h => name.ne (List.append_eq_nil_iff.mp h).1
  have hname := yields_many1 hne hall hstops
  rw [List.append_assoc, hsplit] at hname
  refine ⟨name.text ++ tail.takeWhile isCategoryChar, ?_, strip_append_space name.ne name.stripped hfront⟩
  exact (yields_word (List.map_id _)).bind ((yields_many1 gap.ne gap.space (stops_of_strip name.ne name.stripped)).bind (hname.bind
    ((yields_tail hback).bind (yields_atEnd.bind yields_pure))))

theorem yields_reBulletItem {indent : Text} {mark : Char} (text : ItemText) (gap : Run isBlank) (hindent : Blanks indent)
    (hmark : mark = '*' ∨ mark = '-') (htail : Blanks tail) :
    Yields reBulletItem (indent ++ mark :: (gap.text ++ (text.text ++ tail))) (text.text ++ tail) [] := by
  have hmarks : isSpace mark = false ∧ (mark == '*' || mark == '-') = true := by
    rcases hmark with rfl | rfl <;> decide
  have hall : ∀ c ∈ text.text ++ tail, (c != '\n') = true := by
    intro c hc
    rcases List.mem_append.mp hc with hc | hc
    · exact text.all c hc
    · have hblank := htail c hc
      unfold isBlank at hblank
      rw [Bool.and_eq_true] at hblank
      exact hblank.2
  have hitem := yields_many1 (s := []) (fun h => text.ne (List.append_eq_nil_iff.mp h).1) hall stops_nil
  rw [List.append_nil] at hitem
  have hchar : Yields (char fun c => c == '*' || c == '-') (mark :: (gap.text ++ (text.text ++ tail))) [mark] _ := yields_char hmarks.2
  exact (yields_many hindent.space (stops_cons.mpr hmarks.1)).bind (hchar.bind
    ((yields_many1 gap.ne gap.space (stops_of_strip text.ne text.stripped)).bind (hitem.bind (yields_atEnd.bind yields_pure))))

theorem fails_headers (h : ¬ lit "##" <+: s) :
    Fails reUnreleasedHeader s ∧ Fails reReleaseHeader s ∧ Fails reCategoryHeader s := by
  have hlit : lit "###" = lit "##" ++ ['#'] := by decide +kernel
  refine ⟨(fails_word_id h).bind, (fails_word_id h).bind, (fails_word_id fun hcat => h ?_).bind⟩
  rw [hlit] at hcat
  exact (List.prefix_append _ _).trans hcat

/-- A third `#` is no blank. -/
theorem fails_on_category : Fails reUnreleasedHeader (lit "###" ++ s) ∧ Fails reReleaseHeader (lit "###" ++ s) := by
  have hlit : lit "###" = lit "##" ++ ['#'] := by decide +kernel
  have hgap : Fails (many1 isSpace) (['#'] ++ s) := fails_many1 (stops_cons.mpr (by decide))
  rw [hlit, List.append_assoc]
  exact ⟨fails_behind_word hgap.bind, fails_behind_word hgap.bind⟩

theorem no_header_of_stops (h : Stops (· == '#') s) : ¬ lit "##" <+: s := by
  have hlit : lit "##" = '#' :: ['#'] := by decide +kernel
  rintro ⟨rest, rfl⟩
  rw [hlit, List.cons_append, stops_cons] at h
  exact absurd h (by decide)

theorem Prose.fails_reBulletItem (h : Prose s) : Fails reBulletItem s := by
  refine Fails.of_bind fun a t hm => Fails.bind (fails_char ?_)
  have hsplit := List.takeWhile_append_dropWhile (p := isSpace) (l := s)
  have hfront : ∀ c ∈ s.takeWhile isSpace, isSpace c = true := fun c hc => List.mem_takeWhile_imp hc
  have hstops : Stops isSpace (s.dropWhile isSpace) := by
    intro c hc
    have hhead := List.head?_dropWhile_not isSpace s
    rw [Option.mem_def.mp hc] at hhead
    simpa using hhead
  rw [← hsplit] at hm
  obtain ⟨v, rfl, hv⟩ := mem_many hfront hstops hm
  cases v with
  | nil =>
    intro c hc
    have hne := h.no_bullet c hc
    simp [hne.1, hne.2]
  | cons c v =>
    have hc := hv c List.mem_cons_self
    rw [List.cons_append, stops_cons, ne_of_isSpace (by decide) hc, ne_of_isSpace (by decide) hc]
    rfl

end

/-! ## What the parser makes of a line -/

section

variable {st : ParserState} {line : Text}

theorem parseLine_unreleased (h : Describes .unreleased (rstripNewlines line)) : parseLine st line = st.openUnreleased := by
  unfold parseLine
  generalize rstripNewlines line = line_str at h ⊢
  cases h with
  | unreleased gap hopening hkey hclosing htail =>
    dsimp only
    rw [(yields_reUnreleasedHeader gap hopening hkey hclosing htail).firstMatch]

theorem parseLine_release {version : Version} {date : Option Date} (h : Describes (.release version date) (rstripNewlines line)) :
    parseLine st line = st.openRelease version.text (date.map Date.text) := by
  unfold parseLine
  generalize rstripNewlines line = line_str at h ⊢
  cases h with
  | release _ gap hopening hv hclosing hpart htail =>
    dsimp only
    rw [(fails_reUnreleasedHeader version gap hopening hv).firstMatch,
      (yields_reReleaseHeader version gap hopening hv hclosing hpart htail).firstMatch]

theorem parseLine_category {name : CategoryName} (h : Describes (.category name) (rstripNewlines line)) :
    parseLine st line = st.openCategory (rstripNewlines line) name.text := by
  unfold parseLine
  generalize rstripNewlines line = line_str at h ⊢
  cases h with
  | category _ gap htail =>
    obtain ⟨category, hyields, hstrip⟩ := yields_reCategoryHeader name gap htail
    dsimp only
    rw [fails_on_category.1.firstMatch, fails_on_category.2.firstMatch, hyields.firstMatch]
    dsimp only
    rw [hstrip]

theorem parseLine_item {text : ItemText} (h : Describes (.item text) (rstripNewlines line)) :
    parseLine st line = st.addItem (rstripNewlines line) text.text := by
  unfold parseLine
  generalize rstripNewlines line = line_str at h ⊢
  cases h with
  | item _ gap hindent hmark htail =>
    have hmarks : ∀ {mark : Char}, mark = '*' ∨ mark = '-' → (mark == '#') = false := by
      rintro mark (rfl | rfl) <;> decide
    obtain ⟨hun, hrel, hcat⟩ := fails_headers (no_header_of_stops
      (hindent.stops (fun c hc => ne_of_isSpace (by decide) hc) (stops_cons.mpr (hmarks hmark))))
    dsimp only
    rw [hun.firstMatch, hrel.firstMatch, hcat.firstMatch, (yields_reBulletItem text gap hindent hmark htail).firstMatch]
    dsimp only
    rw [strip_append_space text.ne text.stripped htail.space]

theorem parseLine_prose (h : Prose (rstripNewlines line)) : parseLine st line = st.keepRaw (rstripNewlines line) := by
  obtain ⟨hun, hrel, hcat⟩ := fails_headers h.no_header
  unfold parseLine
  dsimp only
  rw [hun.firstMatch, hrel.firstMatch, hcat.firstMatch, h.fails_reBulletItem.firstMatch]

end

end Palworld.Changelog

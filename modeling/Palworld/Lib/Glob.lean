import Palworld.Lib.Text
import Mathlib.Data.List.Infix

/-!
# Names that match a pattern

`*` stands for any text, `?` for any character, and `[…]` for one of some characters.
-/

namespace Lib

inductive GlobPiece
  | char (c : Char)
  | any
  | star
  | set (negated : Bool) (ranges : List (Char × Char))

namespace GlobPiece

/-- What stands between the brackets, as ranges. -/
def ranges : Text → List (Char × Char)
  | a :: '-' :: b :: t => (a, b) :: ranges t
  | a :: t => (a, a) :: ranges t
  | [] => []

/-- After an opening bracket: whether the set is negated, the set, and the rest. A closing bracket that comes first belongs to the set. -/
def bracket (t : Text) : Option (Bool × Text × Text) :=
  let negated := t.head? == some '!'
  let body := if negated then t.tail else t
  let own := if body.head? = some ']' then 1 else 0
  match (body.drop own).dropWhile (· ≠ ']') with
  | [] => none
  | _ :: rest => some (negated, body.take own ++ (body.drop own).takeWhile (· ≠ ']'), rest)

def globFuel : Nat → Text → List GlobPiece
  | 0, _ => []
  | _, [] => []
  | n + 1, '*' :: t => star :: globFuel n t
  | n + 1, '?' :: t => any :: globFuel n t
  | n + 1, '[' :: t =>
    match bracket t with
    | some (negated, chars, rest) => set negated (ranges chars) :: globFuel n rest
    | none => char '[' :: globFuel n t
  | n + 1, c :: t => char c :: globFuel n t

def takes : GlobPiece → Char → Bool
  | char d, c => c = d
  | any, _ => true
  | star, _ => false
  | set negated ranges, c => (ranges.any fun r => r.1 ≤ c && c ≤ r.2) != negated

def matchAll : List GlobPiece → Text → Bool
  | [], t => t.isEmpty
  | star :: ps, t => t.tails.any (matchAll ps)
  | _ :: _, [] => false
  | p :: ps, c :: t => p.takes c && matchAll ps t

end GlobPiece

open GlobPiece

/-- `fnmatch.translate`, and the match of the whole name. -/
def fnmatch (pattern name : Text) : Bool := matchAll (globFuel pattern.length pattern) name

/-- No character of the text is special in a pattern. -/
def isVerbatim (t : Text) : Bool := t.all fun c => c ≠ '*' && c ≠ '?' && c ≠ '['

variable {t rest name : Text} {n : Nat}

theorem globFuel_verbatim (h : isVerbatim t = true) : globFuel (t.length + n) (t ++ rest) = t.map GlobPiece.char ++ globFuel n rest := by
  induction t with
  | nil => rw [List.length_nil, Nat.zero_add, List.nil_append, List.map_nil, List.nil_append]
  | cons c t ih =>
    unfold isVerbatim at h
    rw [List.all_cons, Bool.and_eq_true] at h
    obtain ⟨hc, ht⟩ := h
    simp only [ne_eq, decide_not, Bool.and_eq_true, Bool.not_eq_true', decide_eq_false_iff_not] at hc
    obtain ⟨⟨hstar, hany⟩, hset⟩ := hc
    rw [List.length_cons, Nat.succ_add, List.cons_append, List.map_cons, List.cons_append, ← ih ht]
    rw [globFuel.eq_def]
    split <;> simp_all

theorem matchAll_chars (ps : List GlobPiece) : matchAll (t.map GlobPiece.char ++ ps) name = true ↔ ∃ behind, name = t ++ behind ∧ matchAll ps behind = true := by
  induction t generalizing name with
  | nil => simp
  | cons c t ih =>
    cases name with
    | nil => simp [matchAll]
    | cons d name =>
      simp only [List.map_cons, List.cons_append, matchAll, takes, Bool.and_eq_true, decide_eq_true_eq, ih, List.cons.injEq]
      constructor
      · rintro ⟨rfl, behind, hname, hmatch⟩
        exact ⟨behind, ⟨rfl, hname⟩, hmatch⟩
      · rintro ⟨behind, ⟨rfl, hname⟩, hmatch⟩
        exact ⟨rfl, behind, hname, hmatch⟩

/-- A text without special characters, and then anything. -/
theorem fnmatch_verbatim (h : isVerbatim t = true) : fnmatch (t ++ ['*']) name = true ↔ t <+: name := by
  have hanything : ∀ behind : Text, matchAll [star] behind = true := by
    intro behind
    simp only [matchAll, List.any_eq_true, List.mem_tails]
    exact ⟨[], List.nil_suffix, rfl⟩
  unfold fnmatch
  rw [List.length_append, globFuel_verbatim h, matchAll_chars]
  constructor
  · rintro ⟨behind, rfl, -⟩
    exact List.prefix_append t behind
  · rintro ⟨behind, rfl⟩
    exact ⟨behind, rfl, hanything behind⟩

example : fnmatch "a[!b-d]?*".toList "aexyz".toList = true := by decide

end Lib

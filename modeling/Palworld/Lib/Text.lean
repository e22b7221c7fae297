import Mathlib.Data.List.Basic

/-! # Texts: lists of code points -/

namespace Lib

/-- A text, code point by code point. -/
abbrev Text := List Char

instance textLawfulBEq : LawfulBEq Text := List.instLawfulBEq

/-- The text of an ASCII literal, byte by byte. It evaluates faster than `String.toList`. -/
def lit (s : String) : Text := s.toByteArray.data.toList.map fun b => Char.ofNat b.toNat

/-- A bounded claim that a test settles item by item. -/
theorem forall_of_all {α : Type} {P : α → Prop} [DecidablePred P] {as : List α} (h : (as.all fun a => decide (P a)) = true) : ∀ a ∈ as, P a :=
  fun a ha => of_decide_eq_true (List.all_eq_true.mp h a ha)

end Lib

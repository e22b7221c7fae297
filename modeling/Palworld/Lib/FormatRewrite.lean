import Palworld.Lib.Percent
import Palworld.Lib.Rewrite

/-!
# Replacing in a format string

A pattern is replaced in a format string and in the text it formats to. Where both lose the same
characters of the format string, and neither loses a directive or a part of what one is filled
with, the two texts stay a format string and what it formats to.
-/

namespace Lib

/-- Before `after`, a pass leaves a part as it is: each match that begins in it ends in it and is replaced by itself. -/
inductive Kept {α : Type} (m : Matcher α) (after : List α) : List α → Prop
  | nil : Kept m after []
  | copy {c : α} {p : List α} (hnone : m (c :: (p ++ after)) = none) (h : Kept m after p) : Kept m after (c :: p)
  | same {w p : List α} (hmatch : m (w ++ (p ++ after)) = some (w, p ++ after)) (h : Kept m after p) : Kept m after (w ++ p)

theorem Kept.subs {α : Type} {m : Matcher α} {after p u : List α} (h : Kept m after p) (hu : Subs m after u) :
    Subs m (p ++ after) (p ++ u) := by
  induction h with
  | nil => exact hu
  | copy hnone h ih => exact .copy hnone ih
  | same hmatch h ih =>
    rw [List.append_assoc, List.append_assoc]
    exact .replace hmatch ih

/-- A pass replaces the same characters of the format string in it and in the text it formats to, and nothing else. -/
inductive Spares (m : Matcher Char) : List Slot → List Slot → Prop
  | nil : Spares m [] []
  | own {c : Char} {ss ss' : List Slot} (hwritten : m (c :: written ss) = none) (hfilled : m (c :: filledIn ss) = none)
    (h : Spares m ss ss') : Spares m (.own c :: ss) (.own c :: ss')
  | filled {source text : Text} {ss ss' : List Slot} (hsource : Kept m (written ss) ('%' :: source)) (htext : Kept m (filledIn ss) text)
    (h : Spares m ss ss') : Spares m (.filled source text :: ss) (.filled source text :: ss')
  | span {w r : Text} {ss ss' : List Slot} (hwritten : m (w ++ written ss) = some (r, written ss))
    (hfilled : m (w ++ filledIn ss) = some (r, filledIn ss)) (h : Spares m ss ss') : Spares m (w.map .own ++ ss) (r.map .own ++ ss')

section

variable {m : Matcher Char} {ss ss' : List Slot}

theorem Spares.written (h : Spares m ss ss') : Subs m (written ss) (written ss') := by
  induction h with
  | nil => exact .nil
  | own hwritten hfilled h ih => exact .copy hwritten ih
  | filled hsource htext h ih => exact hsource.subs ih
  | span hwritten hfilled h ih =>
    rw [written_append, written_append]
    exact .replace hwritten ih

theorem Spares.filledIn (h : Spares m ss ss') : Subs m (filledIn ss) (filledIn ss') := by
  induction h with
  | nil => exact .nil
  | own hwritten hfilled h ih => exact .copy hfilled ih
  | filled hsource htext h ih => exact htext.subs ih
  | span hwritten hfilled h ih =>
    rw [filledIn_append, filledIn_append]
    exact .replace hfilled ih

variable {V : Type} {values : Values V} {get : Option (Text → Option V)} {items left : List V} {args : Args V}

/-- What is left of the format string is filled as before, if no replacement has a percent sign. -/
theorem Spares.filling (hm : ∀ s r rest, m s = some (r, rest) → '%' ∉ r) (h : Spares m ss ss') (hss : Filling values get ss items left) :
    Filling values get ss' items left := by
  induction h generalizing items with
  | nil => exact hss
  | own hwritten hfilled h ih =>
    cases hss with
    | own hc hss => exact .own hc (ih hss)
  | filled hsource htext h ih =>
    cases hss with
    | filled hread hfill hss => exact .filled hread hfill (ih hss)
  | span hwritten hfilled h ih => exact filling_plain (hm _ _ _ hwritten) (ih hss.tail)

theorem Spares.takes (hm : ∀ s r rest, m s = some (r, rest) → '%' ∉ r) (h : Spares m ss ss') (hss : Takes values ss args) :
    Takes values ss' args := by
  cases args with
  | tuple items => exact h.filling hm hss
  | mapping whole get =>
    obtain ⟨left, hss⟩ := hss
    exact ⟨left, h.filling hm hss⟩

end

end Lib

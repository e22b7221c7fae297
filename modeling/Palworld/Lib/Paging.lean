import Mathlib.Data.List.Basic
import Mathlib.Tactic.Common

/-!
# Pages of a list that grows at its front

A list is read page by page, and what is put before it between two pages moves its entries back. No
entry is moved past the place that the reader has come to.
-/

namespace Lib

variable {α : Type}

/-- `LIMIT limit OFFSET offset`. A negative limit is none, and a negative offset is zero. -/
def page (limit offset : Int) (l : List α) : List α :=
  if limit < 0 then l.drop offset.toNat else (l.drop offset.toNat).take limit.toNat

/-- A reader: where the next page begins, and the entries of the pages so far. -/
structure Reader (α : Type) where
  offset : Nat
  seen : List α

namespace Reader

def start : Reader α := ⟨0, []⟩

/-- One page of `size` entries is read. -/
def next (size : Nat) (l : List α) (r : Reader α) : Reader α := ⟨r.offset + size, r.seen ++ page size r.offset l⟩

/-- The page came back short: there was nothing behind it. -/
def Short (size : Nat) (l : List α) (r : Reader α) : Prop := (page size r.offset l).length < size

/-- Of the entries of `first`, those before the place of the reader were seen. -/
def Covers (first l : List α) (r : Reader α) : Prop := ∀ a ∈ l.take r.offset, a ∈ first → a ∈ r.seen

variable {first l new : List α} {r : Reader α} {size : Nat}

theorem page_natCast (size offset : Nat) (l : List α) : page size offset l = (l.drop offset).take size := by
  unfold page
  rw [if_neg (by omega), Int.toNat_natCast, Int.toNat_natCast]

theorem covers_start : (start : Reader α).Covers first l := by
  intro a ha
  simp [start] at ha

/-- Entries that are put before the list move the others back, and are none of the first ones. -/
theorem Covers.grow (h : r.Covers first l) (hnew : ∀ a ∈ new, a ∉ first) : r.Covers first (new ++ l) := by
  intro a ha hfirst
  rw [List.take_append, List.mem_append] at ha
  rcases ha with hin | hin
  · exact absurd hfirst (hnew a (List.mem_of_mem_take hin))
  · exact h a ((List.take_subset_take_left l (Nat.sub_le _ _)) hin) hfirst

/-- Entries that change become none of the first ones. -/
theorem Covers.map {f : α → α} (h : r.Covers first l) (hf : ∀ a ∈ l, f a ∈ first → f a = a) : r.Covers first (l.map f) := by
  intro b hb hfirst
  rw [← List.map_take] at hb
  obtain ⟨a, ha, rfl⟩ := List.mem_map.mp hb
  have hsame := hf a (List.mem_of_mem_take ha) hfirst
  rw [hsame] at hfirst ⊢
  exact h a ha hfirst

theorem Covers.next (h : r.Covers first l) : (r.next size l).Covers first l := by
  intro a ha hfirst
  unfold Reader.next at ha ⊢
  rw [page_natCast]
  dsimp only at ha ⊢
  rw [List.take_add, List.mem_append] at ha
  rcases ha with hin | hin
  · exact List.mem_append_left _ (h a hin hfirst)
  · exact List.mem_append_right _ hin

/-- A reader whose last page came back short has seen every one of the first entries. -/
theorem Covers.complete (h : (r.next size l).Covers first l) (hshort : r.Short size l) (hfirst : ∀ a ∈ first, a ∈ l) :
    ∀ a ∈ first, a ∈ (r.next size l).seen := by
  intro a ha
  refine h a ?_ ha
  unfold Short at hshort
  rw [page_natCast, List.length_take, List.length_drop] at hshort
  rw [List.take_of_length_le (by unfold Reader.next; dsimp only; omega)]
  exact hfirst a ha

variable (size) in
/-- What was seen of a list that does not change is its beginning. -/
theorem seen_eq_take (hseen : r.seen = l.take r.offset) : (r.next size l).seen = l.take (r.next size l).offset := by
  unfold Reader.next
  rw [hseen, page_natCast, List.take_add]

end Reader

end Lib

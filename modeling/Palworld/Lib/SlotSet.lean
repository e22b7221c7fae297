import Mathlib.Data.List.ReduceOption
import Mathlib.Tactic.Common

/-!
# Sets that are iterated while they change

The table of a hash set is a row of slots. An iteration goes along the slots, and an
element that keeps its slot is met exactly once.
-/

namespace Lib

variable {α : Type*}

/-- A set as a row of slots, the free ones holding nothing. -/
structure SlotSet (α : Type*) where
  slots : List (Option α)
  nodup : slots.reduceOption.Nodup

/-- The first element from slot `pos` on, and the slot after it. -/
def scan (pos : Nat) : List (Option α) → Option (α × Nat)
  | [] => none
  | some a :: _ => some (a, pos + 1)
  | none :: rest => scan (pos + 1) rest

theorem slot_unique {slots : List (Option α)} {a : α} {i j : Nat} (hnodup : slots.reduceOption.Nodup)
    (hi : slots[i]? = some (some a)) (hj : slots[j]? = some (some a)) : i = j := by
  induction slots generalizing i j with
  | nil => simp at hi
  | cons slot rest ih =>
    have mem_rest {k : Nat} (hk : rest[k]? = some (some a)) : a ∈ rest.reduceOption :=
      List.reduceOption_mem_iff.mpr (List.mem_of_getElem? hk)
    have first_only {k : Nat} (hslot : slot = some a) (hk : rest[k]? = some (some a)) : False := by
      subst hslot
      rw [List.reduceOption_cons_of_some] at hnodup
      exact (List.nodup_cons.mp hnodup).1 (mem_rest hk)
    have hrest : rest.reduceOption.Nodup := by
      cases slot with
      | none => simpa using hnodup
      | some b => exact (List.nodup_cons.mp (by simpa using hnodup)).2
    cases i with
    | zero =>
      cases j with
      | zero => rfl
      | succ j => exact (first_only (by simpa using hi) (by simpa using hj)).elim
    | succ i =>
      cases j with
      | zero => exact (first_only (by simpa using hj) (by simpa using hi)).elim
      | succ j => exact congrArg (· + 1) (ih hrest (by simpa using hi) (by simpa using hj))

namespace SlotSet

def members (t : SlotSet α) : List α := t.slots.reduceOption

def used (t : SlotSet α) : Nat := t.members.length

def At (t : SlotSet α) (i : Nat) (a : α) : Prop := t.slots[i]? = some (some a)

/-- The next element of an iteration that has come to slot `pos`. -/
def next (t : SlotSet α) (pos : Nat) : Option (α × Nat) := scan pos (t.slots.drop pos)

/-- What `t` and `u` share has the same slot in both. -/
def KeepsPlaces (t u : SlotSet α) : Prop := ∀ i a, t.At i a → a ∈ u.members → u.At i a

section

variable {t u : SlotSet α} {a b : α} {i j pos p : Nat}

theorem mem_members : a ∈ t.members ↔ ∃ i, t.At i a := by
  unfold members At
  rw [List.reduceOption_mem_iff]
  exact List.mem_iff_getElem?

theorem at_unique (hi : t.At i a) (hj : t.At j a) : i = j :=
  slot_unique t.nodup hi hj

theorem keepsPlaces_of_prefix (h : t.slots <+: u.slots) : t.KeepsPlaces u := by
  rintro i a ha -
  obtain ⟨rest, hrest⟩ := h
  have hlt := (List.getElem?_eq_some_iff.mp ha).1
  rw [At, ← hrest, List.getElem?_append_left hlt]
  exact ha

/-! ## Iteration -/

theorem scan_some {slots : List (Option α)} (h : scan pos slots = some (a, p)) :
    ∃ k, p = pos + k + 1 ∧ slots[k]? = some (some a) ∧ ∀ j < k, slots[j]? = some none := by
  induction slots generalizing pos with
  | nil => simp [scan] at h
  | cons slot rest ih =>
    cases slot with
    | some b =>
      simp only [scan, Option.some.injEq, Prod.mk.injEq] at h
      exact ⟨0, by omega, by simp [h.1], by omega⟩
    | none =>
      obtain ⟨k, hp, hk, hfree⟩ := ih h
      refine ⟨k + 1, by omega, by simpa using hk, fun j hj => ?_⟩
      cases j with
      | zero => rfl
      | succ j => simpa using hfree j (by omega)

theorem scan_none {slots : List (Option α)} (h : scan pos slots = none) (k : Nat) :
    slots[k]? ≠ some (some a) := by
  induction slots generalizing pos k with
  | nil => simp
  | cons slot rest ih =>
    cases slot with
    | some b => simp [scan] at h
    | none =>
      cases k with
      | zero => simp
      | succ k => simpa using ih h k

theorem next_some (h : t.next pos = some (a, p)) :
    ∃ i, p = i + 1 ∧ pos ≤ i ∧ t.At i a ∧ ∀ j b, pos ≤ j → t.At j b → i ≤ j := by
  obtain ⟨k, hp, hk, hfree⟩ := scan_some h
  rw [List.getElem?_drop] at hk
  refine ⟨pos + k, hp, by omega, hk, fun j b hj hb => ?_⟩
  by_contra hlt
  have hnone := hfree (j - pos) (by omega)
  rw [List.getElem?_drop, show pos + (j - pos) = j by omega, show t.slots[j]? = some (some b) from hb] at hnone
  cases hnone

theorem next_none (h : t.next pos = none) (hb : t.At j b) : j < pos := by
  by_contra hge
  refine scan_none (a := b) h (j - pos) ?_
  rw [List.getElem?_drop, show pos + (j - pos) = j by omega]
  exact hb

/-- An iteration passes the slot of an element exactly when it meets that element. -/
theorem passed_iff (ha : t.At i a) (h : t.next pos = some (b, p)) : i < p ↔ i < pos ∨ a = b := by
  obtain ⟨k, rfl, hpos, hk, hfirst⟩ := next_some h
  constructor
  · intro hlt
    by_cases hi : i < pos
    · exact .inl hi
    · have hik : i = k := by
        have := hfirst i a (by omega) ha
        omega
      subst hik
      have hsame : some (some a) = some (some b) := ha.symm.trans hk
      exact .inr (Option.some.inj (Option.some.inj hsame))
  · rintro (hi | rfl)
    · omega
    · rw [at_unique ha hk]
      omega

theorem ne_of_passed (ha : t.At i a) (h : t.next pos = some (b, p)) (hi : i < pos) : a ≠ b := by
  rintro rfl
  obtain ⟨k, -, hpos, hk, -⟩ := next_some h
  have := at_unique ha hk
  omega

end

/-! ## Removal -/

section

variable [DecidableEq α]

def remove (t : SlotSet α) (dead : List α) : SlotSet α where
  slots := t.slots.map fun slot => slot.filter (· ∉ dead)
  nodup := by
    have hsub : (t.slots.map fun slot => slot.filter (· ∉ dead)).reduceOption =
        t.slots.reduceOption.filter (· ∉ dead) := by
      induction t.slots with
      | nil => rfl
      | cons slot rest ih =>
        cases slot with
        | none => simpa using ih
        | some a => by_cases ha : a ∈ dead <;> simpa [Option.filter, ha] using ih
    rw [hsub]
    exact t.nodup.filter _

theorem at_remove {t : SlotSet α} {dead : List α} {i : Nat} {a : α} :
    (t.remove dead).At i a ↔ t.At i a ∧ a ∉ dead := by
  simp only [At, remove, List.getElem?_map, Option.map_eq_some_iff, Option.filter_eq_some_iff, decide_eq_true_eq]
  constructor
  · rintro ⟨slot, hslot, rfl, ha⟩
    exact ⟨hslot, ha⟩
  · rintro ⟨hslot, ha⟩
    exact ⟨some a, hslot, rfl, ha⟩

theorem mem_remove {t : SlotSet α} {dead : List α} {a : α} :
    a ∈ (t.remove dead).members ↔ a ∈ t.members ∧ a ∉ dead := by
  simp only [mem_members, at_remove, exists_and_right]

theorem keepsPlaces_remove (t : SlotSet α) (dead : List α) : t.KeepsPlaces (t.remove dead) :=
  fun _ _ ha hmem => at_remove.mpr ⟨ha, (mem_remove.mp hmem).2⟩

end

end SlotSet

end Lib

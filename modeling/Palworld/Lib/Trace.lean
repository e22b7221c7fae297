import Mathlib.Data.List.Basic

/-!
# Properties of a trace that grows at its end

A trace lists what happened. No label comes back after another one took its
place, or an entry comes only after the entries it needs.
-/

namespace Lib

variable {α : Type*} {a b : α} {as l pre : List α}

/-! ## Turns -/

/-- The labels come in blocks: between two entries of one label there is no other label. -/
def NoInterleave (l : List α) : Prop := ∀ a b, [a, b, a].Sublist l → b = a

/-- After an entry with the label `a`, every entry has that label. -/
def HasTurn (a : α) (l : List α) : Prop := ∀ b, [a, b].Sublist l → b = a

theorem sublist_snoc (pre : List α) (h : (pre ++ [a]).Sublist (l ++ [b])) :
    (pre ++ [a]).Sublist l ∨ pre.Sublist l ∧ a = b := by
  rw [← List.reverse_sublist] at h
  simp only [List.reverse_append, List.reverse_singleton, List.singleton_append] at h
  cases h with
  | cons _ h =>
    left
    rw [← List.reverse_sublist]
    simpa using h
  | cons_cons _ h => exact Or.inr ⟨List.reverse_sublist.mp h, rfl⟩

theorem noInterleave_nil : NoInterleave ([] : List α) := by
  intro a b h
  cases h

theorem HasTurn.of_not_mem (h : a ∉ l) : HasTurn a l := by
  intro b hb
  exact absurd (hb.subset (List.mem_cons_self ..)) h

theorem HasTurn.snoc (h : HasTurn a l) : HasTurn a (l ++ [a]) := by
  intro b hb
  rcases sublist_snoc [a] hb with hold | ⟨_, rfl⟩
  · exact h b hold
  · rfl

theorem NoInterleave.snoc (h : NoInterleave l) (ha : HasTurn a l) : NoInterleave (l ++ [a]) := by
  intro b c hbc
  rcases sublist_snoc [b, c] hbc with hold | ⟨hold, rfl⟩
  · exact h b c hold
  · exact ha c hold

theorem NoInterleave.append_replicate (h : NoInterleave l) (ha : HasTurn a l) (n : Nat) :
    NoInterleave (l ++ List.replicate n a) ∧ HasTurn a (l ++ List.replicate n a) := by
  induction n with
  | zero => simpa using ⟨h, ha⟩
  | succ n ih =>
    rw [List.replicate_succ', ← List.append_assoc]
    exact ⟨ih.1.snoc ih.2, ih.2.snoc⟩

/-! ## What comes first -/

/-- Before each `a` the entries `pre` come, in this order. -/
def Preceded (pre : List α) (a : α) (l : List α) : Prop :=
  ∀ l₁ l₂, l = l₁ ++ a :: l₂ → pre.Sublist l₁

theorem preceded_nil : Preceded pre a [] := by
  intro l₁ l₂ h
  simp at h

theorem Preceded.snoc (h : Preceded pre a l) (hb : b = a → pre.Sublist l) : Preceded pre a (l ++ [b]) := by
  intro l₁ l₂ hl
  rcases List.eq_nil_or_concat l₂ with rfl | ⟨l₂, c, rfl⟩
  · obtain ⟨rfl, hab⟩ := List.append_inj' hl rfl
    exact hb (List.singleton_inj.mp hab)
  · rw [List.concat_eq_append, ← List.cons_append, ← List.append_assoc] at hl
    obtain ⟨rfl, -⟩ := List.append_inj' hl rfl
    exact h l₁ l₂ rfl

theorem Preceded.sublist (h : Preceded pre a l) (ha : a ∈ l) : pre.Sublist l := by
  obtain ⟨l₁, l₂, rfl⟩ := List.mem_iff_append.mp ha
  exact (h l₁ l₂ rfl).trans (List.sublist_append_left _ _)

theorem Preceded.append (h : Preceded pre a l) (has : a ∉ as) : Preceded pre a (l ++ as) := by
  induction as generalizing l with
  | nil => simpa using h
  | cons b as ih =>
    rw [List.mem_cons, not_or] at has
    rw [List.append_cons]
    exact ih (h.snoc fun hb => absurd hb.symm has.1) has.2

/-! ## Where an entry stands -/

/-- Wherever `a` stands, this holds of what comes before it and after it. -/
def At (a : α) (l : List α) (P : List α → List α → Prop) : Prop := ∀ before after, l = before ++ a :: after → P before after

variable {P : List α → List α → Prop} {post : List α}

theorem at_of_notMem (h : a ∉ l) : At a l P := by
  rintro before after rfl
  exact absurd (List.mem_append_right _ (List.mem_cons_self ..)) h

/-- An entry that is there once. -/
theorem at_once (hpre : a ∉ pre) (hpost : a ∉ post) : At a (pre ++ a :: post) P ↔ P pre post := by
  constructor
  · intro h
    exact h pre post rfl
  · intro h before after hsplit
    obtain ⟨rfl, -, rfl⟩ := (List.append_cons_inj_of_notMem hpre hpost).mp hsplit
    exact h

end Lib

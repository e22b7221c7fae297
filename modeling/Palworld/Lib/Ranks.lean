import Mathlib.Order.Lattice
import Mathlib.Data.List.Basic

/-!
# The rank of an element

Where an element of a sorted list stands is the number of those before it.
-/

namespace Lib

variable {α β : Type*} [LinearOrder α] {f : β → α} {l : List β} {x : β} {n : Nat}

/-- Nothing is below the first. -/
theorem below_first (hfirst : ∀ b ∈ l, f x < f b) : (l.filter fun a => f a < f x) = [] := by
  rw [List.filter_eq_nil_iff]
  intro b hb
  simpa using (hfirst b hb).le

theorem mem_take_iff_below (hsorted : l.Pairwise fun a b => f a < f b) (hx : x ∈ l) :
    x ∈ l.take n ↔ (l.filter fun a => f a < f x).length < n := by
  induction l generalizing n with
  | nil => cases hx
  | cons a l ih =>
    rw [List.pairwise_cons] at hsorted
    obtain ⟨hfirst, hsorted⟩ := hsorted
    cases n with
    | zero => simp
    | succ n =>
      rcases List.mem_cons.mp hx with rfl | hx
      · simp [below_first hfirst]
      · have hlt := hfirst x hx
        have hne : x ≠ a := by
          rintro rfl
          exact lt_irrefl _ hlt
        rw [List.take_succ_cons, List.mem_cons, or_iff_right hne, ih hsorted hx]
        simp [hlt]

/-- Below, above, and the element itself. -/
theorem below_add_above (hsorted : l.Pairwise fun a b => f a < f b) (hx : x ∈ l) :
    (l.filter fun a => f a < f x).length + (l.filter fun a => f x < f a).length + 1 = l.length := by
  induction l with
  | nil => cases hx
  | cons a l ih =>
    rw [List.pairwise_cons] at hsorted
    obtain ⟨hfirst, hsorted⟩ := hsorted
    rcases List.mem_cons.mp hx with rfl | hx
    · have hall : (l.filter fun a => f x < f a) = l := by
        rw [List.filter_eq_self]
        intro b hb
        simpa using hfirst b hb
      simp [below_first hfirst, hall]
    · have hlt := hfirst x hx
      have hsum := ih hsorted hx
      simp only [List.filter_cons, hlt, hlt.not_gt, decide_true, decide_false, if_true, Bool.false_eq_true, if_false, List.length_cons]
      omega

/-- The last `n` of a sorted list are those with fewer than `n` above them. -/
theorem notMem_take_iff_above (hsorted : l.Pairwise fun a b => f a < f b) (hx : x ∈ l) :
    x ∉ l.take (l.length - n) ↔ (l.filter fun a => f x < f a).length < n := by
  have hsum := below_add_above hsorted hx
  rw [mem_take_iff_below hsorted hx]
  omega

end Lib

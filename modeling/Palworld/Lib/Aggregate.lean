import Mathlib.Data.List.Dedup
import Mathlib.Data.Rat.Floor
import Mathlib.Algebra.Order.Floor.Ring
import Mathlib.Algebra.Order.BigOperators.Group.List
import Mathlib.Algebra.BigOperators.Group.List.Lemmas
import Mathlib.Algebra.Order.Ring.Rat
import Mathlib.Tactic.Linarith
import Mathlib.Tactic.Positivity
import Mathlib.Tactic.NormNum

/-!
# Groups and aggregates

`GROUP BY` with `ORDER BY` the label, and the aggregates that are taken of a group. Over no row at
all an aggregate is `NULL`.
-/

namespace Lib

section Groups

variable {ρ κ : Type} [LinearOrder κ] {label : ρ → κ} {rows : List ρ} {g : κ × List ρ} {r : ρ}

def groups (label : ρ → κ) (rows : List ρ) : List (κ × List ρ) :=
  ((rows.map label).dedup.mergeSort (· ≤ ·)).map fun l => (l, rows.filter fun r => label r = l)

theorem mem_groups : g ∈ groups label rows ↔ (∃ r ∈ rows, label r = g.1) ∧ g.2 = rows.filter fun r => label r = g.1 := by
  unfold groups
  simp only [List.mem_map, List.mem_mergeSort, List.mem_dedup]
  constructor
  · rintro ⟨l, hl, rfl⟩
    exact ⟨hl, rfl⟩
  · rintro ⟨hl, hrows⟩
    exact ⟨g.1, hl, Prod.ext rfl hrows.symm⟩

theorem groups_labels : (groups label rows).map Prod.fst = (rows.map label).dedup.mergeSort (· ≤ ·) := by
  unfold groups
  rw [List.map_map]
  exact List.map_id _

/-- The groups come in the order of their labels, no label twice. -/
theorem groups_ascending : ((groups label rows).map Prod.fst).Pairwise (· < ·) := by
  rw [groups_labels]
  have hsorted : ((rows.map label).dedup.mergeSort (· ≤ ·)).Pairwise fun a b => decide (a ≤ b) = true :=
    List.pairwise_mergeSort (fun a b c hab hbc => by
      rw [decide_eq_true_eq] at hab hbc ⊢
      exact hab.trans hbc) (fun a b => by
      rw [Bool.or_eq_true, decide_eq_true_eq, decide_eq_true_eq]
      exact le_total a b) _
  have hnodup : ((rows.map label).dedup.mergeSort (· ≤ ·)).Nodup :=
    (List.mergeSort_perm _ _).nodup_iff.mpr (List.nodup_dedup _)
  exact List.Pairwise.imp₂ (fun a b hle hne => lt_of_le_of_ne (of_decide_eq_true hle) hne) hsorted hnodup

/-- A row is in the group of its label and in no other. -/
theorem mem_group_iff (hg : g ∈ groups label rows) : r ∈ g.2 ↔ r ∈ rows ∧ label r = g.1 := by
  rw [(mem_groups.mp hg).2, List.mem_filter, decide_eq_true_eq]

theorem group_of_mem (hr : r ∈ rows) : (label r, rows.filter fun r' => label r' = label r) ∈ groups label rows :=
  mem_groups.mpr ⟨⟨r, hr, rfl⟩, rfl⟩

theorem group_ne_nil (hg : g ∈ groups label rows) : g.2 ≠ [] := by
  obtain ⟨r, hr, hlabel⟩ := (mem_groups.mp hg).1
  exact List.ne_nil_of_mem ((mem_group_iff hg).mpr ⟨hr, hlabel⟩)

theorem sum_length_groups : ((groups label rows).map fun g => g.2.length).sum = rows.length := by
  unfold groups
  rw [List.map_map]
  refine ((List.mergeSort_perm _ _).map _).sum_eq.trans ?_
  have hcount : ∀ l, (rows.filter fun r => label r = l).length = (rows.map label).count l := by
    intro l
    rw [List.count, List.countP_map, List.countP_eq_length_filter]
    rfl
  have hfun : ((fun g : κ × List ρ => g.2.length) ∘ fun l => (l, rows.filter fun r => label r = l)) = fun l => (rows.map label).count l :=
    funext hcount
  rw [hfun]
  exact (List.sum_map_count_dedup_eq_length _).trans (List.length_map _)

end Groups

/-! ## The largest and the smallest -/

section Extremes

variable {α : Type} [LinearOrder α] {xs : List α}

theorem exists_max? (h : xs ≠ []) : ∃ m, xs.max? = some m := by
  cases hmax : xs.max? with
  | none => exact absurd (List.max?_eq_none_iff.mp hmax) h
  | some m => exact ⟨m, rfl⟩

theorem exists_min? (h : xs ≠ []) : ∃ m, xs.min? = some m := by
  cases hmin : xs.min? with
  | none => exact absurd (List.min?_eq_none_iff.mp hmin) h
  | some m => exact ⟨m, rfl⟩

/-- `MIN` or `MAX`: `le` says which of two is passed over. -/
structure Extreme {α : Type} (le : α → α → Prop) (ext : List α → Option α) : Prop where
  spec : ∀ xs m, ext xs = some m ↔ m ∈ xs ∧ ∀ x ∈ xs, le x m
  some : ∀ xs, xs ≠ [] → ∃ m, ext xs = some m
  antisymm : ∀ a b, le a b → le b a → a = b

theorem extreme_max : Extreme (α := α) (fun a b => a ≤ b) List.max? where
  spec _ _ := List.max?_eq_some_iff
  some _ := exists_max?
  antisymm _ _ := le_antisymm

theorem extreme_min : Extreme (α := α) (fun a b => b ≤ a) List.min? where
  spec _ _ := List.min?_eq_some_iff
  some _ := exists_min?
  antisymm _ _ h h' := le_antisymm h' h

omit [LinearOrder α] in
/-- The extreme of the columns of the groups is the column of all rows, also where a rounding comes between. -/
theorem extreme_groups {β ρ κ : Type} [LinearOrder κ] {label : ρ → κ} {rows : List ρ} {le : α → α → Prop} {ext : List α → Option α}
    {le' : β → β → Prop} {ext' : List β → Option β} (hext : Extreme le ext) (hext' : Extreme le' ext') (f : ρ → α) (round : α → β)
    (hround : ∀ a b, le a b → le' (round a) (round b)) (column : List α → β)
    (hcolumn : ∀ xs m, ext xs = some m → column xs = round m) (hne : rows ≠ []) :
    ext' ((groups label rows).map fun g => column (g.2.map f)) = some (column (rows.map f)) := by
  obtain ⟨m, hm⟩ := hext.some (rows.map f) fun h => hne (List.map_eq_nil_iff.mp h)
  obtain ⟨hmem, hle⟩ := (hext.spec _ _).mp hm
  obtain ⟨r, hr, hrm⟩ := List.mem_map.mp hmem
  have hgroup : ∀ g ∈ groups label rows, ∃ m', ext (g.2.map f) = some m' ∧ le m' m := by
    intro g hg
    obtain ⟨m', hm'⟩ := hext.some (g.2.map f) fun h => group_ne_nil hg (List.map_eq_nil_iff.mp h)
    obtain ⟨r', hr', rfl⟩ := List.mem_map.mp ((hext.spec _ _).mp hm').1
    exact ⟨f r', hm', hle _ (List.mem_map_of_mem ((mem_group_iff hg).mp hr').1)⟩
  rw [hcolumn _ m hm, hext'.spec]
  constructor
  · -- the group of the row that has the extreme
    obtain ⟨m', hm', hle'⟩ := hgroup _ (group_of_mem hr)
    have hin : f r ∈ ((rows.filter fun r' => label r' = label r).map f) :=
      List.mem_map_of_mem ((mem_group_iff (group_of_mem hr)).mpr ⟨hr, rfl⟩)
    have hge : le (f r) m' := ((hext.spec _ _).mp hm').2 _ hin
    rw [hrm] at hge
    refine List.mem_map.mpr ⟨_, group_of_mem hr, ?_⟩
    rw [hcolumn _ m' hm', hext.antisymm m' m hle' hge]
  · intro y hy
    obtain ⟨g, hg, rfl⟩ := List.mem_map.mp hy
    obtain ⟨m', hm', hle'⟩ := hgroup g hg
    rw [hcolumn _ m' hm']
    exact hround _ _ hle'

end Extremes

/-! ## The mean, and rounding -/

def avg (xs : List ℚ) : Option ℚ := if xs = [] then none else some (xs.sum / xs.length)

/-- `ROUND(q, places)`, a half away from zero. -/
def roundTo (places : Nat) (q : ℚ) : ℚ :=
  if 0 ≤ q then ⌊q * 10 ^ places + 1 / 2⌋ / 10 ^ places else -(⌊-q * 10 ^ places + 1 / 2⌋ / 10 ^ places)

section Mean

variable {xs : List ℚ} {a : ℚ} {places : Nat}

theorem avg_eq (h : xs ≠ []) : avg xs = some (xs.sum / xs.length) := if_neg h

theorem length_pos_rat (h : xs ≠ []) : (0 : ℚ) < xs.length := by
  exact_mod_cast List.length_pos_iff.mpr h

theorem le_mean (hne : xs ≠ []) (h : ∀ x ∈ xs, a ≤ x) : a ≤ xs.sum / xs.length := by
  rw [le_div_iff₀ (length_pos_rat hne), mul_comm, ← nsmul_eq_mul]
  exact List.card_nsmul_le_sum xs a h

theorem mean_le (hne : xs ≠ []) (h : ∀ x ∈ xs, x ≤ a) : xs.sum / xs.length ≤ a := by
  rw [div_le_iff₀ (length_pos_rat hne), mul_comm, ← nsmul_eq_mul]
  exact List.sum_le_card_nsmul xs a h

theorem roundTo_mono : Monotone (roundTo places) := by
  intro q q' hle
  have hpow : (0 : ℚ) < 10 ^ places := by positivity
  have hfloor : ∀ {x y : ℚ}, x ≤ y → (⌊x * 10 ^ places + 1 / 2⌋ : ℚ) / 10 ^ places ≤ ⌊y * 10 ^ places + 1 / 2⌋ / 10 ^ places := by
    intro x y hxy
    have hmul : x * 10 ^ places + 1 / 2 ≤ y * 10 ^ places + 1 / 2 := by
      have hscaled := mul_le_mul_of_nonneg_right hxy hpow.le
      linarith
    exact div_le_div_of_nonneg_right (by exact_mod_cast Int.floor_le_floor hmul) hpow.le
  have hnonneg : ∀ {x : ℚ}, 0 ≤ x → (0 : ℚ) ≤ ⌊x * 10 ^ places + 1 / 2⌋ / 10 ^ places := by
    intro x hx
    have hscaled : 0 ≤ x * 10 ^ places := mul_nonneg hx hpow.le
    have hint : (0 : Int) ≤ ⌊x * 10 ^ places + 1 / 2⌋ := Int.floor_nonneg.mpr (by linarith)
    exact div_nonneg (by exact_mod_cast hint) hpow.le
  unfold roundTo
  split <;> split
  · exact hfloor hle
  · rename_i hq hq'
    exact absurd (hq.trans hle) hq'
  · rename_i hq hq'
    have hneg := hnonneg (x := -q) (by linarith [not_le.mp hq])
    have hpos := hnonneg hq'
    linarith
  · exact neg_le_neg (hfloor (neg_le_neg hle))

theorem roundTo_intCast (places : Nat) (n : Int) : roundTo places n = n := by
  have hpow : (10 : ℚ) ^ places ≠ 0 := by positivity
  have hfloor : ∀ m : Int, ⌊(m : ℚ) * 10 ^ places + 1 / 2⌋ = m * 10 ^ places := by
    intro m
    have hcast : (m : ℚ) * 10 ^ places = ((m * 10 ^ places : Int) : ℚ) := by push_cast; rfl
    rw [hcast, Int.floor_intCast_add]
    norm_num
  unfold roundTo
  split
  · rw [hfloor]
    push_cast
    exact mul_div_cancel_right₀ _ hpow
  · have hneg : -(n : ℚ) = ((-n : Int) : ℚ) := by push_cast; rfl
    rw [hneg, hfloor]
    push_cast
    rw [neg_mul, neg_div, neg_neg]
    exact mul_div_cancel_right₀ _ hpow

end Mean

end Lib

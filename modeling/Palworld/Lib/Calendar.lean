import Palworld.Lib.Text
import Mathlib.Data.List.Lex
import Mathlib.Data.Char
import Mathlib.Order.Monotone.Basic
import Mathlib.Algebra.Ring.Nat
import Mathlib.Tactic.Common

/-!
# Dates and their texts

A point of time is the number of microseconds since the first of January of the year 1. Its fields
have a fixed width each, the largest unit first, so that texts compare as the points do.
-/

namespace Lib

/-! ## Numbers of a fixed width -/

/-- The last `w` decimal digits. -/
def padded : Nat → Nat → Text
  | 0, _ => []
  | w + 1, n => padded w (n / 10) ++ [Nat.digitChar (n % 10)]

section

variable {a a' b b' : Text} {w n m : Nat}

theorem length_padded : (padded w n).length = w := by
  induction w generalizing n with
  | zero => rfl
  | succ w ih => rw [padded, List.length_append, ih, List.length_singleton]

/-- The first field that differs decides. -/
theorem append_lt_append (hlen : a.length = a'.length) (h : a < a') : a ++ b < a' ++ b' := by
  induction a generalizing a' with
  | nil =>
    obtain rfl := List.eq_nil_of_length_eq_zero hlen.symm
    exact absurd h (List.lt_irrefl [])
  | cons c a ih =>
    cases a' with
    | nil => cases hlen
    | cons c' a' =>
      rw [List.cons_append, List.cons_append, List.cons_lt_cons_iff]
      rcases List.cons_lt_cons_iff.mp h with hc | ⟨rfl, ha⟩
      · exact Or.inl hc
      · exact Or.inr ⟨rfl, ih (Nat.succ.inj hlen) ha⟩

theorem digitChar_lt {i j : Nat} (h : i < j) (hj : j < 10) : Nat.digitChar i < Nat.digitChar j := by
  have hall : ∀ j < 10, ∀ i < j, Nat.digitChar i < Nat.digitChar j := by decide
  exact hall j hj i h

theorem padded_lt (h : n < m) (hm : m < 10 ^ w) : padded w n < padded w m := by
  induction w generalizing n m with
  | zero => omega
  | succ w ih =>
    have hlen : (padded w (n / 10)).length = (padded w (m / 10)).length := by rw [length_padded, length_padded]
    rw [padded, padded]
    rcases Nat.lt_or_ge (n / 10) (m / 10) with hlt | hge
    · rw [Nat.pow_succ] at hm
      exact append_lt_append hlen (ih hlt (by omega))
    · have heq : n / 10 = m / 10 := by omega
      rw [heq]
      refine List.append_left_lt (List.cons_lt_cons_iff.mpr (Or.inl (digitChar_lt ?_ ?_))) <;> omega

end

/-! ## The calendar -/

def isLeap (year : Nat) : Bool := year % 4 == 0 && (year % 100 != 0 || year % 400 == 0)

def daysBeforeYear (year : Nat) : Nat :=
  let y := year - 1
  y * 365 + y / 4 - y / 100 + y / 400

def daysInMonth (leap : Bool) (month : Nat) : Nat :=
  [0, 31, 28, 31, 30, 31, 30, 31, 31, 30, 31, 30, 31].getD month 0 + (if month = 2 ∧ leap = true then 1 else 0)

def daysBeforeMonth (leap : Bool) (month : Nat) : Nat :=
  [0, 0, 31, 59, 90, 120, 151, 181, 212, 243, 273, 304, 334].getD month 0 + (if 2 < month ∧ leap = true then 1 else 0)

/-- The month and the day of day `n` of a year, counted from 0. The first guess of the month may be one too late. -/
def monthDay (leap : Bool) (n : Nat) : Nat × Nat :=
  let month := (n + 50) >>> 5
  let preceding := daysBeforeMonth leap month
  if n < preceding then (month - 1, n - (preceding - daysInMonth leap (month - 1)) + 1)
  else (month, n - preceding + 1)

/-- The year, the month and the day of the proleptic Gregorian ordinal `ordinal`. Day 1 is the first of January of the year 1. -/
def ord2ymd (ordinal : Nat) : Nat × Nat × Nat :=
  let n := ordinal - 1
  let n400 := n / 146097
  let n := n % 146097
  let n100 := n / 36524
  let n := n % 36524
  let n4 := n / 1461
  let n := n % 1461
  let n1 := n / 365
  let n := n % 365
  let year := n400 * 400 + 1 + n100 * 100 + n4 * 4 + n1
  if n1 = 4 ∨ n100 = 4 then (year - 1, 12, 31)
  else (year, monthDay (n1 == 3 && (n4 != 24 || n100 == 3)) n)

/-- The ordinal of the last day of the year 9999. -/
def maxOrdinal : Nat := 3652059

section

variable {year n m : Nat} {leap : Bool}

/-- A leap day in every fourth year, none in the hundredth, one in the four-hundredth. -/
theorem toNat_isLeap (year : Nat) : (isLeap year).toNat + (if year % 100 = 0 then 1 else 0) =
    (if year % 4 = 0 then 1 else 0) + if year % 400 = 0 then 1 else 0 := by
  have hiff : isLeap year = true ↔ year % 4 = 0 ∧ (year % 100 ≠ 0 ∨ year % 400 = 0) := by
    unfold isLeap
    simp only [Bool.and_eq_true, Bool.or_eq_true, beq_iff_eq, bne_iff_ne]
  cases hleap : isLeap year with
  | false =>
    have hnot : ¬ (year % 4 = 0 ∧ (year % 100 ≠ 0 ∨ year % 400 = 0)) := fun h => Bool.false_ne_true (hleap.symm.trans (hiff.mpr h))
    rw [Bool.toNat_false]
    split <;> split <;> split <;> omega
  | true =>
    have hyes := hiff.mp hleap
    rw [Bool.toNat_true]
    split <;> split <;> split <;> omega

theorem daysBeforeYear_succ (year : Nat) (h : 1 ≤ year) : daysBeforeYear (year + 1) = daysBeforeYear year + 365 + (isLeap year).toNat := by
  have h4 : year / 4 = (year - 1) / 4 + if year % 4 = 0 then 1 else 0 := by split <;> omega
  have h100 : year / 100 = (year - 1) / 100 + if year % 100 = 0 then 1 else 0 := by split <;> omega
  have h400 : year / 400 = (year - 1) / 400 + if year % 400 = 0 then 1 else 0 := by split <;> omega
  have hle : (year - 1) / 100 ≤ (year - 1) * 365 := by omega
  have hday : year * 365 = (year - 1) * 365 + 365 := by omega
  have hleap := toNat_isLeap year
  unfold daysBeforeYear
  dsimp only
  rw [Nat.add_sub_cancel, h4, h100, h400, hday]
  omega

theorem daysBeforeYear_mono : Monotone daysBeforeYear := by
  apply monotone_nat_of_le_succ
  intro year
  cases year with
  | zero => decide
  | succ year =>
    have hsucc := daysBeforeYear_succ (year + 1) (Nat.succ_pos year)
    omega

/-- The years, from the numbers of whole cycles. -/
theorem daysBeforeYear_cycles (n400 n100 n4 n1 : Nat) (h100 : n100 ≤ 3) (h4 : n4 ≤ 24) (h1 : n1 ≤ 3) :
    daysBeforeYear (n400 * 400 + 1 + n100 * 100 + n4 * 4 + n1) = 146097 * n400 + 36524 * n100 + 1461 * n4 + 365 * n1 := by
  have hy : n400 * 400 + 1 + n100 * 100 + n4 * 4 + n1 - 1 = 400 * n400 + 100 * n100 + 4 * n4 + n1 := by omega
  have hdiv4 : (400 * n400 + 100 * n100 + 4 * n4 + n1) / 4 = 100 * n400 + 25 * n100 + n4 := by omega
  have hdiv100 : (400 * n400 + 100 * n100 + 4 * n4 + n1) / 100 = 4 * n400 + n100 := by omega
  have hdiv400 : (400 * n400 + 100 * n100 + 4 * n4 + n1) / 400 = n400 := by omega
  unfold daysBeforeYear
  dsimp only
  rw [hy, hdiv4, hdiv100, hdiv400]
  omega

theorem isLeap_cycles (n400 n100 n4 n1 : Nat) (h100 : n100 ≤ 3) (h4 : n4 ≤ 24) (h1 : n1 ≤ 3) :
    isLeap (n400 * 400 + 1 + n100 * 100 + n4 * 4 + n1) = (n1 == 3 && (n4 != 24 || n100 == 3)) := by
  rw [Bool.eq_iff_iff]
  unfold isLeap
  simp only [Bool.and_eq_true, Bool.or_eq_true, beq_iff_eq, bne_iff_ne]
  omega

/-- A day stands in its year. -/
theorem ord2ymd_spec (n : Nat) : ∃ year doy, ord2ymd (n + 1) = (year, monthDay (isLeap year) doy) ∧ 1 ≤ year ∧
    n = daysBeforeYear year + doy ∧ doy < 365 + (isLeap year).toNat := by
  have hn := Nat.div_add_mod n 146097
  have hr400 := Nat.mod_lt n (show 0 < 146097 by decide)
  have hr100 := Nat.div_add_mod (n % 146097) 36524
  have hr4 := Nat.div_add_mod (n % 146097 % 36524) 1461
  have hr1 := Nat.div_add_mod (n % 146097 % 36524 % 1461) 365
  have hlt100 := Nat.mod_lt (n % 146097) (show 0 < 36524 by decide)
  have hlt4 := Nat.mod_lt (n % 146097 % 36524) (show 0 < 1461 by decide)
  have hlt1 := Nat.mod_lt (n % 146097 % 36524 % 1461) (show 0 < 365 by decide)
  unfold ord2ymd
  dsimp only
  rw [Nat.add_sub_cancel]
  generalize n % 146097 % 36524 % 1461 % 365 = r1 at hr1 hlt1 ⊢
  generalize n % 146097 % 36524 % 1461 / 365 = n1 at hr1 ⊢
  generalize n % 146097 % 36524 % 1461 = r4 at hr1 hr4 hlt4
  generalize n % 146097 % 36524 / 1461 = n4 at hr4 ⊢
  generalize n % 146097 % 36524 = r100 at hr4 hr100 hlt100
  generalize n % 146097 / 36524 = n100 at hr100 ⊢
  generalize n % 146097 = r400 at hn hr100 hr400
  generalize n / 146097 = n400 at hn ⊢
  by_cases hcentury : n100 = 4
  · -- the last day of 400 years
    obtain ⟨rfl, rfl, rfl⟩ : r100 = 0 ∧ n4 = 0 ∧ r4 = 0 := by omega
    obtain ⟨rfl, rfl⟩ : n1 = 0 ∧ r1 = 0 := by omega
    have hyear : n400 * 400 + 1 + n100 * 100 + 0 * 4 + 0 - 1 = n400 * 400 + 1 + 3 * 100 + 24 * 4 + 3 := by omega
    have hleap := isLeap_cycles n400 3 24 3 (by decide) (by decide) (by decide)
    have hdays := daysBeforeYear_cycles n400 3 24 3 (by decide) (by decide) (by decide)
    rw [if_pos (Or.inr hcentury), hyear]
    refine ⟨_, 365, by rw [hleap]; rfl, by omega, by rw [hdays]; omega, by rw [hleap]; decide⟩
  · by_cases hfourth : n1 = 4
    · -- the last day of four years
      have hyear : n400 * 400 + 1 + n100 * 100 + n4 * 4 + n1 - 1 = n400 * 400 + 1 + n100 * 100 + n4 * 4 + 3 := by omega
      have h4 : n4 ≤ 24 := by omega
      have hfull : n4 ≠ 24 ∨ n100 = 3 := by omega
      have hleap := isLeap_cycles n400 n100 n4 3 (by omega) h4 (by decide)
      have htrue : (3 == 3 && (n4 != 24 || n100 == 3)) = true := by
        simp only [Bool.and_eq_true, Bool.or_eq_true, beq_iff_eq, bne_iff_ne]
        exact ⟨trivial, hfull⟩
      have hdays := daysBeforeYear_cycles n400 n100 n4 3 (by omega) h4 (by decide)
      rw [htrue] at hleap
      rw [if_pos (Or.inl hfourth), hyear]
      refine ⟨_, 365, by rw [hleap]; rfl, by omega, by rw [hdays]; omega, by rw [hleap]; decide⟩
    · have h100 : n100 ≤ 3 := by omega
      have h4 : n4 ≤ 24 := by omega
      have h1 : n1 ≤ 3 := by omega
      rw [if_neg (not_or.mpr ⟨hfourth, hcentury⟩), ← isLeap_cycles n400 n100 n4 n1 h100 h4 h1]
      exact ⟨_, r1, rfl, by omega, by rw [daysBeforeYear_cycles n400 n100 n4 n1 h100 h4 h1]; omega, by omega⟩

/-! ## The text of a day -/

def monthDayText (leap : Bool) (doy : Nat) : Text :=
  padded 2 (monthDay leap doy).1 ++ '-' :: padded 2 (monthDay leap doy).2

/-- From a day to the next, the month or the day of the month grows. -/
theorem monthDay_step : ∀ leap : Bool, ∀ doy < 365, (monthDay leap (doy + 1)).1 < 100 ∧ (monthDay leap (doy + 1)).2 < 100 ∧
    ((monthDay leap doy).1 < (monthDay leap (doy + 1)).1 ∨
      (monthDay leap doy).1 = (monthDay leap (doy + 1)).1 ∧ (monthDay leap doy).2 < (monthDay leap (doy + 1)).2) := by
  decide +kernel

theorem monthDayText_step (leap : Bool) {doy : Nat} (hdoy : doy < 365) : monthDayText leap doy < monthDayText leap (doy + 1) := by
  obtain ⟨hmonth, hday, hlt | ⟨heq, hlt⟩⟩ := monthDay_step leap doy hdoy
  · exact append_lt_append (by rw [length_padded, length_padded]) (padded_lt hlt hmonth)
  · unfold monthDayText
    rw [heq]
    exact List.append_left_lt (List.cons_lt_cons_iff.mpr (Or.inr ⟨rfl, padded_lt hlt hday⟩))

theorem monthDayText_lt (h : n < m) (hm : m < 366) : monthDayText leap n < monthDayText leap m := by
  induction m with
  | zero => cases h
  | succ m ih =>
    have hstep := monthDayText_step leap (show m < 365 by omega)
    rcases Nat.lt_succ_iff_lt_or_eq.mp h with hlt | rfl
    · exact List.lt_trans (ih hlt (by omega)) hstep
    · exact hstep

/-- `YYYY-MM-DD` of the day with `n` days before it. -/
def dateText (n : Nat) : Text :=
  let ymd := ord2ymd (n + 1)
  padded 4 ymd.1 ++ '-' :: (padded 2 ymd.2.1 ++ '-' :: padded 2 ymd.2.2)

theorem dateText_lt (h : n < m) (hm : m < maxOrdinal) : dateText n < dateText m := by
  obtain ⟨year, doy, hymd, hpos, hn, hdoy⟩ := ord2ymd_spec n
  obtain ⟨year', doy', hymd', hpos', hm', hdoy'⟩ := ord2ymd_spec m
  have hsucc := daysBeforeYear_succ year' hpos'
  have hyear : year ≤ year' := by
    by_contra hlt
    have hmono : daysBeforeYear (year' + 1) ≤ daysBeforeYear year := daysBeforeYear_mono (by omega)
    omega
  have hfour : year' < 10 ^ 4 := by
    by_contra hge
    have hmono : daysBeforeYear 10000 ≤ daysBeforeYear year' := daysBeforeYear_mono (by omega)
    have hend : daysBeforeYear 10000 = maxOrdinal := by decide
    omega
  unfold dateText
  rw [hymd, hymd']
  dsimp only
  rcases Nat.lt_or_eq_of_le hyear with hlt | rfl
  · exact append_lt_append (by rw [length_padded, length_padded]) (padded_lt hlt hfour)
  · refine List.append_left_lt (List.cons_lt_cons_iff.mpr (Or.inr ⟨rfl, ?_⟩))
    refine monthDayText_lt (by omega) ?_
    have hle : (isLeap year).toNat ≤ 1 := Bool.toNat_le _
    omega

end

end Lib

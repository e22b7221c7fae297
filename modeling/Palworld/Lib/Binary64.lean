import Mathlib.Data.Int.Log
import Mathlib.Data.Rat.Floor
import Mathlib.Algebra.Order.Field.Power
import Mathlib.Tactic.Linarith

/-!
# Binary64 numbers

A finite number is a sign and `significand * 2 ^ exponent`. Rounding is to the
nearest, ties to even.
-/

namespace Lib

/-- The magnitude of a finite number, in the one form that its encoding has. -/
structure Magnitude where
  significand : Nat
  exponent : Int
  significand_lt : significand < 2 ^ 53
  exponent_le : exponent ≤ 971
  normal : 2 ^ 52 ≤ significand ∧ -1074 < exponent ∨ exponent = -1074
  deriving DecidableEq

inductive Binary64 where
  | finite (neg : Bool) (mag : Magnitude)
  | infinite (neg : Bool)
  | nan
  deriving DecidableEq

/-- The natural number nearest to a nonnegative rational, ties to even. -/
def roundHalfEven (r : ℚ) : Nat :=
  let n := ⌊r⌋₊
  if r - n < 1 / 2 then n
  else if 1 / 2 < r - n then n + 1
  else if n % 2 = 0 then n else n + 1

theorem floor_le_roundHalfEven (r : ℚ) : ⌊r⌋₊ ≤ roundHalfEven r := by
  unfold roundHalfEven
  dsimp only
  split_ifs <;> omega

namespace Binary64

def zero : Magnitude := ⟨0, -1074, by decide, by decide, .inr rfl⟩

def exponentOf (r : ℚ) : Int := max (Int.log 2 r) (-1022) - 52

theorem le_scaled {r : ℚ} (hr : 0 < r) (hnormal : -1022 < Int.log 2 r) : 2 ^ 52 ≤ r / 2 ^ exponentOf r := by
  have hpos : (0 : ℚ) < 2 ^ exponentOf r := zpow_pos (by norm_num) _
  rw [le_div_iff₀ hpos]
  have hlog : (2 : ℚ) ^ Int.log 2 r ≤ r := Int.zpow_log_le_self (by norm_num) hr
  have heq : (2 : ℚ) ^ Int.log 2 r = 2 ^ ((52 : Int) + exponentOf r) := by
    congr 1
    unfold exponentOf
    omega
  rw [heq, zpow_add₀ (by norm_num)] at hlog
  exact hlog

theorem le_round_scaled {r : ℚ} (hr : 0 < r) :
    2 ^ 52 ≤ roundHalfEven (r / 2 ^ exponentOf r) ∧ -1074 < exponentOf r ∨ exponentOf r = -1074 := by
  by_cases hnormal : -1022 < Int.log 2 r
  · refine .inl ⟨?_, ?_⟩
    · have hfloor : 2 ^ 52 ≤ ⌊r / 2 ^ exponentOf r⌋₊ := by
        apply Nat.le_floor
        exact_mod_cast le_scaled hr hnormal
      exact hfloor.trans (floor_le_roundHalfEven _)
    · unfold exponentOf
      omega
  · right
    unfold exponentOf
    omega

/-- The magnitude nearest to a nonnegative rational. `none` when it overflows. -/
def roundMagnitude (r : ℚ) : Option Magnitude :=
  if hr : 0 < r then
    let m := roundHalfEven (r / 2 ^ exponentOf r)
    if hm : m < 2 ^ 53 then
      if he : exponentOf r ≤ 971 then some ⟨m, exponentOf r, hm, he, le_round_scaled hr⟩ else none
    else
      if he : exponentOf r + 1 ≤ 971 then
        some ⟨2 ^ 52, exponentOf r + 1, by norm_num, he, .inl ⟨le_refl _, by unfold exponentOf; omega⟩⟩
      else none
  else some zero

def round (neg : Bool) (r : ℚ) : Binary64 :=
  match roundMagnitude r with
  | some mag => .finite neg mag
  | none => .infinite neg

end Binary64

def Magnitude.toRat (mag : Magnitude) : ℚ := mag.significand * 2 ^ mag.exponent

end Lib

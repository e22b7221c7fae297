import Palworld.Lib.Decimal
import Mathlib.Tactic.Linarith
import Mathlib.Tactic.NormNum
import Mathlib.Tactic.Positivity
import Mathlib.Tactic.Ring
import Mathlib.Tactic.FieldSimp

/-!
# Six places of a binary64 number

The format `.6f` prints the nearest millionth. A number that was read from at most six
places is read again from what is printed of it: below `2 ^ 33` the nearest millionth is
the one it was read from, and above, the numbers lie further apart than the millionths.
-/

namespace Lib

/-! ## To the nearest integer -/

theorem roundHalfEven_near {r : ℚ} (hr : 0 ≤ r) : |(roundHalfEven r : ℚ) - r| ≤ 1 / 2 := by
  have hfloor : (⌊r⌋₊ : ℚ) ≤ r := Nat.floor_le hr
  have hlt : r < ⌊r⌋₊ + 1 := Nat.lt_floor_add_one r
  unfold roundHalfEven
  dsimp only
  rw [abs_le]
  split_ifs <;> push_cast <;> constructor <;> linarith

theorem roundHalfEven_eq {r : ℚ} {n : Nat} (hr : 0 ≤ r) (h : |r - n| < 1 / 2) : roundHalfEven r = n := by
  have hnear := roundHalfEven_near hr
  rw [abs_le] at hnear
  rw [abs_lt] at h
  have hlt : (roundHalfEven r : ℚ) < n + 1 := by linarith
  have hgt : (n : ℚ) < roundHalfEven r + 1 := by linarith
  norm_cast at hlt hgt
  omega

/-! ## To the nearest number -/

namespace Binary64

theorem exponentOf_eq {r : ℚ} {e : Int} (he : -1074 < e) (hlow : 2 ^ (52 + e) ≤ r) (hhigh : r < 2 ^ (53 + e)) :
    exponentOf r = e := by
  have hr : 0 < r := lt_of_lt_of_le (zpow_pos (by norm_num) _) hlow
  have hle : 52 + e ≤ Int.log 2 r := (Int.zpow_le_iff_le_log (by norm_num) hr).mp (by exact_mod_cast hlow)
  have hlt : Int.log 2 r < 53 + e := (Int.lt_zpow_iff_log_lt (by norm_num) hr).mp (by exact_mod_cast hhigh)
  unfold exponentOf
  omega

theorem scaled_lt {r : ℚ} : r / 2 ^ exponentOf r < 2 ^ 53 := by
  have hpos : (0 : ℚ) < 2 ^ exponentOf r := zpow_pos (by norm_num) _
  rw [div_lt_iff₀ hpos]
  have hlog : r < (2 : ℚ) ^ (Int.log 2 r + 1) := by exact_mod_cast Int.lt_zpow_succ_log_self (by norm_num) r
  have hle : Int.log 2 r + 1 ≤ 53 + exponentOf r := by
    unfold exponentOf
    omega
  calc r < 2 ^ (Int.log 2 r + 1) := hlog
    _ ≤ 2 ^ (53 + exponentOf r) := zpow_le_zpow_right₀ (by norm_num) hle
    _ = 2 ^ 53 * 2 ^ exponentOf r := by rw [zpow_add₀ (by norm_num)]; norm_num

/-- The significand is the nearest integer, and one that has too many digits is carried over. -/
theorem roundMagnitude_cases {mag : Magnitude} {r : ℚ} (hr : 0 < r) (h : roundMagnitude r = some mag) :
    (mag.significand = roundHalfEven (r / 2 ^ exponentOf r) ∧ mag.exponent = exponentOf r) ∨
      (mag.significand = 2 ^ 52 ∧ mag.exponent = exponentOf r + 1 ∧ 2 ^ 53 ≤ roundHalfEven (r / 2 ^ exponentOf r)) := by
  unfold roundMagnitude at h
  rw [dif_pos hr] at h
  simp only at h
  split at h
  · split at h
    · obtain rfl := Option.some.inj h
      exact Or.inl ⟨rfl, rfl⟩
    · cases h
  · rename_i hlarge
    split at h
    · obtain rfl := Option.some.inj h
      exact Or.inr ⟨rfl, rfl, not_lt.mp hlarge⟩
    · cases h

/-- A rational that lies between the neighbours of a magnitude rounds to it. -/
theorem roundMagnitude_of_near {mag : Magnitude} {r : ℚ} (hr : 0 < r) (hexponent : exponentOf r = mag.exponent)
    (hnear : |r / 2 ^ mag.exponent - mag.significand| < 1 / 2) : roundMagnitude r = some mag := by
  have hpow : (0 : ℚ) < 2 ^ mag.exponent := zpow_pos (by norm_num) _
  have hround : roundHalfEven (r / 2 ^ exponentOf r) = mag.significand := by
    rw [hexponent]
    exact roundHalfEven_eq (div_pos hr hpow).le hnear
  obtain ⟨significand, exponent, hlt, hle, hnormal⟩ := mag
  unfold roundMagnitude
  rw [dif_pos hr]
  simp only
  rw [dif_pos (hround ▸ hlt), dif_pos (hexponent ▸ hle), Option.some.injEq, Magnitude.mk.injEq]
  exact ⟨hround, hexponent⟩

/-- What a rational rounds to is at most half of the last place away. -/
theorem roundMagnitude_near {mag : Magnitude} {r : ℚ} (hr : 0 ≤ r) (h : roundMagnitude r = some mag) :
    |mag.toRat - r| ≤ 2 ^ mag.exponent / 2 := by
  have hpow : (0 : ℚ) < 2 ^ exponentOf r := zpow_pos (by norm_num) _
  rcases hr.eq_or_lt with rfl | hpos
  · have hzero : roundMagnitude 0 = some zero := dif_neg (lt_irrefl 0)
    obtain rfl := Option.some.inj (hzero.symm.trans h)
    have hsmall : (0 : ℚ) ≤ 2 ^ zero.exponent / 2 := by positivity
    simpa [Magnitude.toRat, zero] using hsmall
  · have hnear := roundHalfEven_near (div_pos hpos hpow).le
    have hscaled : |(roundHalfEven (r / 2 ^ exponentOf r) : ℚ) * 2 ^ exponentOf r - r| ≤ 2 ^ exponentOf r / 2 := by
      have hfactor : (roundHalfEven (r / 2 ^ exponentOf r) : ℚ) * 2 ^ exponentOf r - r
          = (roundHalfEven (r / 2 ^ exponentOf r) - r / 2 ^ exponentOf r) * 2 ^ exponentOf r := by
        rw [sub_mul, div_mul_cancel₀ _ hpow.ne']
      rw [hfactor, abs_mul, abs_of_pos hpow]
      linarith [mul_le_mul_of_nonneg_right hnear hpow.le]
    rcases roundMagnitude_cases hpos h with ⟨hsignificand, hexponent⟩ | ⟨hsignificand, hexponent, hlarge⟩
    · rwa [Magnitude.toRat, hsignificand, hexponent]
    · -- the carried significand has the value of the rounded one
      have hle : roundHalfEven (r / 2 ^ exponentOf r) ≤ 2 ^ 53 := by
        have hlt := scaled_lt (r := r)
        rw [abs_le] at hnear
        have hlt' : (roundHalfEven (r / 2 ^ exponentOf r) : ℚ) < 2 ^ 53 + 1 := by linarith
        norm_cast at hlt'
        omega
      have heq := le_antisymm hle hlarge
      have hvalue : mag.toRat = (roundHalfEven (r / 2 ^ exponentOf r) : ℚ) * 2 ^ exponentOf r := by
        rw [Magnitude.toRat, hsignificand, hexponent, heq, zpow_add₀ (by norm_num)]
        push_cast
        ring
      rw [hvalue, hexponent, zpow_add₀ (by norm_num)]
      linarith

theorem toRat_nonneg (mag : Magnitude) : 0 ≤ mag.toRat := by
  unfold Magnitude.toRat
  positivity

/-- Below the size where the last place is a millionth, the printed millionths are those that were read. -/
theorem printed_small {mag : Magnitude} {n : Nat} (h : roundMagnitude ((n : ℚ) / 10 ^ 6) = some mag)
    (hsmall : mag.exponent ≤ -20) : roundHalfEven (mag.toRat * 10 ^ 6) = n := by
  have hnear := roundMagnitude_near (by positivity) h
  have hplace : (2 : ℚ) ^ mag.exponent ≤ 2 ^ (-20 : Int) := zpow_le_zpow_right₀ (by norm_num) hsmall
  norm_num at hplace
  apply roundHalfEven_eq (mul_nonneg (toRat_nonneg mag) (by norm_num))
  rw [abs_le] at hnear
  rw [abs_lt]
  constructor <;> linarith

/-- A power of two from `2 ^ 33` on is a number of millionths. -/
theorem printed_power {mag : Magnitude} (hlarge : -20 < mag.exponent) (hpower : mag.significand = 2 ^ 52) :
    (roundHalfEven (mag.toRat * 10 ^ 6) : ℚ) = mag.toRat * 10 ^ 6 := by
  obtain ⟨k, hk⟩ : ∃ k : Nat, (k : Int) = 52 + mag.exponent := ⟨(52 + mag.exponent).toNat, by omega⟩
  have hvalue : mag.toRat * 10 ^ 6 = ((2 ^ k * 10 ^ 6 : Nat) : ℚ) := by
    have hpow : (2 : ℚ) ^ (52 : Int) * 2 ^ mag.exponent = 2 ^ k := by
      rw [← zpow_add₀ (by norm_num), ← hk, zpow_natCast]
    rw [Magnitude.toRat, hpower]
    push_cast
    rw [← hpow]
    norm_num
  rw [hvalue, roundHalfEven_natCast]

/-- Above it, the printed millionths lie nearer to the number than half of its last place. -/
theorem printed_large {mag : Magnitude} (hlarge : -20 < mag.exponent) :
    roundMagnitude ((roundHalfEven (mag.toRat * 10 ^ 6) : ℚ) / 10 ^ 6) = some mag := by
  have hpow : (0 : ℚ) < 2 ^ mag.exponent := zpow_pos (by norm_num) _
  have hplace : (2 : ℚ) ^ (-19 : Int) ≤ 2 ^ mag.exponent := zpow_le_zpow_right₀ (by norm_num) (by omega)
  norm_num at hplace
  have hround := roundHalfEven_near (r := mag.toRat * 10 ^ 6) (mul_nonneg (toRat_nonneg mag) (by norm_num))
  have hpower := printed_power hlarge
  generalize (roundHalfEven (mag.toRat * 10 ^ 6) : ℚ) = N at hround hpower ⊢
  have hnear : |N / 10 ^ 6 / 2 ^ mag.exponent - mag.significand| < 1 / 2 := by
    have hquotient : N / 10 ^ 6 / 2 ^ mag.exponent - mag.significand
        = (N - mag.toRat * 10 ^ 6) / (10 ^ 6 * 2 ^ mag.exponent) := by
      rw [Magnitude.toRat]
      field_simp
    have hden : (0 : ℚ) < 10 ^ 6 * 2 ^ mag.exponent := by positivity
    rw [hquotient, abs_div, abs_of_pos hden, div_lt_iff₀ hden]
    linarith
  have hscaled := abs_lt.mp hnear
  have hlow : 2 ^ 52 ≤ N / 10 ^ 6 / 2 ^ mag.exponent := by
    have hnormal : 2 ^ 52 ≤ mag.significand := by
      rcases mag.normal with ⟨hnormal, -⟩ | hsubnormal
      · exact hnormal
      · omega
    rcases hnormal.eq_or_lt with heq | hlt
    · -- the place before a power of two is half as wide, and there the number is printed exactly
      rw [hpower heq.symm, Magnitude.toRat, ← heq]
      apply le_of_eq
      field_simp
      norm_num
    · have hcast : (2 : ℚ) ^ 52 + 1 ≤ mag.significand := by exact_mod_cast hlt
      linarith
  have hhigh : N / 10 ^ 6 / 2 ^ mag.exponent < 2 ^ 53 := by
    have hle : mag.significand + 1 ≤ 2 ^ 53 := mag.significand_lt
    have hcast : (mag.significand : ℚ) + 1 ≤ 2 ^ 53 := by exact_mod_cast hle
    linarith
  rw [le_div_iff₀ hpow] at hlow
  rw [div_lt_iff₀ hpow] at hhigh
  have hpos : 0 < N / 10 ^ 6 := lt_of_lt_of_le (by positivity) hlow
  refine roundMagnitude_of_near hpos (exponentOf_eq (by omega) ?_ ?_) hnear
  · rwa [zpow_add₀ (by norm_num)]
  · rwa [zpow_add₀ (by norm_num)]

/-- **A number read from millionths is read again from the millionths it prints.** -/
theorem roundMagnitude_printed {mag : Magnitude} {n : Nat} (h : roundMagnitude ((n : ℚ) / 10 ^ 6) = some mag) :
    roundMagnitude ((roundHalfEven (mag.toRat * 10 ^ 6) : ℚ) / 10 ^ 6) = some mag := by
  by_cases hsmall : mag.exponent ≤ -20
  · rwa [printed_small h hsmall]
  · exact printed_large (not_le.mp hsmall)

end Binary64

/-- What the six places of a number are read as. -/
def roundSix : Binary64 → Option Binary64
  | .finite neg mag => some (Binary64.round neg ((roundHalfEven (mag.toRat * 10 ^ 6) : ℚ) / 10 ^ 6))
  | .infinite _ | .nan => none

/-- A finite number that was read from at most six places stays as it is. -/
theorem roundSix_of_millionths {neg : Bool} {n : Nat} {mag : Magnitude}
    (h : Binary64.round neg ((n : ℚ) / 10 ^ 6) = .finite neg mag) : roundSix (.finite neg mag) = some (.finite neg mag) := by
  have hmag : Binary64.roundMagnitude ((n : ℚ) / 10 ^ 6) = some mag := by
    unfold Binary64.round at h
    split at h
    · rename_i hround
      cases h
      exact hround
    · cases h
  rw [roundSix, Binary64.round, Binary64.roundMagnitude_printed hmag]

theorem read_format6f [Unicode] {x : Binary64} {y : Binary64} (h : roundSix x = some y) : pyFloat (format6f x) = some y := by
  cases x with
  | finite neg mag =>
    obtain rfl := Option.some.inj h
    rw [format6f_finite, pyFloat_eq, signedDecimal_decimalText]
    rfl
  | infinite neg => cases h
  | nan => cases h

end Lib

import Palworld.Lib.Calendar

/-!
# UTC timestamps

A timestamp leaves its microseconds out where they are zero. The sign of the offset then stands where
the point would stand, and it comes before the point.
-/

namespace Lib

/-- The microseconds of a day. -/
def dayMicros : Nat := 86400 * 10 ^ 6

/-- An aware `datetime` in UTC: the microseconds since the year 1 began, up to the end of the year 9999. -/
@[ext]
structure DateTime where
  micros : Nat
  valid : micros < maxOrdinal * dayMicros
  deriving DecidableEq

/-- `HH:MM:SS`. -/
def timeText (secs : Nat) : Text := padded 2 (secs / 3600) ++ ':' :: (padded 2 (secs / 60 % 60) ++ ':' :: padded 2 (secs % 60))

/-- `YYYY-MM-DDTHH:MM:SS`, from the seconds since the year 1 began. -/
def clock (secs : Nat) : Text := dateText (secs / 86400) ++ 'T' :: timeText (secs % 86400)

def fraction (micros : Nat) : Text := if micros = 0 then [] else '.' :: padded 6 micros

namespace DateTime

def seconds (t : DateTime) : Nat := t.micros / 10 ^ 6

/-- `t.isoformat()`. -/
def isoformat (t : DateTime) : Text := clock t.seconds ++ (fraction (t.micros % 10 ^ 6) ++ lit "+00:00")

/-- The whole seconds, with a `Z`. -/
def zulu (t : DateTime) : Text := clock t.seconds ++ ['Z']

/-- `t - delta`. `none` is the `OverflowError`. -/
def sub (t : DateTime) (delta : Int) : Option DateTime :=
  if h : 0 ≤ t.micros - delta ∧ t.micros - delta < (maxOrdinal * dayMicros : Nat) then some ⟨(t.micros - delta).toNat, by omega⟩ else none

/-- The last multiple of `step` microseconds up to `t`. -/
def floor (t : DateTime) (step : Nat) : DateTime := ⟨t.micros / step * step, (Nat.div_mul_le_self _ _).trans_lt t.valid⟩

end DateTime

section

variable {s s' n m : Nat} {t u : DateTime}

/-! ## The order -/

theorem timeText_lt (h : s < s') (hs' : s' < 86400) : timeText s < timeText s' := by
  have hlen : ∀ w i j : Nat, (padded w i).length = (padded w j).length := fun w i j => by rw [length_padded, length_padded]
  unfold timeText
  rcases Nat.lt_or_ge (s / 3600) (s' / 3600) with hhour | hhour
  · exact append_lt_append (hlen 2 _ _) (padded_lt hhour (by omega))
  · have heq : s / 3600 = s' / 3600 := by omega
    rw [heq]
    refine List.append_left_lt (List.cons_lt_cons_iff.mpr (Or.inr ⟨rfl, ?_⟩))
    rcases Nat.lt_or_ge (s / 60 % 60) (s' / 60 % 60) with hminute | hminute
    · exact append_lt_append (hlen 2 _ _) (padded_lt hminute (by omega))
    · have heq' : s / 60 % 60 = s' / 60 % 60 := by omega
      rw [heq']
      refine List.append_left_lt (List.cons_lt_cons_iff.mpr (Or.inr ⟨rfl, padded_lt ?_ ?_⟩)) <;> omega

theorem length_dateText : (dateText n).length = 10 := by
  unfold dateText
  simp only [List.length_append, List.length_cons, length_padded]

theorem length_timeText : (timeText s).length = 8 := by
  unfold timeText
  simp only [List.length_append, List.length_cons, length_padded]

theorem length_clock : (clock s).length = 19 := by
  unfold clock
  rw [List.length_append, List.length_cons, length_dateText, length_timeText]

theorem clock_lt (h : s < s') (hs' : s' < maxOrdinal * 86400) : clock s < clock s' := by
  unfold clock
  rcases Nat.lt_or_ge (s / 86400) (s' / 86400) with hday | hday
  · exact append_lt_append (by rw [length_dateText, length_dateText]) (dateText_lt hday (by omega))
  · have heq : s / 86400 = s' / 86400 := by omega
    rw [heq]
    refine List.append_left_lt (List.cons_lt_cons_iff.mpr (Or.inr ⟨rfl, timeText_lt ?_ ?_⟩)) <;> omega

/-- No fraction comes before every fraction, by the sign of the offset. -/
theorem fraction_lt (h : n < m) (hm : m < 10 ^ 6) : fraction n ++ lit "+00:00" < fraction m ++ lit "+00:00" := by
  have hm0 : m ≠ 0 := by omega
  have hoffset : lit "+00:00" = '+' :: lit "00:00" := by decide +kernel
  unfold fraction
  rw [if_neg hm0]
  split
  · rw [List.nil_append, List.cons_append, hoffset, List.cons_lt_cons_iff]
    exact Or.inl (by decide)
  · rw [List.cons_append, List.cons_append, List.cons_lt_cons_iff]
    exact Or.inr ⟨rfl, append_lt_append (by rw [length_padded, length_padded]) (padded_lt h hm)⟩

theorem DateTime.seconds_lt (t : DateTime) : t.seconds < maxOrdinal * 86400 := by
  have hvalid := t.valid
  unfold DateTime.seconds
  unfold dayMicros at hvalid
  omega

theorem DateTime.isoformat_lt (h : t.micros < u.micros) : t.isoformat < u.isoformat := by
  unfold DateTime.isoformat
  rcases Nat.lt_or_ge t.seconds u.seconds with hsec | hsec
  · exact append_lt_append (by rw [length_clock, length_clock]) (clock_lt hsec u.seconds_lt)
  · unfold DateTime.seconds at hsec ⊢
    have heq : t.micros / 10 ^ 6 = u.micros / 10 ^ 6 := by omega
    rw [heq]
    exact List.append_left_lt (fraction_lt (by omega) (by omega))

/-- Timestamps compare as the times do. -/
theorem DateTime.isoformat_lt_iff : t.isoformat < u.isoformat ↔ t.micros < u.micros := by
  constructor
  · intro h
    by_contra hge
    rcases Nat.lt_or_eq_of_le (Nat.not_lt.mp hge) with hlt | heq
    · exact List.lt_asymm h (DateTime.isoformat_lt hlt)
    · have hsame : t = u := DateTime.ext heq.symm
      rw [hsame] at h
      exact List.lt_irrefl _ h
  · exact DateTime.isoformat_lt

theorem DateTime.isoformat_le_iff : t.isoformat ≤ u.isoformat ↔ t.micros ≤ u.micros := by
  rw [← not_lt, DateTime.isoformat_lt_iff, Nat.not_lt]

/-- What is written behind whole seconds keeps their order. -/
theorem DateTime.zulu_lt (h : t.seconds < u.seconds) : t.zulu < u.zulu :=
  append_lt_append (by rw [length_clock, length_clock]) (clock_lt h u.seconds_lt)

end

end Lib

import Palworld.Lib.Binary64

/-!
# Network throughput

`NetworkThroughputTracker` of `net_diagnostics.py`. It keeps the last two counters as its
baseline, and takes a receive counter of zero for no baseline at all.
-/

open Lib

namespace Palworld.Network

/-! ## The tracker -/

/-- The attributes of a psutil counter object, which may be missing. -/
structure NetCounters where
  bytesRecv : Option Int
  bytesSent : Option Int

structure NetworkThroughputTracker where
  lastNetBytesRecv : Int
  lastNetBytesSent : Int
  lastNetTime : Float
  cachedRxKbps : Float
  cachedTxKbps : Float

def NetworkThroughputTracker.new : NetworkThroughputTracker := ⟨0, 0, 0.0, 0.0, 0.0⟩

inductive TrafficStatus
  | saturated | elevated | healthy
  deriving DecidableEq

structure Rates where
  rxRateKbps : Float
  txRateKbps : Float
  rxRateMbps : Float
  txRateMbps : Float
  status : TrafficStatus

/-- What one call is given: the counters, and the time that `time.time()` returns. -/
structure Sample where
  now : Float
  netCounters : NetCounters

/-- `getattr(net_counters, "bytes_recv", 0)`. -/
def Sample.bytesRecv (x : Sample) : Int := x.netCounters.bytesRecv.getD 0

def Sample.bytesSent (x : Sample) : Int := x.netCounters.bytesSent.getD 0

/-- Python's `round(x, places)`: the nearest decimal, ties to even, read back as a double. -/
def roundPlaces (x : Float) (places : Nat) : Float :=
  match x.toModel.unpack with
  | .finite sign mantissa exponent _ =>
    let decimal := Float.ofScientific (roundHalfEven (mantissa * (2 : ℚ) ^ exponent * 10 ^ places)) true places
    match sign with
    | .negative => -decimal
    | .positive => decimal
  | _ => x

/-- An int as a float operand. `none` is the `OverflowError`. -/
def toFloat (n : Int) : Option Float :=
  let x := Float.ofInt n
  if x.isInf then none else some x

/-- `round(delta / (1024 * dt), 2)`. -/
def kbps (delta : Int) (dt : Float) : Option Float := (toFloat delta).map fun x => roundPlaces (x / (1024 * dt)) 2

def mbps (rateKbps : Float) : Float := roundPlaces (rateKbps * 8 / 1000) 3

/-- The rates that a call returns, from those it has cached. -/
def NetworkThroughputTracker.rates (t : NetworkThroughputTracker) : Rates where
  rxRateKbps := t.cachedRxKbps
  txRateKbps := t.cachedTxKbps
  rxRateMbps := mbps t.cachedRxKbps
  txRateMbps := mbps t.cachedTxKbps
  status :=
    let combinedMbps := mbps t.cachedRxKbps + mbps t.cachedTxKbps
    if combinedMbps ≥ 50.0 then .saturated else if combinedMbps ≥ 15.0 then .elevated else .healthy

/-- `calculate_rates`: the tracker after it, and the rates. They are missing when it raised. -/
def calculateRates (t : NetworkThroughputTracker) (x : Sample) : NetworkThroughputTracker × Option Rates :=
  let dt := x.now - t.lastNetTime
  if dt ≥ 0.8 ∧ t.lastNetBytesRecv > 0 then
    let rxDelta := max 0 (x.bytesRecv - t.lastNetBytesRecv)
    let txDelta := max 0 (x.bytesSent - t.lastNetBytesSent)
    match kbps rxDelta dt, kbps txDelta dt with
    | some rx, some tx =>
      let t' := { t with
        cachedRxKbps := rx, cachedTxKbps := tx, lastNetBytesRecv := x.bytesRecv, lastNetBytesSent := x.bytesSent,
        lastNetTime := x.now }
      (t', some t'.rates)
    -- The rate that was computed first is kept, and the baseline is not.
    | some rx, none => ({ t with cachedRxKbps := rx }, none)
    | none, _ => (t, none)
  else if t.lastNetBytesRecv = 0 then
    let t' := { t with lastNetBytesRecv := x.bytesRecv, lastNetBytesSent := x.bytesSent, lastNetTime := x.now }
    (t', some t'.rates)
  else (t, some t.rates)

/-! ## The deltas behind the rates -/

/-- The receive and transmit deltas that a call turns into new rates. The other calls publish the cached ones. -/
def measured (t : NetworkThroughputTracker) (x : Sample) : Option (Int × Int) :=
  if (x.now - t.lastNetTime ≥ 0.8 ∧ t.lastNetBytesRecv > 0) ∧ (calculateRates t x).2.isSome then
    some (max 0 (x.bytesRecv - t.lastNetBytesRecv), max 0 (x.bytesSent - t.lastNetBytesSent))
  else none

theorem rates_of_measured {t : NetworkThroughputTracker} {x : Sample} {rx tx : Int} (h : measured t x = some (rx, tx)) :
    ∃ rates, (calculateRates t x).2 = some rates ∧ kbps rx (x.now - t.lastNetTime) = some rates.rxRateKbps ∧
      kbps tx (x.now - t.lastNetTime) = some rates.txRateKbps := by
  unfold measured at h
  split at h
  · rename_i hmeasures
    obtain ⟨hbranch, hsome⟩ := hmeasures
    cases h
    simp only [calculateRates, if_pos hbranch] at hsome ⊢
    split <;> simp_all [NetworkThroughputTracker.rates]
  · cases h

theorem rates_of_cached {t : NetworkThroughputTracker} {x : Sample} {rates : Rates} (h : measured t x = none)
    (hrates : (calculateRates t x).2 = some rates) :
    rates.rxRateKbps = t.cachedRxKbps ∧ rates.txRateKbps = t.cachedTxKbps := by
  have hbranch : ¬ (x.now - t.lastNetTime ≥ 0.8 ∧ t.lastNetBytesRecv > 0) := by
    intro hbranch
    rw [measured, if_pos ⟨hbranch, by rw [hrates]; rfl⟩] at h
    cases h
  simp only [calculateRates, if_neg hbranch] at hrates
  split at hrates <;> cases hrates <;> exact ⟨rfl, rfl⟩

/-- What a call does with the counters: it measures them against the baseline and moves that, it takes them
as its first baseline, or it leaves the baseline as it is. -/
theorem calculateRates_cases (t : NetworkThroughputTracker) (x : Sample) :
    (0 < t.lastNetBytesRecv ∧
      measured t x = some (max 0 (x.bytesRecv - t.lastNetBytesRecv), max 0 (x.bytesSent - t.lastNetBytesSent)) ∧
      (calculateRates t x).1.lastNetBytesRecv = x.bytesRecv ∧ (calculateRates t x).1.lastNetBytesSent = x.bytesSent) ∨
    (t.lastNetBytesRecv = 0 ∧ measured t x = none ∧
      (calculateRates t x).1.lastNetBytesRecv = x.bytesRecv ∧ (calculateRates t x).1.lastNetBytesSent = x.bytesSent) ∨
    (t.lastNetBytesRecv ≠ 0 ∧ measured t x = none ∧ (calculateRates t x).1.lastNetBytesRecv = t.lastNetBytesRecv ∧
      (calculateRates t x).1.lastNetBytesSent = t.lastNetBytesSent) := by
  by_cases hdue : x.now - t.lastNetTime ≥ 0.8 ∧ t.lastNetBytesRecv > 0
  · cases hrates : (calculateRates t x).2 with
    | some rates =>
      refine Or.inl ⟨hdue.2, by rw [measured, if_pos ⟨hdue, by rw [hrates]; rfl⟩], ?_⟩
      simp only [calculateRates, if_pos hdue] at hrates ⊢
      split at hrates <;> simp_all
    -- A call that raised has kept its baseline.
    | none =>
      refine Or.inr (Or.inr ⟨Int.ne_of_gt hdue.2, by simp [measured, hrates], ?_⟩)
      simp only [calculateRates, if_pos hdue] at hrates ⊢
      split at hrates <;> simp_all
  · have hnone : measured t x = none := by rw [measured, if_neg fun hmeasures => hdue hmeasures.1]
    by_cases hunset : t.lastNetBytesRecv = 0
    · exact Or.inr (Or.inl ⟨hunset, hnone, by simp only [calculateRates, if_neg hdue, if_pos hunset, and_self]⟩)
    · exact Or.inr (Or.inr ⟨hunset, hnone, by simp only [calculateRates, if_neg hdue, if_neg hunset, and_self]⟩)

/-! ## Accounting -/

/-- A tracker, and the sums of the deltas behind the rates that it has published. -/
structure Account where
  tracker : NetworkThroughputTracker
  received : Int
  sent : Int

def Account.record (a : Account) (x : Sample) : Account :=
  let deltas := (measured a.tracker x).getD (0, 0)
  ⟨(calculateRates a.tracker x).1, a.received + deltas.1, a.sent + deltas.2⟩

def account (samples : List Sample) : Account := samples.foldl Account.record ⟨.new, 0, 0⟩

/-- Neither counter ever falls. -/
def Nondecreasing (samples : List Sample) : Prop :=
  samples.Pairwise fun x y => x.bytesRecv ≤ y.bytesRecv ∧ x.bytesSent ≤ y.bytesSent

/-- The measured deltas add up to what the baseline has moved since the first sample. -/
def LosesNothing (first : Sample) (rest : List Sample) : Prop :=
  let a := account (first :: rest)
  a.received = a.tracker.lastNetBytesRecv - first.bytesRecv ∧ a.sent = a.tracker.lastNetBytesSent - first.bytesSent

variable {a : Account} {x : Sample} {xs : List Sample}

/-- A call without a baseline takes the counters as its baseline, and measures nothing. -/
theorem record_unset (h : a.tracker.lastNetBytesRecv = 0) :
    (a.record x).tracker.lastNetBytesRecv = x.bytesRecv ∧ (a.record x).tracker.lastNetBytesSent = x.bytesSent ∧
      (a.record x).received = a.received ∧ (a.record x).sent = a.sent := by
  rcases calculateRates_cases a.tracker x with ⟨hset, _⟩ | ⟨_, hnone, hmoved⟩ | ⟨hset, _⟩
  · exact absurd h (Int.ne_of_gt hset)
  · simp only [Account.record, hnone, hmoved, Option.getD_none, Int.add_zero, and_self]
  · exact absurd h hset

/-- The first baseline is below the counters that follow. -/
theorem record_unset_le (h : a.tracker.lastNetBytesRecv = 0) (hmono : Nondecreasing (x :: xs)) :
    ∀ y ∈ xs, (a.record x).tracker.lastNetBytesRecv ≤ y.bytesRecv ∧
      (a.record x).tracker.lastNetBytesSent ≤ y.bytesSent := by
  obtain ⟨hrecv, hsent, _⟩ := record_unset (x := x) h
  rw [hrecv, hsent]
  exact (List.pairwise_cons.mp hmono).1

/-- A call with a baseline moves it by what it measures, or leaves it. -/
theorem record_set (h : a.tracker.lastNetBytesRecv ≠ 0) (hrecv : a.tracker.lastNetBytesRecv ≤ x.bytesRecv)
    (hsent : a.tracker.lastNetBytesSent ≤ x.bytesSent) :
    (a.record x).received - (a.record x).tracker.lastNetBytesRecv = a.received - a.tracker.lastNetBytesRecv ∧
      (a.record x).sent - (a.record x).tracker.lastNetBytesSent = a.sent - a.tracker.lastNetBytesSent ∧
      (a.record x).tracker.lastNetBytesRecv ≠ 0 ∧ (a.record x).tracker.lastNetBytesRecv ≤ x.bytesRecv ∧
      (a.record x).tracker.lastNetBytesSent ≤ x.bytesSent := by
  rcases calculateRates_cases a.tracker x with ⟨hset, hmeasured, hmoved⟩ | ⟨hunset, _⟩ | ⟨_, hnone, hleft⟩
  · rw [max_eq_right (Int.sub_nonneg_of_le hrecv), max_eq_right (Int.sub_nonneg_of_le hsent)] at hmeasured
    simp only [Account.record, hmeasured, hmoved, Option.getD_some]
    omega
  · exact absurd hunset h
  · simp only [Account.record, hnone, hleft, Option.getD_none, Int.add_zero, true_and]
    exact ⟨h, hrecv, hsent⟩

/-! ## Over a sequence of samples -/

/-- Once there is a baseline, every byte behind it is measured. -/
theorem records_set (h : a.tracker.lastNetBytesRecv ≠ 0)
    (hfirst : ∀ x ∈ xs, a.tracker.lastNetBytesRecv ≤ x.bytesRecv ∧ a.tracker.lastNetBytesSent ≤ x.bytesSent)
    (hmono : Nondecreasing xs) :
    (xs.foldl Account.record a).received - (xs.foldl Account.record a).tracker.lastNetBytesRecv =
        a.received - a.tracker.lastNetBytesRecv ∧
      (xs.foldl Account.record a).sent - (xs.foldl Account.record a).tracker.lastNetBytesSent =
        a.sent - a.tracker.lastNetBytesSent := by
  induction xs generalizing a with
  | nil => exact ⟨rfl, rfl⟩
  | cons x xs ih =>
    rw [List.forall_mem_cons] at hfirst
    obtain ⟨hrecv, hsent, hset, hlow, hlowSent⟩ := record_set h hfirst.1.1 hfirst.1.2
    obtain ⟨hnext, hmono⟩ := List.pairwise_cons.mp hmono
    have hfirst' : ∀ y ∈ xs, (a.record x).tracker.lastNetBytesRecv ≤ y.bytesRecv ∧
        (a.record x).tracker.lastNetBytesSent ≤ y.bytesSent :=
      fun y hy => ⟨Int.le_trans hlow (hnext y hy).1, Int.le_trans hlowSent (hnext y hy).2⟩
    obtain ⟨hrecv', hsent'⟩ := ih hset hfirst' hmono
    exact ⟨hrecv'.trans hrecv, hsent'.trans hsent⟩

/-- Without a baseline, nothing is lost only as long as nothing comes. -/
theorem records_unset {sent₀ : Int} (h : a.tracker.lastNetBytesRecv = 0) (hzero : a.received = 0 ∧ a.sent = 0)
    (hsent₀ : sent₀ ≤ a.tracker.lastNetBytesSent)
    (hfirst : ∀ x ∈ xs, 0 ≤ x.bytesRecv ∧ a.tracker.lastNetBytesSent ≤ x.bytesSent) (hmono : Nondecreasing xs) :
    ((xs.foldl Account.record a).received = (xs.foldl Account.record a).tracker.lastNetBytesRecv ∧
        (xs.foldl Account.record a).sent = (xs.foldl Account.record a).tracker.lastNetBytesSent - sent₀) ↔
      a.tracker.lastNetBytesSent = sent₀ ∧ ∀ x ∈ xs, x.bytesRecv = 0 ∧ x.bytesSent = sent₀ := by
  induction xs generalizing a with
  | nil =>
    simp only [List.foldl_nil, h, hzero, List.not_mem_nil, false_implies, implies_true, and_true, true_and]
    omega
  | cons x xs ih =>
    rw [List.forall_mem_cons] at hfirst
    rw [List.foldl_cons, List.forall_mem_cons]
    have hbelow := record_unset_le h hmono
    obtain ⟨hnext, hmono⟩ := List.pairwise_cons.mp hmono
    obtain ⟨hrecv, hsent, hreceived, hsum⟩ := record_unset (x := x) h
    obtain ⟨⟨hpos, hlow⟩, _⟩ := hfirst
    by_cases hx : x.bytesRecv = 0
    · rw [ih (hrecv.trans hx) ⟨hreceived.trans hzero.1, hsum.trans hzero.2⟩ (by omega)
        (fun y hy => ⟨hx ▸ (hnext y hy).1, (hbelow y hy).2⟩) hmono, hsent]
      constructor
      · rintro ⟨hsame, hrest⟩
        exact ⟨by omega, ⟨hx, hsame⟩, hrest⟩
      · rintro ⟨_, ⟨_, hsame⟩, hrest⟩
        exact ⟨hsame, hrest⟩
    · have hset := (records_set (a := a.record x) (by omega) hbelow hmono).1
      constructor
      · rintro ⟨hsame, _⟩
        omega
      · rintro ⟨_, ⟨hsame, _⟩, _⟩
        exact absurd hsame hx

/-- **When the throughput accounting loses nothing.** Of samples whose counters never fall, whatever
their times, every byte is measured exactly when the first receive counter is not zero, or
nothing is ever received or sent. -/
theorem losesNothing_iff (first : Sample) (rest : List Sample) (hmono : Nondecreasing (first :: rest)) :
    LosesNothing first rest ↔
      first.bytesRecv ≠ 0 ∨ ∀ x ∈ first :: rest, x.bytesRecv = 0 ∧ x.bytesSent = first.bytesSent := by
  have hbelow := @record_unset_le ⟨.new, 0, 0⟩ first rest rfl hmono
  obtain ⟨hnext, hmono⟩ := List.pairwise_cons.mp hmono
  obtain ⟨hrecv, hsent, hreceived, hsum⟩ : _ ∧ _ ∧ (Account.record ⟨.new, 0, 0⟩ first).received = 0 ∧
      (Account.record ⟨.new, 0, 0⟩ first).sent = 0 := record_unset rfl
  unfold LosesNothing account
  rw [List.foldl_cons]
  by_cases hfirst : first.bytesRecv = 0
  · have hunset := @records_unset (Account.record ⟨.new, 0, 0⟩ first) rest first.bytesSent (hrecv.trans hfirst)
      ⟨hreceived, hsum⟩ (Int.le_of_eq hsent.symm)
      (fun y hy => ⟨hfirst ▸ (hnext y hy).1, (hbelow y hy).2⟩) hmono
    simp only [hfirst, Int.sub_zero, List.forall_mem_cons]
    rw [hunset]
    simp [hsent]
  · obtain ⟨hset, hsetSent⟩ := @records_set (Account.record ⟨.new, 0, 0⟩ first) rest (by omega) hbelow
      hmono
    simp only [hfirst, ne_eq, not_false_eq_true, true_or, iff_true]
    omega

def sampleAt (now : Float) (bytesRecv bytesSent : Int) : Sample := ⟨now, some bytesRecv, some bytesSent⟩

theorem losesNothing_busy : LosesNothing (sampleAt 1000 700 20) [sampleAt 1001 900 20, sampleAt 1002 1500 80] :=
  (losesNothing_iff _ _ (by simp [Nondecreasing, sampleAt, Sample.bytesRecv, Sample.bytesSent])).mpr
    (Or.inl (by decide))

/-- An interface that has received nothing yet: its first 500 bytes are behind no rate. -/
theorem loses_first_bytes : ¬ ∀ first rest, (first :: rest).Pairwise (fun x y => x.now < y.now) →
    Nondecreasing (first :: rest) → LosesNothing first rest := by
  intro h
  have hlost := (h (sampleAt 1000 0 0) [sampleAt 1001 500 40] (by simp [sampleAt]; decide)
    (by simp [Nondecreasing, sampleAt, Sample.bytesRecv, Sample.bytesSent])).1
  have hfirst : (Account.record ⟨.new, 0, 0⟩ (sampleAt 1000 0 0)).tracker.lastNetBytesRecv = 0 ∧ _ := record_unset rfl
  obtain ⟨hrecv, _, hreceived, _⟩ := record_unset (x := sampleAt 1001 500 40) hfirst.1
  rw [account, List.foldl_cons, List.foldl_cons, List.foldl_nil, hrecv, hreceived, hfirst.2.2.1] at hlost
  exact absurd hlost (by decide)

end Palworld.Network

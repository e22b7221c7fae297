import Palworld.Metrics.Conservation
import Mathlib.Algebra.BigOperators.Group.List.Lemmas
import Mathlib.Algebra.Ring.Nat

/-!
# What a query counts

A query flushes the buffer first. A batch that another flush has taken before, and has not
committed yet, is neither in the buffer nor in the database.
-/

open Lib

namespace Palworld.Metrics

variable {V : Type} {s m q t : State V} {a : Act V} {as : List (Act V)} {x : Sample V} {cutoff : Text} {r : Nat}

/-- Each selected row is counted in one bucket. -/
theorem getHistory_counts (window : Window) (rows : List (Sample V)) :
    ((getHistory window rows).map MetricBucketRecord.sampleCount).sum = totalSamples rows := by
  unfold getHistory totalSamples
  simp only [List.map_map]
  refine ((List.mergeSort_perm _ _).map _).sum_eq.trans ?_
  exact (List.sum_map_count_dedup_eq_length _).trans (List.length_map _)

/-- The answer of read `r` has every snapshot of the window that had been appended when it began, in state `m`. -/
def Answered (m : State V) (cutoff : Text) (t : State V) : Prop :=
  ∃ rows, t.reads[m.reads.length]? = some (.answered rows) ∧
    ∀ x ∈ m.appended, cutoff ≤ x.record.timestamp → x ∈ rows

/-- No batch that was taken before state `m`, and is not committed yet, has a snapshot of the window. -/
def Settled (m : State V) (cutoff : Text) (q : State V) : Prop :=
  ∀ i < m.flushes.length, ∀ flush, q.flushes[i]? = some flush → ∀ x ∈ flush.inFlight, ¬ cutoff ≤ x.record.timestamp

/-! ## Serial numbers -/

def Numbered (s : State V) : Prop := s.appended.map Sample.serial = List.range s.appended.length

theorem Numbered.serial_lt (h : Numbered s) (hx : x ∈ s.appended) : x.serial < s.appended.length := by
  rw [← List.mem_range, ← h]
  exact List.mem_map_of_mem hx

theorem Numbered.nodup (h : Numbered s) : s.appended.Nodup := by
  refine List.Nodup.of_map Sample.serial ?_
  rw [show s.appended.map Sample.serial = _ from h]
  exact List.nodup_range

def Faultless (s : State V) : Prop := ∀ flush ∈ s.flushes, ∀ batch, flush ≠ .failed batch

theorem Faultless.set (h : Faultless s) {i : Nat} {flush : Flush V} (hflush : ∀ batch, flush ≠ .failed batch) :
    ∀ b ∈ s.flushes.set i flush, ∀ batch, b ≠ .failed batch := by
  intro b hb
  rcases List.mem_or_eq_of_mem_set hb with hin | rfl
  · exact h b hin
  · exact hflush

theorem Faultless.begin (h : Faultless s) : Faultless s.beginFlush := by
  obtain ⟨flush, hflushes, -, hok⟩ := beginFlush_flushes s
  intro b hb
  rw [hflushes, List.mem_append, List.mem_singleton] at hb
  rcases hb with hin | rfl
  · exact h b hin
  · exact hok

/-- What holds after the read of state `m` has begun. Its own flush has the number of the flushes of `m`.
What was appended before is not in the buffer any more, nor in a batch that was taken later. -/
structure Since (m q : State V) : Prop where
  flush_lt : m.flushes.length < q.flushes.length
  reading : q.reads[m.reads.length]? = some (.flushing m.flushes.length) ∨
    ∃ rows, q.reads[m.reads.length]? = some (.answered rows)
  appended_le : m.appended.length ≤ q.appended.length
  buffer : ∀ x ∈ q.buffer, m.appended.length ≤ x.serial
  later : ∀ i flush, m.flushes.length < i → q.flushes[i]? = some flush → ∀ x ∈ flush.inFlight, m.appended.length ≤ x.serial
  earlier : ∀ i flush, i < m.flushes.length → q.flushes[i]? = some flush → ∀ x ∈ flush.inFlight, x ∈ m.places

theorem Since.set (h : Since m q) {i : Nat} {b c : Flush V} (hb : q.flushes[i]? = some b)
    (hc : ∀ x ∈ c.inFlight, x ∈ b.inFlight) :
    m.flushes.length < (q.flushes.set i c).length ∧
      (∀ j flush, m.flushes.length < j → (q.flushes.set i c)[j]? = some flush →
        ∀ x ∈ flush.inFlight, m.appended.length ≤ x.serial) ∧
      ∀ j flush, j < m.flushes.length → (q.flushes.set i c)[j]? = some flush → ∀ x ∈ flush.inFlight, x ∈ m.places := by
  have still {j : Nat} {flush : Flush V} (hflush : (q.flushes.set i c)[j]? = some flush) :
      ∃ flush', q.flushes[j]? = some flush' ∧ ∀ x ∈ flush.inFlight, x ∈ flush'.inFlight := by
    rw [List.getElem?_set] at hflush
    split at hflush
    · rename_i hij
      subst hij
      split at hflush
      · cases hflush
        exact ⟨b, hb, hc⟩
      · cases hflush
    · exact ⟨flush, hflush, fun _ hx => hx⟩
  refine ⟨by simpa using h.flush_lt, fun j flush hj hflush x hx => ?_, fun j flush hj hflush x hx => ?_⟩
  · obtain ⟨flush', hflush', hsub⟩ := still hflush
    exact h.later j flush' hj hflush' x (hsub x hx)
  · obtain ⟨flush', hflush', hsub⟩ := still hflush
    exact h.earlier j flush' hj hflush' x (hsub x hx)

theorem Since.begin (h : Since m q) :
    m.flushes.length < q.beginFlush.flushes.length ∧
      (∀ j flush, m.flushes.length < j → q.beginFlush.flushes[j]? = some flush →
        ∀ x ∈ flush.inFlight, m.appended.length ≤ x.serial) ∧
      ∀ j flush, j < m.flushes.length → q.beginFlush.flushes[j]? = some flush →
        ∀ x ∈ flush.inFlight, x ∈ m.places := by
  obtain ⟨flush, hflushes, hbuffer, -⟩ := beginFlush_flushes q
  have hlt := h.flush_lt
  rw [hflushes]
  refine ⟨by simp; omega, fun j f hj hf x hx => ?_, fun j f hj hf x hx => ?_⟩
  · rw [List.getElem?_append] at hf
    split at hf
    · exact h.later j f hj hf x hx
    · rw [List.getElem?_singleton] at hf
      split at hf
      · cases hf
        rw [hbuffer] at hx
        exact h.buffer x hx
      · cases hf
  · rw [List.getElem?_append_left (by omega)] at hf
    exact h.earlier j f hj hf x hx

structure Sound (s : State V) : Prop where
  conserved : s.Conserved
  numbered : Numbered s
  faultless : Faultless s

/-- What had been appended before is in the database, or in a batch that was taken before. -/
theorem Since.stored (h : Since m q) (hm : Sound m) (hq : Sound q) (happ : ∀ x ∈ m.appended, x ∈ q.appended)
    {inserted : Nat} (hown : q.flushes[m.flushes.length]? = some (.returned inserted)) (hx : x ∈ m.appended) :
    x ∈ q.database ∨ ∃ i < m.flushes.length, ∃ flush, q.flushes[i]? = some flush ∧ x ∈ flush.inFlight := by
  have hlt := hm.numbered.serial_lt hx
  have hplace := hq.conserved.mem_iff.mpr (happ x hx)
  simp only [State.places, List.mem_append, List.mem_flatMap] at hplace
  -- A snapshot from before `m` has left the buffer, and no later batch took it.
  rcases hplace with (hbuffer | ⟨flush, hflush, hin⟩) | hdatabase
  · have := h.buffer x hbuffer
    omega
  · obtain ⟨i, hi⟩ := List.mem_iff_getElem?.mp hflush
    rcases Nat.lt_trichotomy i m.flushes.length with hbefore | rfl | hafter
    · exact .inr ⟨i, hbefore, flush, hi, hin⟩
    · cases hown.symm.trans hi
      cases hin
    · have := h.later i flush hafter hi x hin
      omega
  · exact .inl hdatabase

end Palworld.Metrics

import Palworld.Metrics.Store

/-!
# Where the cutoffs cut

The timestamps compare as the times do, so the texts that the statements compare select by time.
-/

open Lib

namespace Palworld.Metrics.Store

/-- Each row has the timestamp of its sampling time. -/
def Stamped (sampled : Row → DateTime) (rows : Table) : Prop := ∀ r ∈ rows, r.timestamp = (sampled r).isoformat

/-- The rows that were sampled at the cutoff or after it. -/
def atOrAfter (sampled : Row → DateTime) (cutoff : DateTime) (rows : Table) : Table :=
  rows.filter fun r => cutoff.micros ≤ (sampled r).micros

section

variable {sampled : Row → DateTime} {rows : Table} {cutoff : DateTime} {r : Row}

theorem Stamped.before_iff (h : Stamped sampled rows) (hr : r ∈ rows) :
    r.timestamp < cutoff.isoformat ↔ (sampled r).micros < cutoff.micros := by
  rw [h r hr, DateTime.isoformat_lt_iff]

theorem Stamped.since_eq (h : Stamped sampled rows) : since cutoff.isoformat rows = atOrAfter sampled cutoff rows := by
  unfold since atOrAfter
  refine List.filter_congr fun r hr => ?_
  rw [h r hr, Bool.eq_iff_iff, decide_eq_true_eq, decide_eq_true_eq, DateTime.isoformat_le_iff]

theorem Stamped.kept_eq (h : Stamped sampled rows) :
    (rows.filter fun r => ¬ r.timestamp < cutoff.isoformat) = atOrAfter sampled cutoff rows := by
  unfold atOrAfter
  refine List.filter_congr fun r hr => ?_
  rw [Bool.eq_iff_iff, decide_eq_true_eq, decide_eq_true_eq, h.before_iff hr, Nat.not_lt]

theorem Stamped.count_eq (h : Stamped sampled rows) :
    (rows.countP fun r => r.timestamp < cutoff.isoformat) = rows.countP fun r => (sampled r).micros < cutoff.micros := by
  refine List.countP_congr fun r hr => ?_
  rw [decide_eq_true_eq, decide_eq_true_eq, h.before_iff hr]

end

/-- Retention deletes the rows strictly older than the cutoff, and the queries read the rows from the cutoff on. -/
theorem cutoffs_cut_by_time :
    (∀ t u : DateTime, t.isoformat < u.isoformat ↔ t.micros < u.micros) ∧
    ∀ (sampled : Row → DateTime) (s : Session Table) (now cutoff : DateTime), Stamped sampled s.current → ¬ s.Faulty →
      (∀ keep, now.sub (days keep) = some cutoff →
        ((pruneOlderThan now keep).on s).2.current = atOrAfter sampled cutoff s.current ∧
        (¬ s.next.Faulty → ((pruneOlderThan now keep).on s).2.stored = atOrAfter sampled cutoff s.current ∧
          ((pruneOlderThan now keep).on s).1 = .ok (s.current.countP fun r => (sampled r).micros < cutoff.micros))) ∧
      (∀ window, now.sub (span (windowOf window)) = some cutoff →
        ((getHistory window now).on s).1 = .ok (history (windowOf window) (atOrAfter sampled cutoff s.current))) ∧
      (now.sub (days 30) = some cutoff → ((get30DaySummary now).on s).1 = .ok (summary (atOrAfter sampled cutoff s.current))) := by
  refine ⟨fun t u => DateTime.isoformat_lt_iff, fun sampled s now cutoff hstamped hfault => ⟨fun keep hcutoff => ?_, fun window hcutoff => ?_, fun hcutoff => ?_⟩⟩
  · rw [on_pruneOlderThan hcutoff, if_neg hfault]
    dsimp only
    constructor
    · split <;> exact hstamped.kept_eq
    · intro hcommit
      rw [if_neg hcommit]
      exact ⟨hstamped.kept_eq, by rw [hstamped.count_eq]⟩
  · rw [on_getHistory hcutoff, if_neg hfault, hstamped.since_eq]
  · rw [on_get30DaySummary hcutoff, if_neg hfault, hstamped.since_eq]

/-! ## A day of retention -/

section

/-- Noon of the second of January of the year 2. -/
def noon : DateTime := ⟨(366 * 86400 + 43200) * 10 ^ 6, by decide⟩

def dayBefore : DateTime := ⟨(365 * 86400 + 43200) * 10 ^ 6, by decide⟩

/-- The last moment before the cutoff, the cutoff, half a second after it, and noon. -/
def sampledAt : Nat → DateTime
  | 1 => ⟨(365 * 86400 + 43200) * 10 ^ 6 - 1, by decide⟩
  | 2 => dayBefore
  | 3 => ⟨(365 * 86400 + 43200) * 10 ^ 6 + 500000, by decide⟩
  | _ => noon

def rowOf (id : Nat) (players : Int) : Row := ⟨id, (sampledAt id).isoformat, 60, 16, players, 20, 40⟩

/-- The rows are not in the order of their times. -/
def dayRows : Table := [rowOf 3 5, rowOf 1 9, rowOf 4 2, rowOf 2 7]

theorem stamped_dayRows : Stamped (fun r => sampledAt r.id) dayRows := by
  intro r hr
  simp only [dayRows, List.mem_cons, List.not_mem_nil, or_false] at hr
  rcases hr with rfl | rfl | rfl | rfl <;> rfl

/-- The row before the cutoff is deleted, and only that one. -/
theorem cutoffs_cut_by_time_noon :
    ((pruneOlderThan noon 1).on ⟨dayRows, dayRows, []⟩).2.stored = [rowOf 3 5, rowOf 4 2, rowOf 2 7] ∧
    ((pruneOlderThan noon 1).on ⟨dayRows, dayRows, []⟩).1 = .ok 1 ∧
    ((getHistory (lit "24h") noon).on ⟨dayRows, dayRows, []⟩).1 = .ok (history .h24 [rowOf 3 5, rowOf 4 2, rowOf 2 7]) := by
  have hcut := cutoffs_cut_by_time.2 (fun r => sampledAt r.id) ⟨dayRows, dayRows, []⟩ noon dayBefore stamped_dayRows (by decide)
  obtain ⟨hstored, hcount⟩ := (hcut.1 1 (by decide)).2 (by decide)
  have hselected : atOrAfter (fun r => sampledAt r.id) dayBefore dayRows = [rowOf 3 5, rowOf 4 2, rowOf 2 7] := rfl
  have hwindow : windowOf (lit "24h") = .h24 := rfl
  have hhistory := hcut.2.1 (lit "24h") (by decide)
  exact ⟨hstored.trans hselected, hcount.trans (by decide), hhistory.trans (by rw [hwindow, hselected])⟩

end

end Palworld.Metrics.Store

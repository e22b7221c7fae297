import Palworld.Lib.Aggregate
import Palworld.Lib.Isoformat
import Palworld.Lib.Sqlite
import Palworld.Metrics.Flush

/-!
# The time series

The table of the snapshots, with its retention and the queries of the charts. SQLite compares the
timestamps as texts and cuts the labels of the buckets out of them.
-/

open Lib

namespace Palworld.Metrics.Store

/-- A row of `metrics_timeseries`, with the columns that the queries read. -/
structure Row where
  id : Nat
  timestamp : Text
  server_fps : ℚ
  server_frame_time_ms : ℚ
  active_players : Int
  cpu_avg_pct : ℚ
  host_ram_pct : ℚ
  deriving DecidableEq

abbrev Table := List Row

inductive MetricsError
  | overflow            -- the `OverflowError` of a date out of range
  | sql (err : SqlError)
  deriving DecidableEq

instance : OfSql MetricsError := ⟨.sql⟩

/-- `timedelta(days=days)`, in microseconds. -/
def days (days : Int) : Int := days * dayMicros

/-- `timedelta(hours=hours)`. -/
def hours (hours : Int) : Int := hours * (3600 * 10 ^ 6)

/-! ## Retention -/

/-- `DELETE FROM metrics_timeseries WHERE timestamp < ?`, with its row count. -/
def deleteBefore (cutoff_str : Text) (rows : Table) : Option (Int × Table) :=
  some (rows.countP fun r => r.timestamp < cutoff_str, rows.filter fun r => ¬ r.timestamp < cutoff_str)

/-- `prune_older_than`, at the time `now`. -/
def pruneOlderThan (now : DateTime) (keep : Int) : Db Table MetricsError Int :=
  match now.sub (days keep) with
  | none => throw .overflow
  | some cutoff_dt => tryCatch (do
      let deleted_count ← execute (deleteBefore cutoff_dt.isoformat)
      commit
      return max deleted_count 0) fun _ => return 0

/-! ## History -/

/-- `WHERE timestamp >= ?`. -/
def since (cutoff_str : Text) (rows : Table) : Table := rows.filter fun r => cutoff_str ≤ r.timestamp

structure MetricBucketRecord where
  bucket_timestamp : Text
  avg_fps : ℚ
  min_fps : ℚ
  max_fps : ℚ
  avg_frame_time_ms : ℚ
  avg_players : ℚ
  max_players : Int
  avg_cpu_pct : ℚ
  max_cpu_pct : ℚ
  avg_ram_pct : ℚ
  max_ram_pct : ℚ
  sample_count : Nat

/-- `float(row[column] or 0.0)` of `ROUND(column, 2)`. -/
def rounded (column : Option ℚ) : ℚ := (column.map (roundTo 2)).getD 0

/-- The columns of a group. -/
def bucketRecord (bucket : Text) (rows : Table) : MetricBucketRecord where
  bucket_timestamp := bucket
  avg_fps := rounded (avg (rows.map Row.server_fps))
  min_fps := rounded (rows.map Row.server_fps).min?
  max_fps := rounded (rows.map Row.server_fps).max?
  avg_frame_time_ms := rounded (avg (rows.map Row.server_frame_time_ms))
  avg_players := rounded (avg (rows.map fun r => (r.active_players : ℚ)))
  max_players := (rows.map Row.active_players).max?.getD 0
  avg_cpu_pct := rounded (avg (rows.map Row.cpu_avg_pct))
  max_cpu_pct := rounded (rows.map Row.cpu_avg_pct).max?
  avg_ram_pct := rounded (avg (rows.map Row.host_ram_pct))
  max_ram_pct := rounded (rows.map Row.host_ram_pct).max?
  sample_count := rows.length

/-- `GROUP BY bucket ORDER BY bucket ASC`. -/
def buckets (window : Window) (rows : Table) : List (Text × Table) := groups (fun r => bucketLabel window r.timestamp) rows

/-- `HISTORY_QUERY_1H` and its siblings, less their `WHERE`. -/
def history (window : Window) (rows : Table) : List MetricBucketRecord := (buckets window rows).map fun g => bucketRecord g.1 g.2

/-- What the `window` argument selects. -/
def windowOf (window : Text) : Window :=
  if window = lit "1h" then .h1
  else if window = lit "7d" then .d7
  else if window = lit "30d" then .d30
  else .h24

def span : Window → Int
  | .h1 => hours 1
  | .h24 => hours 24
  | .d7 => days 7
  | .d30 => days 30

def getHistory (window : Text) (now : DateTime) : Db Table MetricsError (List MetricBucketRecord) :=
  match now.sub (span (windowOf window)) with
  | none => throw .overflow
  | some cutoff_dt =>
    tryCatch (query fun rows => history (windowOf window) (since cutoff_dt.isoformat rows)) fun _ => return []

/-! ## The summary -/

structure Metric30DaySummary where
  total_samples : Nat
  peak_players : Int
  avg_players : ℚ
  lowest_fps : ℚ
  avg_fps : ℚ
  peak_cpu_pct : ℚ
  avg_cpu_pct : ℚ
  peak_ram_pct : ℚ
  avg_ram_pct : ℚ
  window_start : Text
  window_end : Text

/-- `SUMMARY_QUERY_30D`, less its `WHERE`. `COALESCE` puts zeros and empty texts for `NULL`. -/
def summary (rows : Table) : Metric30DaySummary where
  total_samples := rows.length
  peak_players := (rows.map Row.active_players).max?.getD 0
  avg_players := rounded (avg (rows.map fun r => (r.active_players : ℚ)))
  lowest_fps := rounded (rows.map Row.server_fps).min?
  avg_fps := rounded (avg (rows.map Row.server_fps))
  peak_cpu_pct := rounded (rows.map Row.cpu_avg_pct).max?
  avg_cpu_pct := rounded (avg (rows.map Row.cpu_avg_pct))
  peak_ram_pct := rounded (rows.map Row.host_ram_pct).max?
  avg_ram_pct := rounded (avg (rows.map Row.host_ram_pct))
  window_start := (rows.map Row.timestamp).min?.getD []
  window_end := (rows.map Row.timestamp).max?.getD []

def emptySummary : Metric30DaySummary := ⟨0, 0, 0, 0, 0, 0, 0, 0, 0, [], []⟩

def get30DaySummary (now : DateTime) : Db Table MetricsError Metric30DaySummary :=
  match now.sub (days 30) with
  | none => throw .overflow
  | some cutoff_dt => tryCatch (query fun rows => summary (since cutoff_dt.isoformat rows)) fun _ => return emptySummary

/-! ## What the statements do -/

section

variable {s : Session Table} {now cutoff : DateTime} {keep : Int} {window : Text}

theorem on_getHistory (hcutoff : now.sub (span (windowOf window)) = some cutoff) :
    (getHistory window now).on s =
      (.ok (if s.Faulty then [] else history (windowOf window) (since cutoff.isoformat s.current)), s.next) := by
  unfold getHistory
  rw [hcutoff]
  exact Db.on_query_or _ _ _

theorem on_get30DaySummary (hcutoff : now.sub (days 30) = some cutoff) :
    (get30DaySummary now).on s = (.ok (if s.Faulty then emptySummary else summary (since cutoff.isoformat s.current)), s.next) := by
  unfold get30DaySummary
  rw [hcutoff]
  exact Db.on_query_or _ _ _

/-- The rows are deleted if the `DELETE` goes through. A commit that raises leaves them deleted on the connection and reports 0. -/
theorem on_pruneOlderThan (hcutoff : now.sub (days keep) = some cutoff) :
    (pruneOlderThan now keep).on s =
      if s.Faulty then (.ok 0, s.next)
      else
        let kept := s.current.filter fun r => ¬ r.timestamp < cutoff.isoformat
        if s.next.Faulty then (.ok 0, { s.next.next with current := kept })
        else (.ok (s.current.countP fun r => r.timestamp < cutoff.isoformat), { s.next.next with stored := kept, current := kept }) := by
  unfold pruneOlderThan
  rw [hcutoff]
  dsimp only
  rw [Db.on_tryCatch, Db.on_bind, Db.on_execute]
  by_cases hfault : s.Faulty
  · rw [if_pos hfault, if_pos hfault]
    rfl
  · rw [if_neg hfault, if_neg hfault]
    unfold deleteBefore
    dsimp only
    rw [Db.on_bind, Db.on_commit]
    by_cases hcommit : s.next.Faulty
    · have hcommit' : Session.Faulty { s.next with current := s.current.filter fun r => ¬ r.timestamp < cutoff.isoformat } := hcommit
      rw [if_pos hcommit', if_pos hcommit]
      rfl
    · have hcommit' : ¬ Session.Faulty { s.next with current := s.current.filter fun r => ¬ r.timestamp < cutoff.isoformat } := hcommit
      rw [if_neg hcommit', if_neg hcommit]
      have hmax : max ((s.current.countP fun r => r.timestamp < cutoff.isoformat : Nat) : Int) 0 =
          (s.current.countP fun r => r.timestamp < cutoff.isoformat : Nat) := max_eq_left (Int.natCast_nonneg _)
      dsimp only
      rw [hmax]
      rfl

end

end Palworld.Metrics.Store

import Palworld.Lib.Run
import Palworld.Lib.Text
import Mathlib.Data.List.Lex
import Mathlib.Data.Char

/-!
# The metrics buffer

The collector samples into a buffer in memory. A flush takes the buffer, writes it to the
database in a thread and puts it back when the write fails. Queries flush before they read.
-/

open Lib

namespace Palworld.Metrics

variable {V : Type}

/-- A snapshot. Its measured columns are only averaged. -/
structure MetricSnapshotRecord (V : Type) where
  timestamp : Text
  measured : V

/-- A snapshot object: which of the appended ones it is, and what it holds. -/
structure Sample (V : Type) where
  serial : Nat
  record : MetricSnapshotRecord V

/-- Where a call of `flush_metrics_buffer` is. -/
inductive Flush (V : Type)
  | writing (batch : List (Sample V))  -- `record_snapshots_batch` is at work in its thread
  | written (batch : List (Sample V))  -- the transaction is committed
  | failed (batch : List (Sample V))   -- the write has raised a `sqlite3.DatabaseError`
  | returned (inserted : Nat)

def Flush.inFlight : Flush V → List (Sample V)
  | .writing batch | .failed batch => batch
  | .written _ | .returned _ => []

inductive Window
  | h1
  | h24
  | d7
  | d30

inductive Read (V : Type)
  | flushing (flush : Nat)             -- awaits its own flush
  | answered (rows : List (Sample V))  -- the rows that the query selected

structure State (V : Type) where
  buffer : List (Sample V)
  database : List (Sample V)
  flushes : List (Flush V)
  reads : List (Read V)
  appended : List (Sample V)  -- every snapshot that there ever was

inductive Act (V : Type)
  | append (record : MetricSnapshotRecord V)
  | startFlush
  | commit (flush : Nat)
  | fail (flush : Nat)
  | resume (flush : Nat)
  | startRead
  | query (read : Nat) (cutoff : Text)

/-- The first lines of `flush_metrics_buffer`. Nothing suspends while the lock is held. -/
def State.beginFlush (s : State V) : State V :=
  match s.buffer with
  | [] => { s with flushes := s.flushes ++ [.returned 0] }
  | _ :: _ => { s with buffer := [], flushes := s.flushes ++ [.writing s.buffer] }

/-- `WHERE timestamp >= ?`. -/
def selected (cutoff : Text) (rows : List (Sample V)) : List (Sample V) :=
  rows.filter fun row => cutoff ≤ row.record.timestamp

def step (s : State V) : Act V → Option (State V)
  | .append record =>
    let sample : Sample V := ⟨s.appended.length, record⟩
    some { s with buffer := s.buffer ++ [sample], appended := s.appended ++ [sample] }
  | .startFlush => some s.beginFlush
  | .commit i =>
    match s.flushes[i]? with
    | some (.writing batch) =>
      some { s with flushes := s.flushes.set i (.written batch), database := s.database ++ batch }
    | _ => none
  | .fail i =>
    match s.flushes[i]? with
    | some (.writing batch) => some { s with flushes := s.flushes.set i (.failed batch) }
    | _ => none
  | .resume i =>
    match s.flushes[i]? with
    | some (.written batch) => some { s with flushes := s.flushes.set i (.returned batch.length) }
    | some (.failed batch) =>
      some { s with flushes := s.flushes.set i (.returned 0), buffer := batch.take 1000 ++ s.buffer }
    | _ => none
  | .startRead => some { s.beginFlush with reads := s.reads ++ [.flushing s.flushes.length] }
  | .query r cutoff =>
    match s.reads[r]? with
    | some (.flushing flush) =>
      match s.flushes[flush]? with
      | some (.returned _) => some { s with reads := s.reads.set r (.answered (selected cutoff s.database)) }
      | _ => none
    | _ => none

def Step (s : State V) (a : Act V) (t : State V) : Prop := step s a = some t

inductive Moves (s : State V) : Act V → State V → Prop
  | append (record : MetricSnapshotRecord V) :
    Moves s (.append record) { s with
      buffer := s.buffer ++ [⟨s.appended.length, record⟩], appended := s.appended ++ [⟨s.appended.length, record⟩] }
  | startFlush : Moves s .startFlush s.beginFlush
  | commit (i : Nat) (batch : List (Sample V)) (hflush : s.flushes[i]? = some (.writing batch)) :
    Moves s (.commit i) { s with flushes := s.flushes.set i (.written batch), database := s.database ++ batch }
  | fail (i : Nat) (batch : List (Sample V)) (hflush : s.flushes[i]? = some (.writing batch)) :
    Moves s (.fail i) { s with flushes := s.flushes.set i (.failed batch) }
  | finish (i : Nat) (batch : List (Sample V)) (hflush : s.flushes[i]? = some (.written batch)) :
    Moves s (.resume i) { s with flushes := s.flushes.set i (.returned batch.length) }
  | putBack (i : Nat) (batch : List (Sample V)) (hflush : s.flushes[i]? = some (.failed batch)) :
    Moves s (.resume i) { s with
      flushes := s.flushes.set i (.returned 0), buffer := batch.take 1000 ++ s.buffer }
  | startRead : Moves s .startRead { s.beginFlush with reads := s.reads ++ [.flushing s.flushes.length] }
  | query (r flush inserted : Nat) (cutoff : Text) (hread : s.reads[r]? = some (.flushing flush))
      (hflush : s.flushes[flush]? = some (.returned inserted)) :
    Moves s (.query r cutoff) { s with reads := s.reads.set r (.answered (selected cutoff s.database)) }

theorem step_moves {s t : State V} {a : Act V} (h : Step s a t) : Moves s a t := by
  unfold Step at h
  cases a with
  | append record =>
    cases h
    exact .append record
  | startFlush =>
    cases h
    exact .startFlush
  | startRead =>
    cases h
    exact .startRead
  | commit i =>
    simp only [step] at h
    split at h
    · cases h
      exact .commit i _ ‹_›
    · cases h
  | fail i =>
    simp only [step] at h
    split at h
    · cases h
      exact .fail i _ ‹_›
    · cases h
  | resume i =>
    simp only [step] at h
    split at h
    · cases h
      exact .finish i _ ‹_›
    · cases h
      exact .putBack i _ ‹_›
    · cases h
  | query r cutoff =>
    simp only [step] at h
    split at h
    · split at h
      · cases h
        exact .query r _ _ cutoff ‹_› ‹_›
      · cases h
    · cases h

theorem beginFlush_appended (s : State V) : s.beginFlush.appended = s.appended := by
  unfold State.beginFlush
  split <;> rfl

theorem beginFlush_buffer (s : State V) : s.beginFlush.buffer = [] := by
  unfold State.beginFlush
  split
  · assumption
  · rfl

theorem beginFlush_flushes (s : State V) :
    ∃ flush, s.beginFlush.flushes = s.flushes ++ [flush] ∧ flush.inFlight = s.buffer ∧ ∀ batch, flush ≠ .failed batch := by
  unfold State.beginFlush
  split
  · rename_i hempty
    exact ⟨.returned 0, rfl, hempty.symm, by simp⟩
  · exact ⟨.writing s.buffer, rfl, rfl, by simp⟩

/-- An empty buffer, and whatever earlier runs have left in the database. -/
structure Initial (s : State V) : Prop where
  buffer : s.buffer = []
  flushes : s.flushes = []
  reads : s.reads = []
  database : s.database = s.appended
  serials : s.appended.map Sample.serial = List.range s.appended.length

/-! ## The responses -/

def bucketLabel (window : Window) (timestamp : Text) : Text :=
  match window with
  | .h1 => timestamp.take 16 ++ lit ":00Z"
  | .h24 => timestamp.take 15 ++ lit "0:00Z"
  | .d7 => timestamp.take 13 ++ lit ":00:00Z"
  | .d30 => timestamp.take 10 ++ lit "T00:00:00Z"

/-- The rows of a bucket of the history. The averages and extremes are taken of the same rows. -/
structure MetricBucketRecord where
  bucketTimestamp : Text
  sampleCount : Nat

/-- `GROUP BY bucket ORDER BY bucket`. -/
def getHistory (window : Window) (rows : List (Sample V)) : List MetricBucketRecord :=
  let labels := rows.map fun row => bucketLabel window row.record.timestamp
  (labels.dedup.mergeSort (· ≤ ·)).map fun label => ⟨label, labels.countP (· = label)⟩

/-- `total_samples` of `get_30_day_summary`. -/
def totalSamples (rows : List (Sample V)) : Nat := rows.length

end Palworld.Metrics

import Palworld.Metrics.Conservation
import Palworld.Metrics.Store

/-!
# The recent snapshots

The query takes the rows with the highest ids, and an id says when a batch was committed. Where flushes
overlap, a batch may be committed after a younger one, or be put back behind one.
-/

open Lib

namespace Palworld.Metrics

variable {V : Type} {s t : State V} {a : Act V} {as : List (Act V)} {rows xs : List (Sample V)} {x y : Sample V}

/-- `ORDER BY id DESC LIMIT ?`, turned round. The rows come in the order of their ids. A negative limit is none. -/
def recent (limit : Int) (rows : List (Sample V)) : List (Sample V) :=
  (if limit < 0 then rows.reverse else rows.reverse.take limit.toNat).reverse

def getRecentSnapshots (limit : Int) : Db (List (Sample V)) Store.MetricsError (List (Sample V)) :=
  tryCatch (query (recent limit)) fun _ => return []

/-- Timestamps compare as the sampling times do. -/
def NoLater (x y : Sample V) : Prop := x.record.timestamp ≤ y.record.timestamp

instance : DecidableRel (NoLater (V := V)) := fun x y => inferInstanceAs (Decidable (x.record.timestamp ≤ y.record.timestamp))

/-- The `n` latest snapshots by sampling time, the oldest first. -/
def newest (n : Nat) (rows : List (Sample V)) : List (Sample V) :=
  ((rows.mergeSort fun x y => x.record.timestamp ≤ y.record.timestamp).reverse.take n).reverse

/-- The query gives the latest snapshots, for each limit. -/
def Timely (rows : List (Sample V)) : Prop := ∀ n : Nat, recent n rows = newest n rows

/-- A batch is committed when nothing younger is stored, and is put back when nothing older waits in the buffer. -/
def InTurn (s : State V) : Act V → Prop
  | .commit i => ∀ batch, s.flushes[i]? = some (.writing batch) → ∀ x ∈ s.database, ∀ y ∈ batch, NoLater x y
  | .resume i => ∀ batch, s.flushes[i]? = some (.failed batch) → ∀ x ∈ batch, ∀ y ∈ s.buffer, NoLater x y
  | _ => True

/-- The collector's clock goes forward. -/
def Increasing (s : State V) : Prop := s.appended.Pairwise fun x y => x.record.timestamp < y.record.timestamp

/-! ## The query -/

theorem sorted_mergeSort : (rows.mergeSort fun x y => x.record.timestamp ≤ y.record.timestamp).Pairwise NoLater := by
  have hsorted : (rows.mergeSort fun x y => x.record.timestamp ≤ y.record.timestamp).Pairwise
      fun x y => decide (x.record.timestamp ≤ y.record.timestamp) = true := List.pairwise_mergeSort
    (fun x y z hxy hyz => decide_eq_true ((of_decide_eq_true hxy).trans (of_decide_eq_true hyz)))
    (fun x y => by
      rw [Bool.or_eq_true, decide_eq_true_eq, decide_eq_true_eq]
      exact le_total _ _) rows
  exact hsorted.imp fun h => of_decide_eq_true h

theorem recent_all : recent rows.length rows = rows := by
  unfold recent
  rw [if_neg (by omega), Int.toNat_natCast, List.take_of_length_le (by rw [List.length_reverse]), List.reverse_reverse]

/-- The query is right where the ids follow the times, and only there. -/
theorem timely_iff : Timely rows ↔ rows.Pairwise NoLater := by
  constructor
  · intro h
    have hall := h rows.length
    have hperm := List.mergeSort_perm rows fun x y => x.record.timestamp ≤ y.record.timestamp
    unfold newest at hall
    rw [recent_all, List.take_of_length_le (by rw [List.length_reverse, hperm.length_eq]), List.reverse_reverse] at hall
    rw [hall]
    exact sorted_mergeSort
  · intro h n
    have hsame : (rows.mergeSort fun x y => x.record.timestamp ≤ y.record.timestamp) = rows :=
      List.mergeSort_of_pairwise (h.imp fun hle => decide_eq_true hle)
    unfold recent newest
    rw [hsame, if_neg (by omega), Int.toNat_natCast]

/-! ## One step -/

/-- Whatever holds snapshots has them in the order of time. -/
structure Sorted (s : State V) : Prop where
  buffer : s.buffer.Pairwise NoLater
  inFlight : ∀ flush ∈ s.flushes, flush.inFlight.Pairwise NoLater
  database : s.database.Pairwise NoLater
  known : ∀ x ∈ s.places, x ∈ s.appended

theorem appended_step (h : Step s a t) : ∃ added, t.appended = s.appended ++ added := by
  cases step_moves h with
  | append record => exact ⟨_, rfl⟩
  | startFlush => exact ⟨[], by rw [beginFlush_appended, List.append_nil]⟩
  | startRead =>
    refine ⟨[], ?_⟩
    dsimp only
    rw [beginFlush_appended, List.append_nil]
  | commit | fail | finish | putBack | query => exact ⟨[], (List.append_nil _).symm⟩

theorem known_step (hs : ∀ x ∈ s.places, x ∈ s.appended) (h : Step s a t) : ∀ x ∈ t.places, x ∈ t.appended := by
  obtain ⟨lost, -, hperm⟩ := places_step h
  obtain ⟨added, hadded⟩ := appended_step h
  intro x hx
  have hmem : x ∈ s.places ++ t.appended := hperm.mem_iff.mp (by simp [hx])
  rcases List.mem_append.mp hmem with hold | hnew
  · rw [hadded]
    exact List.mem_append_left _ (hs x hold)
  · exact hnew

theorem Sorted.set (hs : Sorted s) {i : Nat} {flush : Flush V} (hflush : flush.inFlight.Pairwise NoLater) :
    ∀ b ∈ s.flushes.set i flush, b.inFlight.Pairwise NoLater := by
  intro b hb
  rcases List.mem_or_eq_of_mem_set hb with hin | rfl
  · exact hs.inFlight b hin
  · exact hflush

theorem Sorted.batch (hs : Sorted s) {i : Nat} {flush : Flush V} (hflush : s.flushes[i]? = some flush) : flush.inFlight.Pairwise NoLater :=
  hs.inFlight flush (List.mem_of_getElem? hflush)

theorem Sorted.begin (hs : Sorted s) : s.beginFlush.buffer.Pairwise NoLater ∧ (∀ flush ∈ s.beginFlush.flushes, flush.inFlight.Pairwise NoLater) ∧
    s.beginFlush.database = s.database := by
  obtain ⟨flush, hflushes, hbuffer, -⟩ := beginFlush_flushes s
  refine ⟨by rw [beginFlush_buffer]; exact List.Pairwise.nil, fun b hb => ?_, ?_⟩
  · rw [hflushes, List.mem_append, List.mem_singleton] at hb
    rcases hb with hin | rfl
    · exact hs.inFlight b hin
    · rw [hbuffer]
      exact hs.buffer
  · unfold State.beginFlush
    split <;> rfl

theorem sorted_step (hs : Sorted s) (hinc : Increasing t) (hturn : InTurn s a) (h : Step s a t) : Sorted t := by
  have hknown := known_step hs.known h
  cases step_moves h with
  | append record =>
    refine ⟨List.pairwise_append.mpr ⟨hs.buffer, List.pairwise_singleton _ _, fun x hx y hy => ?_⟩, hs.inFlight, hs.database, hknown⟩
    have hold : x ∈ s.appended := hs.known x (by unfold State.places; simp [hx])
    exact ((List.pairwise_append.mp hinc).2.2 x hold y hy).le
  | startFlush => exact ⟨hs.begin.1, hs.begin.2.1, by rw [hs.begin.2.2]; exact hs.database, hknown⟩
  | startRead => exact ⟨hs.begin.1, hs.begin.2.1, by dsimp only; rw [hs.begin.2.2]; exact hs.database, hknown⟩
  | commit i batch hflush =>
    exact ⟨hs.buffer, hs.set List.Pairwise.nil,
      List.pairwise_append.mpr ⟨hs.database, hs.batch hflush, hturn batch hflush⟩, hknown⟩
  | fail i batch hflush =>
    have hbatch : batch.Pairwise NoLater := hs.batch hflush
    exact ⟨hs.buffer, hs.set hbatch, hs.database, hknown⟩
  | finish i batch hflush => exact ⟨hs.buffer, hs.set List.Pairwise.nil, hs.database, hknown⟩
  | putBack i batch hflush =>
    refine ⟨List.pairwise_append.mpr ⟨(hs.batch hflush).sublist (List.take_sublist 1000 batch), hs.buffer, fun x hx y hy => ?_⟩,
      hs.set List.Pairwise.nil, hs.database, hknown⟩
    exact hturn batch hflush x (List.mem_of_mem_take hx) y hy
  | query => exact ⟨hs.buffer, hs.inFlight, hs.database, hknown⟩

/-! ## A run -/

theorem sorted_initial (hs : Initial s) (hinc : Increasing s) : Sorted s := by
  refine ⟨by rw [hs.buffer]; exact List.Pairwise.nil, by rw [hs.flushes]; exact nofun, ?_, fun x hx => ?_⟩
  · rw [hs.database]
    exact hinc.imp fun h => h.le
  · unfold State.places at hx
    rw [hs.buffer, hs.flushes, hs.database] at hx
    exact hx

theorem Increasing.of_step (hinc : Increasing t) (h : Step s a t) : Increasing s := by
  obtain ⟨added, hadded⟩ := appended_step h
  unfold Increasing at hinc
  rw [hadded] at hinc
  exact (List.pairwise_append.mp hinc).1

/-- Where the batches take their turns, the recent snapshots are the latest ones, in the order of time. -/
theorem recent_in_turn (hs : Initial s) (h : Run (Only Step InTurn) s as t) (hinc : Increasing t) (connection : Session (List (Sample V)))
    (hconnection : connection.current = t.database) (hfault : ¬ connection.Faulty) (n : Nat) :
    ((getRecentSnapshots n).on connection).1 = .ok (newest n t.database) := by
  have hsorted : Increasing t → Sorted t := by
    refine h.history (P := fun _ m => Increasing m → Sorted m) (sorted_initial hs) ?_ 
    intro as m a m' _ ih hstep hinc'
    exact sorted_step (ih (hinc'.of_step hstep.1)) hinc' hstep.2 hstep.1
  have htimely := timely_iff.mpr (hsorted hinc).database
  unfold getRecentSnapshots
  rw [Db.on_query_or, if_neg hfault, hconnection, htimely n]

/-- A batch that is committed behind a younger row breaks the order at once. -/
theorem not_timely_of_overtaken (hx : x ∈ rows) (hy : y ∈ xs) (hlater : ¬ NoLater x y) : ¬ Timely (rows ++ xs) := by
  rw [timely_iff, List.pairwise_append]
  exact fun h => hlater (h.2.2 x hx y hy)

/-! ## Two flushes -/

def early : MetricSnapshotRecord Unit := ⟨lit "2026-01-01T00:00:00+00:00", ()⟩

def late : MetricSnapshotRecord Unit := ⟨lit "2026-01-01T00:00:10+00:00", ()⟩

/-- A flush fails and its batch is put back, and the next flush stores both snapshots. -/
def inTurnActs : List (Act Unit) := [.append early, .startFlush, .fail 0, .append late, .resume 0, .startFlush, .commit 1]

/-- The second flush commits before the first one. -/
def overtakenActs : List (Act Unit) := [.append early, .startFlush, .append late, .startFlush, .commit 1, .commit 0]

def bothStored (rows : List (Sample Unit)) (flushes : List (Flush Unit)) : State Unit :=
  ⟨[], rows, flushes, [], [⟨0, early⟩, ⟨1, late⟩]⟩

def putBackThenStored : State Unit := bothStored [⟨0, early⟩, ⟨1, late⟩] [.returned 0, .written [⟨0, early⟩, ⟨1, late⟩]]

def overtaken : State Unit := bothStored [⟨1, late⟩, ⟨0, early⟩] [.written [⟨0, early⟩], .written [⟨1, late⟩]]

theorem early_lt_late : early.timestamp < late.timestamp := by decide +kernel

theorem increasing_both (rows : List (Sample Unit)) (flushes : List (Flush Unit)) : Increasing (bothStored rows flushes) :=
  List.pairwise_pair.mpr early_lt_late

theorem inTurn_run : Run (Only Step InTurn) emptyState inTurnActs putBackThenStored := by
  refine .cons ⟨rfl, trivial⟩ (.cons ⟨rfl, trivial⟩ (.cons ⟨rfl, trivial⟩ (.cons ⟨rfl, trivial⟩ (.cons ⟨rfl, ?_⟩ (.cons ⟨rfl, trivial⟩
    (.cons ⟨rfl, ?_⟩ (.nil _)))))))
  · intro batch hbatch x hx y hy
    cases hbatch
    rw [List.mem_singleton.mp hx, List.mem_singleton.mp hy]
    exact early_lt_late.le
  · intro batch _ x hx
    cases hx

theorem recent_in_turn_put_back : ((getRecentSnapshots 2).on ⟨putBackThenStored.database, putBackThenStored.database, []⟩).1 =
    .ok (newest 2 putBackThenStored.database) :=
  recent_in_turn emptyState_initial inTurn_run (increasing_both _ _) ⟨putBackThenStored.database, putBackThenStored.database, []⟩ rfl
    (by decide) 2

/-- A run with one overtaken flush, after which the older snapshot is given as the latest. -/
theorem recent_overtaken : Run Step emptyState overtakenActs overtaken ∧ Increasing overtaken ∧
    ((getRecentSnapshots 1).on ⟨overtaken.database, overtaken.database, []⟩).1 = .ok [⟨0, early⟩] ∧
    newest 1 overtaken.database = [⟨1, late⟩] := by
  refine ⟨Run.of_exec rfl, increasing_both _ _, rfl, ?_⟩
  have hne : ¬ late.timestamp ≤ early.timestamp := not_le.mpr early_lt_late
  unfold newest overtaken bothStored
  simp [List.mergeSort, List.MergeSort.Internal.splitInTwo, hne]

end Palworld.Metrics

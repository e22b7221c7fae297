import Palworld.Metrics.Flush
import Mathlib.Data.List.Count
import Mathlib.Data.List.Perm.Basic
import Mathlib.Algebra.BigOperators.Group.List.Basic

/-!
# Where the snapshots are

A batch that is put back is cut off after 1000 snapshots. Nothing else drops one, and
nothing stores one twice.
-/

open Lib

namespace Palworld.Metrics

variable {V : Type} {s t : State V} {a : Act V} {as : List (Act V)}

def State.places (s : State V) : List (Sample V) := s.buffer ++ s.flushes.flatMap Flush.inFlight ++ s.database

/-- Every snapshot ever appended is in exactly one place, once. -/
def State.Conserved (s : State V) : Prop := s.places.Perm s.appended

def Fits (s : State V) (a : Act V) : Prop :=
  ∀ i batch, a = .resume i → s.flushes[i]? = some (.failed batch) → batch.length ≤ 1000

def dropped (s : State V) : Act V → Nat
  | .resume i =>
    match s.flushes[i]? with
    | some (.failed batch) => batch.length - 1000
    | _ => 0
  | _ => 0

theorem dropped_eq_zero : dropped s a = 0 ↔ Fits s a := by
  unfold Fits
  cases a with
  | resume i =>
    simp only [dropped, Act.resume.injEq]
    split
    · rename_i batch hfailed
      refine ⟨fun h j b hj hb => ?_, fun h => ?_⟩
      · subst hj
        cases hfailed.symm.trans hb
        omega
      · have := h i batch rfl hfailed
        omega
    · rename_i hother
      refine ⟨fun _ j batch hj hb => ?_, fun _ => rfl⟩
      subst hj
      exact absurd hb (hother batch)
  | append | startFlush | commit | fail | startRead | query => simp [dropped]

/-! ## One step -/

/-- Replacing one call trades what it held for what it holds. -/
theorem flatMap_set_perm {β γ : Type} {f : β → List γ} {calls : List β} {i : Nat} {b c : β} (h : calls[i]? = some b) :
    ((calls.set i c).flatMap f ++ f b).Perm (calls.flatMap f ++ f c) := by
  induction calls generalizing i with
  | nil => simp at h
  | cons call rest ih =>
    cases i with
    | zero =>
      cases h
      simp only [List.set_cons_zero, List.flatMap_cons]
      exact List.perm_append_comm.trans ((List.perm_append_comm.append_left _).trans
        (by rw [← List.append_assoc]))
    | succ i =>
      simp only [List.set_cons_succ, List.flatMap_cons, List.append_assoc]
      exact (ih (by simpa using h)).append_left _

theorem places_beginFlush (s : State V) : s.beginFlush.places.Perm s.places := by
  unfold State.beginFlush State.places
  split
  · rename_i hempty
    simp [hempty, Flush.inFlight]
  · simp only [List.flatMap_append, List.flatMap_singleton, Flush.inFlight, List.nil_append]
    exact List.perm_append_comm.append_right s.database

/-- What is in the places after a step, and what the step dropped. -/
theorem places_step (h : Step s a t) : ∃ lost : List (Sample V), lost.length = dropped s a ∧
    (t.places ++ lost ++ s.appended).Perm (s.places ++ t.appended) := by
  classical
  -- Every step but a put-back keeps the places, or adds to them what it appends.
  have of_perm {t : State V} (ha : dropped s a = 0) (hperm : t.places.Perm s.places) (happ : t.appended = s.appended) :
      ∃ lost : List (Sample V), lost.length = dropped s a ∧
        (t.places ++ lost ++ s.appended).Perm (s.places ++ t.appended) :=
    ⟨[], ha.symm, by rw [List.append_nil, happ]; exact hperm.append_right _⟩
  have of_set {i : Nat} {b c : Flush V} (hb : s.flushes[i]? = some b) (x : Sample V) :
      ((s.flushes.set i c).flatMap Flush.inFlight).count x + b.inFlight.count x =
        (s.flushes.flatMap Flush.inFlight).count x + c.inFlight.count x := by
    simpa only [List.count_append] using (flatMap_set_perm hb).count_eq x
  cases step_moves h with
  | append record =>
    refine ⟨[], rfl, List.perm_iff_count.mpr fun x => ?_⟩
    simp only [State.places, List.count_append, List.count_nil]
    omega
  | startFlush => exact of_perm rfl (places_beginFlush s) (beginFlush_appended s)
  | startRead => exact of_perm rfl (places_beginFlush s) (beginFlush_appended s)
  | query r flush inserted cutoff hread hflush => exact of_perm rfl (List.Perm.refl _) rfl
  | commit i batch hflush =>
    refine of_perm rfl (List.perm_iff_count.mpr fun x => ?_) rfl
    have hset := of_set (c := .written batch) hflush x
    simp only [Flush.inFlight, List.count_nil] at hset
    simp only [State.places, List.count_append]
    omega
  | fail i batch hflush =>
    refine of_perm rfl (List.perm_iff_count.mpr fun x => ?_) rfl
    have hset := of_set (c := .failed batch) hflush x
    simp only [Flush.inFlight] at hset
    simp only [State.places, List.count_append]
    omega
  | finish i batch hflush =>
    refine of_perm (by simp [dropped, hflush]) (List.perm_iff_count.mpr fun x => ?_) rfl
    have hset := of_set (c := .returned batch.length) hflush x
    simp only [Flush.inFlight, List.count_nil] at hset
    simp only [State.places, List.count_append]
    omega
  | putBack i batch hflush =>
    refine ⟨batch.drop 1000, by simp [dropped, hflush], List.perm_iff_count.mpr fun x => ?_⟩
    have hset := of_set (c := .returned 0) hflush x
    have hcut : batch.count x = (batch.take 1000).count x + (batch.drop 1000).count x := by
      rw [← List.count_append, List.take_append_drop]
    simp only [Flush.inFlight, List.count_nil] at hset
    simp only [State.places, List.count_append]
    omega

theorem conserved_step (hs : s.Conserved) (hfits : Fits s a) (h : Step s a t) : t.Conserved := by
  obtain ⟨lost, hlength, hperm⟩ := places_step h
  rw [dropped_eq_zero.mpr hfits, List.length_eq_zero_iff] at hlength
  subst hlength
  rw [List.append_nil] at hperm
  exact (List.perm_append_right_iff s.appended).mp
    (hperm.trans ((hs.append_right t.appended).trans List.perm_append_comm))

/-! ## A run -/

theorem conserved_initial (hs : Initial s) : s.Conserved := by
  unfold State.Conserved State.places
  rw [hs.buffer, hs.flushes, hs.database]
  exact List.Perm.refl _

/-- What is missing at the end of a run is what its steps have dropped. -/
theorem missing_run (hs : s.Conserved) (h : Run Step s as t) :
    ∃ missing, t.places.length + missing = t.appended.length ∧ (missing = 0 → Run (Only Step Fits) s as t) := by
  refine h.history (P := fun as t => ∃ missing, t.places.length + missing = t.appended.length ∧
    (missing = 0 → Run (Only Step Fits) s as t)) ⟨0, hs.length_eq, fun _ => .nil s⟩ ?_
  rintro as m a t - ⟨missing, hmissing, hfits⟩ hstep
  obtain ⟨lost, hlength, hperm⟩ := places_step hstep
  have hcount := hperm.length_eq
  simp only [List.length_append] at hcount
  refine ⟨missing + dropped m a, by omega, fun hzero => ?_⟩
  exact (hfits (by omega)).snoc ⟨hstep, dropped_eq_zero.mp (by omega)⟩

/-- **When no snapshot is lost.** Every snapshot that was ever appended is in exactly one place, once, as
long as no batch of more than 1000 snapshots has been put back, and no longer. -/
theorem conserved_iff (hs : Initial s) (h : Run Step s as t) : t.Conserved ↔ Run (Only Step Fits) s as t := by
  constructor
  · intro hconserved
    obtain ⟨missing, hmissing, hfits⟩ := missing_run (conserved_initial hs) h
    have hlength := hconserved.length_eq
    exact hfits (by omega)
  · intro hrun
    exact hrun.invariant (fun s a t hconserved hstep => conserved_step hconserved hstep.2 hstep.1) (conserved_initial hs)

/-! ## Two runs -/

def emptyState : State Unit := ⟨[], [], [], [], []⟩

theorem emptyState_initial : Initial emptyState := ⟨rfl, rfl, rfl, rfl, rfl⟩

def record : MetricSnapshotRecord Unit := ⟨lit "2026-01-01T00:00:00+00:00", ()⟩

/-- A snapshot, a flush that fails, and another snapshot before the batch is put back. -/
def putBackActs : List (Act Unit) := [.append record, .startFlush, .fail 0, .append record, .resume 0]

def putBackState : State Unit := ⟨[⟨0, record⟩, ⟨1, record⟩], [], [.returned 0], [], [⟨0, record⟩, ⟨1, record⟩]⟩

theorem put_back_conserves : putBackState.Conserved ↔ Run (Only Step Fits) emptyState putBackActs putBackState :=
  conserved_iff emptyState_initial (Run.of_exec rfl)

def samples (n : Nat) : List (Sample Unit) := (List.range n).map fun i => ⟨i, record⟩

theorem append_run (n : Nat) :
    Run Step emptyState (List.replicate n (.append record)) ⟨samples n, [], [], [], samples n⟩ := by
  induction n with
  | zero => exact .nil _
  | succ n ih =>
    rw [List.replicate_succ']
    refine ih.snoc ?_
    simp [Step, step, samples, List.range_succ]

theorem put_back_run {n : Nat} (hn : 0 < n) :
    Run Step emptyState (List.replicate n (.append record) ++ [.startFlush] ++ [.fail 0] ++ [.resume 0])
      ⟨(samples n).take 1000 ++ [], [], [.returned 0], [], samples n⟩ := by
  have hstart : Step ⟨samples n, [], [], [], samples n⟩ .startFlush ⟨[], [], [.writing (samples n)], [], samples n⟩ := by
    obtain ⟨m, rfl⟩ : ∃ m, n = m + 1 := ⟨n - 1, by omega⟩
    simp [Step, step, State.beginFlush, samples, List.range_succ_eq_map]
  have hfail : Step ⟨[], [], [.writing (samples n)], [], samples n⟩ (.fail 0)
      ⟨[], [], [.failed (samples n)], [], samples n⟩ := rfl
  have hresume : Step ⟨[], [], [.failed (samples n)], [], samples n⟩ (.resume 0)
      ⟨(samples n).take 1000 ++ [], [], [.returned 0], [], samples n⟩ := rfl
  exact (((append_run n).snoc hstart).snoc hfail).snoc hresume

/-- A flush of 1001 snapshots fails, and the newest of them is gone. -/
theorem put_back_drops : ¬ ∀ (s : State Unit) (as : List (Act Unit)) (t : State Unit),
    Initial s → Run Step s as t → t.Conserved := by
  intro h
  have hconserved := h _ _ _ emptyState_initial (put_back_run (n := 1001) (by omega))
  have hlength := hconserved.length_eq
  simp [State.places, samples, Flush.inFlight] at hlength

end Palworld.Metrics

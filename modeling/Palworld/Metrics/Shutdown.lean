import Palworld.Metrics.Conservation

/-!
# The end of the service

The collector is cancelled where it stands, what is left in the buffer is flushed once more, and
the process ends with its threads.
-/

open Lib

namespace Palworld.Metrics

/-- What leaves `flush_metrics_buffer` as an exception. -/
inductive FlushFault
  | osError
  | runtimeError
  | keyError
  | valueError
  | other
  deriving DecidableEq

/-- `metrics_collector_loop` catches it and goes on. -/
def FlushFault.caught : FlushFault → Bool
  | .osError | .runtimeError | .keyError | .valueError => true
  | .other => false

inductive Collector
  | sampling
  | flushing (flush : Nat)
  | died       -- an exception that it does not catch
  | cancelled
  deriving DecidableEq

/-- Where `lifespan` is. -/
inductive Phase
  | serving
  | stopping                -- awaits the tasks that it has cancelled
  | flushing (flush : Nat)
  | closing
  | exited
  deriving DecidableEq

structure Life (V : Type) where
  metrics : State V
  collector : Collector
  phase : Phase
  orphans : List (List (Sample V))  -- the batches of threads that nobody awaits any more
  lost : Nat                        -- how many snapshots nothing holds any more

inductive LifeAct (V : Type)
  | sample (record : MetricSnapshotRecord V) (elapsed : Bool)
  | collected
  | within (act : Act V)                         -- a handler, or the thread of a flush
  | abandon (flush : Nat) (fault : FlushFault)
  | die
  | shutdown (begun raised : Bool)
  | orphan (i : Nat) (committed : Bool)
  | finalFlush
  | finished
  | exit

variable {V : Type}

def Flush.over : Flush V → Bool
  | .returned _ => true
  | .writing _ | .written _ | .failed _ => false

/-- A flush that ends with an exception. -/
def State.settle (s : State V) (i : Nat) : State V := { s with flushes := s.flushes.set i (.returned 0) }

def State.sampled (s : State V) (record : MetricSnapshotRecord V) : State V :=
  { s with buffer := s.buffer ++ [⟨s.appended.length, record⟩], appended := s.appended ++ [⟨s.appended.length, record⟩] }

namespace Life

def run (l : Life V) (act : Act V) : Option (Life V) :=
  (step l.metrics act).map fun metrics => { l with metrics := metrics, lost := l.lost + dropped l.metrics act }

/-- Nothing suspends between the snapshot and the flush that it makes due. -/
def sample (l : Life V) (record : MetricSnapshotRecord V) (elapsed : Bool) : Life V :=
  if elapsed ∨ 1000 ≤ (l.metrics.sampled record).buffer.length then
    { l with metrics := (l.metrics.sampled record).beginFlush, collector := .flushing l.metrics.flushes.length }
  else { l with metrics := l.metrics.sampled record }

/-- What the handlers and the threads may do. -/
def Allows (l : Life V) : Act V → Prop
  | .append _ => False
  | .commit _ | .fail _ => True
  | .resume i => l.phase = .serving ∧ l.collector ≠ .flushing i
  | .startFlush | .startRead | .query _ _ => l.phase = .serving

instance (l : Life V) (act : Act V) : Decidable (l.Allows act) := by
  cases act <;> unfold Allows <;> infer_instance

/-- Whoever awaits the flush gets the exception. -/
def thrown (l : Life V) (i : Nat) (fault : FlushFault) : Life V :=
  if l.collector = .flushing i then { l with collector := if fault.caught then .sampling else .died }
  else if l.phase = .flushing i then { l with phase := .closing }
  else l

/-- The cancellation of an `await asyncio.to_thread(..)`. A thread that has begun goes on, one that has not never will. -/
def cancelFlush (l : Life V) (i : Nat) (begun : Bool) : Life V :=
  match l.metrics.flushes[i]? with
  | some (.writing batch) =>
    if begun then { l with metrics := l.metrics.settle i, orphans := l.orphans ++ [batch] }
    else { l with metrics := l.metrics.settle i, lost := l.lost + batch.length }
  | some (.failed batch) => { l with metrics := l.metrics.settle i, lost := l.lost + batch.length }
  | some (.written _) => { l with metrics := l.metrics.settle i }
  | some (.returned _) | none => l

/-- `metrics_task.cancel()`. -/
def cancelled (l : Life V) (begun : Bool) : Life V :=
  match l.collector with
  | .flushing i => { l.cancelFlush i begun with collector := .cancelled }
  | .sampling => { l with collector := .cancelled }
  | .died | .cancelled => l

/-- The server ends its requests before it shuts the application down. -/
def Answered (l : Life V) : Prop :=
  ∀ i < l.metrics.flushes.length, l.collector = .flushing i ∨ l.metrics.flushes[i]?.all Flush.over = true

instance (l : Life V) : Decidable l.Answered := inferInstanceAs (Decidable (∀ i < _, _))

/-- A task that has died raises its exception again where it is awaited, and the rest of the shutdown is skipped. -/
def stop (l : Life V) (begun raised : Bool) : Life V :=
  { l.cancelled begun with phase := if raised ∨ l.collector = .died then .closing else .stopping }

end Life

def lifeStep (l : Life V) : LifeAct V → Option (Life V)
  | .sample record elapsed => if l.phase = .serving ∧ l.collector = .sampling then some (l.sample record elapsed) else none
  | .collected =>
    match l.collector with
    | .flushing i => (l.run (.resume i)).map fun m => { m with collector := .sampling }
    | _ => none
  | .within act => if l.Allows act then l.run act else none
  | .abandon i fault =>
    match l.metrics.flushes[i]? with
    | some (.writing batch) => some { l.thrown i fault with metrics := l.metrics.settle i, lost := l.lost + batch.length }
    | _ => none
  | .die => if l.phase = .serving ∧ l.collector = .sampling then some { l with collector := .died } else none
  | .shutdown begun raised => if l.phase = .serving ∧ l.Answered then some (l.stop begun raised) else none
  | .orphan i committed =>
    match l.orphans[i]? with
    | some batch =>
      if committed then
        some { l with metrics := { l.metrics with database := l.metrics.database ++ batch }, orphans := l.orphans.eraseIdx i }
      else some { l with orphans := l.orphans.eraseIdx i, lost := l.lost + batch.length }
    | none => none
  | .finalFlush =>
    if l.phase = .stopping then some { l with metrics := l.metrics.beginFlush, phase := .flushing l.metrics.flushes.length } else none
  | .finished =>
    match l.phase with
    | .flushing i =>
      match l.metrics.flushes[i]? with
      | some (.returned _) => some { l with phase := .closing }
      | _ => (l.run (.resume i)).map fun m => { m with phase := .closing }
    | _ => none
  | .exit => if l.phase = .closing ∧ l.orphans = [] then some { l with phase := .exited } else none

def LifeStep (l : Life V) (a : LifeAct V) (m : Life V) : Prop := lifeStep l a = some m

/-- A step of the buffer, in the life of the service. -/
def Life.after (l : Life V) (act : Act V) (metrics : State V) : Life V :=
  { l with metrics := metrics, lost := l.lost + dropped l.metrics act }

inductive LifeMoves (l : Life V) : LifeAct V → Life V → Prop
  | sample (record : MetricSnapshotRecord V) (elapsed : Bool) (hserving : l.phase = .serving) (hsampling : l.collector = .sampling) :
    LifeMoves l (.sample record elapsed) (l.sample record elapsed)
  | collected (i : Nat) (metrics : State V) (hcollector : l.collector = .flushing i) (hstep : Step l.metrics (.resume i) metrics) :
    LifeMoves l .collected { l.after (.resume i) metrics with collector := .sampling }
  | within (act : Act V) (metrics : State V) (hallows : l.Allows act) (hstep : Step l.metrics act metrics) :
    LifeMoves l (.within act) (l.after act metrics)
  | abandon (i : Nat) (fault : FlushFault) (batch : List (Sample V)) (hflush : l.metrics.flushes[i]? = some (.writing batch)) :
    LifeMoves l (.abandon i fault) { l.thrown i fault with metrics := l.metrics.settle i, lost := l.lost + batch.length }
  | die (hserving : l.phase = .serving) (hsampling : l.collector = .sampling) : LifeMoves l .die { l with collector := .died }
  | shutdown (begun raised : Bool) (hserving : l.phase = .serving) (hanswered : l.Answered) :
    LifeMoves l (.shutdown begun raised) (l.stop begun raised)
  | stored (i : Nat) (batch : List (Sample V)) (horphan : l.orphans[i]? = some batch) :
    LifeMoves l (.orphan i true)
      { l with metrics := { l.metrics with database := l.metrics.database ++ batch }, orphans := l.orphans.eraseIdx i }
  | dropped (i : Nat) (batch : List (Sample V)) (horphan : l.orphans[i]? = some batch) :
    LifeMoves l (.orphan i false) { l with orphans := l.orphans.eraseIdx i, lost := l.lost + batch.length }
  | finalFlush (hstopping : l.phase = .stopping) :
    LifeMoves l .finalFlush { l with metrics := l.metrics.beginFlush, phase := .flushing l.metrics.flushes.length }
  | empty (i inserted : Nat) (hphase : l.phase = .flushing i) (hflush : l.metrics.flushes[i]? = some (.returned inserted)) :
    LifeMoves l .finished { l with phase := .closing }
  | finished (i : Nat) (metrics : State V) (hphase : l.phase = .flushing i) (hstep : Step l.metrics (.resume i) metrics) :
    LifeMoves l .finished { l.after (.resume i) metrics with phase := .closing }
  | exit (hclosing : l.phase = .closing) (horphans : l.orphans = []) : LifeMoves l .exit { l with phase := .exited }

variable {l m : Life V} {a : LifeAct V} {as : List (LifeAct V)} {s : State V} {act : Act V} {i : Nat}

theorem run_eq_some (h : l.run act = some m) : ∃ metrics, Step l.metrics act metrics ∧ m = l.after act metrics := by
  unfold Life.run at h
  obtain ⟨metrics, hstep, rfl⟩ := Option.map_eq_some_iff.mp h
  exact ⟨metrics, hstep, rfl⟩

theorem lifeStep_moves (h : LifeStep l a m) : LifeMoves l a m := by
  unfold LifeStep at h
  cases a with
  | sample record elapsed =>
    simp only [lifeStep] at h
    split at h
    · rename_i hready
      cases h
      exact .sample record elapsed hready.1 hready.2
    · cases h
  | collected =>
    simp only [lifeStep] at h
    split at h
    · rename_i i hcollector
      obtain ⟨n, hrun, rfl⟩ := Option.map_eq_some_iff.mp h
      obtain ⟨metrics, hstep, rfl⟩ := run_eq_some hrun
      exact .collected i metrics hcollector hstep
    · cases h
  | within act =>
    simp only [lifeStep] at h
    split at h
    · rename_i hallows
      obtain ⟨metrics, hstep, rfl⟩ := run_eq_some h
      exact .within act metrics hallows hstep
    · cases h
  | abandon i fault =>
    simp only [lifeStep] at h
    split at h
    · rename_i batch hflush
      cases h
      exact .abandon i fault batch hflush
    · cases h
  | die =>
    simp only [lifeStep] at h
    split at h
    · rename_i hready
      cases h
      exact .die hready.1 hready.2
    · cases h
  | shutdown begun raised =>
    simp only [lifeStep] at h
    split at h
    · rename_i hready
      cases h
      exact .shutdown begun raised hready.1 hready.2
    · cases h
  | orphan i committed =>
    simp only [lifeStep] at h
    split at h
    · rename_i batch horphan
      cases committed with
      | true =>
        cases h
        exact .stored i batch horphan
      | false =>
        cases h
        exact .dropped i batch horphan
    · cases h
  | finalFlush =>
    simp only [lifeStep] at h
    split at h
    · rename_i hstopping
      cases h
      exact .finalFlush hstopping
    · cases h
  | finished =>
    simp only [lifeStep] at h
    split at h
    · rename_i i hphase
      split at h
      · rename_i inserted hflush
        cases h
        exact .empty i inserted hphase hflush
      · obtain ⟨n, hrun, rfl⟩ := Option.map_eq_some_iff.mp h
        obtain ⟨metrics, hstep, rfl⟩ := run_eq_some hrun
        exact .finished i metrics hphase hstep
    · cases h
  | exit =>
    simp only [lifeStep] at h
    split at h
    · rename_i hready
      cases h
      exact .exit hready.1 hready.2
    · cases h

/-! ## Where the snapshots are -/

/-- While the service ends, only the flush that `lifespan` awaits is under way. -/
structure Life.Ordered (l : Life V) : Prop where
  awaited : ∀ i, l.collector = .flushing i → l.phase = .serving
  settled : l.phase ≠ .serving → ∀ (i : Nat) (flush : Flush V), l.metrics.flushes[i]? = some flush → l.phase = .flushing i ∨ flush.over = true
  alone : l.phase = .exited → l.orphans = []

theorem set_cases {α : Type} {xs : List α} {x y : α} {j : Nat} (h : (xs.set i x)[j]? = some y) : j = i ∧ x = y ∨ j ≠ i ∧ xs[j]? = some y := by
  by_cases hij : i = j
  · subst hij
    rw [List.getElem?_set_self'] at h
    obtain ⟨-, -, rfl⟩ := Option.map_eq_some_iff.mp h
    exact .inl ⟨rfl, rfl⟩
  · rw [List.getElem?_set_ne hij] at h
    exact .inr ⟨Ne.symm hij, h⟩

/-- Once the service ends, only the thread of a flush moves: it commits its batch, or its write fails. -/
theorem thread_of_within {metrics : State V} (hphase : l.phase ≠ .serving) (hallows : l.Allows act) (h : Step l.metrics act metrics) :
    ∃ i batch, l.metrics.flushes[i]? = some (.writing batch) ∧
      ((act = .commit i ∧ metrics = { l.metrics with flushes := l.metrics.flushes.set i (.written batch), database := l.metrics.database ++ batch }) ∨
        act = .fail i ∧ metrics = { l.metrics with flushes := l.metrics.flushes.set i (.failed batch) }) := by
  cases step_moves h with
  | append => exact hallows.elim
  | startFlush => exact absurd hallows hphase
  | startRead => exact absurd hallows hphase
  | query => exact absurd hallows hphase
  | finish => exact absurd hallows.1 hphase
  | putBack => exact absurd hallows.1 hphase
  | commit i batch hflush => exact ⟨i, batch, hflush, .inl ⟨rfl, rfl⟩⟩
  | fail i batch hflush => exact ⟨i, batch, hflush, .inr ⟨rfl, rfl⟩⟩

structure Life.Started (l : Life V) : Prop where
  metrics : Initial l.metrics
  collector : l.collector = .sampling
  phase : l.phase = .serving
  orphans : l.orphans = []
  lost : l.lost = 0

def started : Life Unit := ⟨emptyState, .sampling, .serving, [], 0⟩

/-- A write may fail as long as what it puts back fits, unless it is the last write, or the one that the shutdown cancels. -/
def Careful (l : Life V) : LifeAct V → Prop
  | .within act => Fits l.metrics act ∧ ∀ i, act = .fail i → l.phase ≠ .flushing i
  | .collected => ∀ i, l.collector = .flushing i → Fits l.metrics (.resume i)
  | .abandon _ _ | .die => False
  | .shutdown begun raised => raised = false ∧ ∀ i, l.collector = .flushing i → ∀ batch,
    l.metrics.flushes[i]? ≠ some (.failed batch) ∧ (l.metrics.flushes[i]? = some (.writing batch) → begun = true)
  | .orphan _ committed => committed = true
  | .sample _ _ | .finalFlush | .finished | .exit => True

/-- The last flush has been begun. -/
def Phase.Ending : Phase → Prop
  | .flushing _ | .closing | .exited => True
  | .serving | .stopping => False

structure Life.Kept (l : Life V) : Prop where
  lost : l.lost = 0
  alive : l.collector ≠ .died
  written : ∀ i batch, l.phase = .flushing i → l.metrics.flushes[i]? ≠ some (.failed batch)
  flushed : l.phase.Ending → l.metrics.buffer = []

theorem kept_before (hlost : m.lost = 0) (halive : m.collector ≠ .died) (hphase : m.phase = .serving ∨ m.phase = .stopping) : m.Kept where
  lost := hlost
  alive := halive
  written i batch hi := by
    rw [hi] at hphase
    simp at hphase
  flushed hending := by
    rcases hphase with h | h
    · rw [h] at hending
      exact hending.elim
    · rw [h] at hending
      exact hending.elim

theorem lost_after (hlost : l.lost = 0) (hfits : Fits l.metrics act) : l.lost + dropped l.metrics act = 0 := by
  rw [hlost, dropped_eq_zero.mpr hfits]

theorem lost_cancelled {begun : Bool} (hlost : l.lost = 0) (hcancel : ∀ i, l.collector = .flushing i → ∀ batch,
    l.metrics.flushes[i]? ≠ some (.failed batch) ∧ (l.metrics.flushes[i]? = some (.writing batch) → begun = true)) :
    (l.cancelled begun).lost = 0 := by
  unfold Life.cancelled
  split
  · rename_i i hcollector
    have hcancel := hcancel i hcollector
    unfold Life.cancelFlush
    dsimp only
    split
    · rename_i batch hflush
      rw [if_pos ((hcancel batch).2 hflush)]
      exact hlost
    · rename_i batch hflush
      exact absurd hflush (hcancel batch).1
    · exact hlost
    · exact hlost
    · exact hlost
  · exact hlost
  · exact hlost
  · exact hlost

theorem kept_step (hl : l.Kept) (hordered : l.Ordered) (hcareful : Careful l a) (h : LifeStep l a m) : m.Kept := by
  cases lifeStep_moves h with
  | sample record elapsed hserving hsampling =>
    unfold Life.sample
    split
    · exact kept_before hl.lost (by simp) (.inl hserving)
    · exact kept_before hl.lost hl.alive (.inl hserving)
  | collected i metrics hcollector hstep =>
    have hlost : (l.after (.resume i) metrics).lost = 0 := lost_after hl.lost (hcareful i hcollector)
    exact kept_before hlost (by simp) (.inl (hordered.awaited i hcollector))
  | within act metrics hallows hstep =>
    have hlost : (l.after act metrics).lost = 0 := lost_after hl.lost hcareful.1
    by_cases hphase : l.phase = .serving
    · exact kept_before hlost hl.alive (.inl hphase)
    · obtain ⟨i, batch, -, hmoves⟩ := thread_of_within hphase hallows hstep
      rcases hmoves with ⟨rfl, rfl⟩ | ⟨rfl, rfl⟩
      · refine ⟨hlost, hl.alive, fun j other hj hfailed => ?_, hl.flushed⟩
        rcases set_cases hfailed with ⟨-, hnew⟩ | ⟨-, hold⟩
        · cases hnew
        · exact hl.written j other hj hold
      · refine ⟨hlost, hl.alive, fun j other hj hfailed => ?_, hl.flushed⟩
        rcases set_cases hfailed with ⟨rfl, -⟩ | ⟨-, hold⟩
        · exact hcareful.2 j rfl hj
        · exact hl.written j other hj hold
  | abandon => exact hcareful.elim
  | die => exact hcareful.elim
  | shutdown begun raised hserving hanswered =>
    obtain ⟨hraised, hcancel⟩ := hcareful
    have halive : (l.cancelled begun).collector ≠ .died := by
      unfold Life.cancelled
      split
      · simp
      · simp
      · rename_i hdied
        exact absurd hdied hl.alive
      · rename_i hcancelled
        simp [hcancelled]
    refine kept_before (lost_cancelled hl.lost hcancel) halive (.inr ?_)
    unfold Life.stop
    simp [hraised, hl.alive]
  | stored i batch horphan => exact ⟨hl.lost, hl.alive, hl.written, hl.flushed⟩
  | dropped => simp [Careful] at hcareful
  | finalFlush hstopping =>
    obtain ⟨new, hflushes, -, hnew⟩ := beginFlush_flushes l.metrics
    refine ⟨hl.lost, hl.alive, fun j batch hj => ?_, fun _ => beginFlush_buffer _⟩
    cases hj
    dsimp only
    rw [hflushes, List.getElem?_concat_length]
    simpa using hnew batch
  | empty i inserted hi hflush => exact ⟨hl.lost, hl.alive, by simp, fun _ => hl.flushed (by rw [hi]; trivial)⟩
  | finished i metrics hi hstep =>
    have hbuffer := hl.flushed (by rw [hi]; trivial)
    cases step_moves hstep with
    | finish _ batch hflush =>
      refine ⟨lost_after hl.lost ?_, hl.alive, by simp, fun _ => hbuffer⟩
      rintro j other ⟨⟩ hfailed
      cases hflush.symm.trans hfailed
    | putBack _ batch hflush => exact absurd hflush (hl.written i batch hi)
  | exit hclosing horphans => exact ⟨hl.lost, hl.alive, by simp, fun _ => hl.flushed (by rw [hclosing]; trivial)⟩

def stored : Life Unit := ⟨⟨[], [⟨0, record⟩], [.returned 0, .returned 0], [], [⟨0, record⟩]⟩, .cancelled, .exited, [], 0⟩

end Palworld.Metrics

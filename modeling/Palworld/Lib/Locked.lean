import Palworld.Lib.Program
import Palworld.Lib.Run
import Mathlib.Logic.Function.Basic

/-!
# Workers under one lock

Each worker runs a program between taking the lock and releasing it. However the workers are
interleaved, their programs run one after another, and at most one is under way.
-/

namespace Lib

inductive Phase (C : Calls) (α : Type)
  | idle
  | waiting
  | running (p : Program C α)
  | over

structure Workers (C : Calls) (τ σ α : Type) where
  store : σ
  holder : Option τ
  phase : τ → Phase C α
  results : List (τ × α)

namespace Workers

variable {C : Calls} {τ σ α : Type}

def start (s : σ) : Workers C τ σ α := ⟨s, none, fun _ => .idle, []⟩

variable (does : (op : C.Op) → σ → C.Answer op → σ → Prop) (program : τ → Program C α)

/-- The programs of some workers, one after another. -/
inductive Serial : σ → List (τ × α) → σ → Prop
  | nil (s : σ) : Serial s [] s
  | snoc {s m u : σ} {results : List (τ × α)} {t : τ} {a : α} (before : Serial s results m)
    (last : Program.Reaches does (program t, m) (.done a, u)) : Serial s (results ++ [(t, a)]) u

/-- The programs that are over have run one after another, and the worker with the lock is in the middle of the next one. -/
structure Serialized (s : σ) (w : Workers C τ σ α) : Prop where
  alone : ∀ t p, w.phase t = .running p → w.holder = some t
  free : w.holder = none → Serial does program s w.results w.store
  held : ∀ t, w.holder = some t → ∃ p m, w.phase t = .running p ∧ Serial does program s w.results m ∧
    Program.Reaches does (program t, m) (p, w.store)

/-- What a worker does next. -/
inductive Step [DecidableEq τ] : Workers C τ σ α → τ → Workers C τ σ α → Prop
  | request {w : Workers C τ σ α} {t : τ} (h : w.phase t = .idle) :
    Step w t { w with phase := Function.update w.phase t .waiting }
  | acquire {w : Workers C τ σ α} {t : τ} (h : w.phase t = .waiting) (hfree : w.holder = none) :
    Step w t { w with holder := some t, phase := Function.update w.phase t (.running (program t)) }
  | call {w : Workers C τ σ α} {t : τ} {op : C.Op} {next : C.Answer op → Program C α} {answer : C.Answer op} {s : σ}
    (h : w.phase t = .running (.call op next)) (hdoes : does op w.store answer s) :
    Step w t { w with store := s, phase := Function.update w.phase t (.running (next answer)) }
  | release {w : Workers C τ σ α} {t : τ} {a : α} (h : w.phase t = .running (.done a)) :
    Step w t { w with holder := none, phase := Function.update w.phase t .over, results := w.results ++ [(t, a)] }

variable {does program} {s : σ} {w w' : Workers C τ σ α} {t : τ}

theorem serialized_start : Serialized does program s (start s : Workers C τ σ α) := by
  refine ⟨fun t p h => ?_, fun _ => .nil s, fun t h => ?_⟩
  · cases h
  · cases h

/-- What every program keeps, a serial run keeps. -/
theorem Serial.invariant {J : List (τ × α) → σ → Prop} {results : List (τ × α)} {u : σ} (h : Serial does program s results u) (hs : J [] s)
    (hstep : ∀ results m t a u, J results m → Program.Reaches does (program t, m) (.done a, u) → J (results ++ [(t, a)]) u) : J results u := by
  induction h with
  | nil => exact hs
  | snoc _ last ih => exact hstep _ _ _ _ _ ih last

variable [DecidableEq τ]

/-- The phase of another worker is untouched. -/
theorem running_of_update {phase : τ → Phase C α} {u : τ} {p : Program C α} {new : Phase C α} (hnew : ∀ q, new ≠ .running q)
    (h : Function.update phase t new u = .running p) : u ≠ t ∧ phase u = .running p := by
  by_cases hu : u = t
  · subst hu
    rw [Function.update_self] at h
    exact absurd h (hnew p)
  · exact ⟨hu, by rwa [Function.update_of_ne hu] at h⟩

theorem serialized_step (h : Serialized does program s w) (hstep : Step does program w t w') : Serialized does program s w' := by
  cases hstep with
  | request hidle =>
    have hnew : ∀ q : Program C α, Phase.waiting ≠ .running q := by simp
    refine ⟨fun u p hu => h.alone u p (running_of_update hnew hu).2, h.free, fun u hu => ?_⟩
    obtain ⟨p, m, hp, hserial, hreaches⟩ := h.held u hu
    have hne : u ≠ t := by
      rintro rfl
      rw [hidle] at hp
      cases hp
    exact ⟨p, m, (Function.update_of_ne hne _ _).trans hp, hserial, hreaches⟩
  | acquire hwaiting hfree =>
    have hnone : ∀ u p, w.phase u ≠ .running p := by
      intro u p hu
      have hheld := h.alone u p hu
      rw [hfree] at hheld
      cases hheld
    refine ⟨fun u p hu => ?_, fun hnone => (by cases hnone), fun u hu => ?_⟩
    · by_cases hut : u = t
      · rw [hut]
      · exact absurd ((Function.update_of_ne hut _ _).symm.trans hu) (hnone u p)
    · cases hu
      exact ⟨program t, w.store, Function.update_self .., h.free hfree, .refl⟩
  | call hrunning hdoes =>
    have hholder := h.alone t _ hrunning
    refine ⟨fun u p hu => ?_, fun hnone => ?_, fun u hu => ?_⟩
    · by_cases hut : u = t
      · rw [hut]
        exact hholder
      · exact h.alone u p ((Function.update_of_ne hut _ _).symm.trans hu)
    · rw [hholder] at hnone
      cases hnone
    · obtain rfl : t = u := Option.some.inj (hholder.symm.trans hu)
      obtain ⟨p, m, hp, hserial, hreaches⟩ := h.held t hholder
      rw [hrunning] at hp
      cases hp
      exact ⟨_, m, Function.update_self .., hserial, hreaches.tail (.call hdoes)⟩
  | release hdone =>
    have hnew : ∀ q : Program C α, Phase.over ≠ .running q := by simp
    have hholder := h.alone t _ hdone
    obtain ⟨p, m, hp, hserial, hreaches⟩ := h.held t hholder
    rw [hdone] at hp
    cases hp
    refine ⟨fun u p hu => ?_, fun _ => .snoc hserial hreaches, fun u hu => (by cases hu)⟩
    obtain ⟨hne, hu⟩ := running_of_update hnew hu
    exact absurd (Option.some.inj ((h.alone u p hu).symm.trans hholder)) hne

/-- A worker that no other disturbs. -/
theorem run_alone (hidle : w.phase t = .idle) (hfree : w.holder = none) {p : Program C α} {u : σ}
    (h : Program.Reaches does (program t, w.store) (p, u)) :
    ∃ ts, Run (Step does program) w ts ⟨u, some t, Function.update w.phase t (.running p), w.results⟩ := by
  generalize hto : (p, u) = stop at h
  induction h generalizing p u with
  | refl =>
    cases hto
    refine ⟨[t, t], .cons (.request hidle) (.cons (.acquire (Function.update_self ..) hfree) ?_)⟩
    rw [Function.update_idem]
    exact .nil _
  | tail _ hstep ih =>
    subst hto
    cases hstep with
    | @call op next m u answer hdoes =>
      obtain ⟨ts, hrun⟩ := ih rfl
      have hphase : Function.update w.phase t (.running (.call op next)) t = .running (.call op next) := Function.update_self ..
      have hcall : Step does program ⟨m, some t, Function.update w.phase t (.running (.call op next)), w.results⟩ t
          ⟨u, some t, Function.update (Function.update w.phase t (.running (.call op next))) t (.running (next answer)), w.results⟩ :=
        .call hphase hdoes
      rw [Function.update_idem] at hcall
      exact ⟨ts ++ [t], hrun.snoc hcall⟩

/-- A worker that no other disturbs, to its end. -/
theorem run_finished (hidle : w.phase t = .idle) (hfree : w.holder = none) {a : α} {u : σ}
    (h : Program.Reaches does (program t, w.store) (.done a, u)) :
    ∃ ts, Run (Step does program) w ts ⟨u, none, Function.update w.phase t .over, w.results ++ [(t, a)]⟩ := by
  obtain ⟨ts, hrun⟩ := run_alone hidle hfree h
  have hphase : Function.update w.phase t (.running (.done a)) t = .running (.done a) := Function.update_self ..
  have hrelease : Step does program ⟨u, some t, Function.update w.phase t (.running (.done a)), w.results⟩ t
      ⟨u, none, Function.update (Function.update w.phase t (.running (.done a))) t .over, w.results ++ [(t, a)]⟩ := .release hphase
  rw [Function.update_idem] at hrelease
  exact ⟨ts ++ [t], hrun.snoc hrelease⟩

/-- **Serialisation.** Every interleaving is a serial run. -/
theorem serialized_run {ts : List τ} (hrun : Run (Step does program) (start s) ts w) : Serialized does program s w :=
  hrun.invariant (fun _ _ _ => serialized_step) serialized_start

end Workers

end Lib

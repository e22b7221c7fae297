import Mathlib.Tactic.Common
import Mathlib.Data.List.Induction

/-!
# Runs of a labelled transition relation

`R s a t` says that action `a` may take state `s` to state `t`. A run is a list
of such steps. An invariant is proved of one step and then holds of a run.
-/

namespace Lib

variable {σ α : Type*} {R R' : σ → α → σ → Prop} {s t m : σ} {a : α} {as bs : List α}

/-- From `s`, the actions `as` taken in order lead to `t`. -/
inductive Run (R : σ → α → σ → Prop) : σ → List α → σ → Prop
  | nil (s : σ) : Run R s [] s
  | cons {s m t : σ} {a : α} {as : List α} (head : R s a m) (tail : Run R m as t) :
    Run R s (a :: as) t

/-- The steps of `R` that meet a condition on the action and the state before it. -/
def Only (R : σ → α → σ → Prop) (cond : σ → α → Prop) (s : σ) (a : α) (t : σ) : Prop :=
  R s a t ∧ cond s a

/-- Some run from an initial state ends in `t`. -/
def Reachable (init : σ → Prop) (R : σ → α → σ → Prop) (t : σ) : Prop :=
  ∃ s as, init s ∧ Run R s as t

/-- The state a list of actions leads to, when each of them is enabled in turn. -/
def exec (step : σ → α → Option σ) : σ → List α → Option σ
  | s, [] => some s
  | s, a :: as => (step s a).bind fun m => exec step m as

namespace Run

theorem of_exec {step : σ → α → Option σ} (h : exec step s as = some t) :
    Run (fun s a t => step s a = some t) s as t := by
  induction as generalizing s with
  | nil => exact Option.some.inj h ▸ .nil s
  | cons a as ih =>
    obtain ⟨m, hm, hrest⟩ := Option.bind_eq_some_iff.mp h
    exact .cons hm (ih hrest)

theorem exec_eq {step : σ → α → Option σ} (h : Run (fun s a t => step s a = some t) s as t) :
    exec step s as = some t := by
  induction h with
  | nil => rfl
  | cons head _ ih => simp only [exec, head, Option.bind_some, ih]

theorem one (h : R s a t) : Run R s [a] t := .cons h (.nil t)

theorem append (h : Run R s as m) (k : Run R m bs t) : Run R s (as ++ bs) t := by
  induction h with
  | nil => exact k
  | cons head _ ih => exact .cons head (ih k)

theorem snoc (h : Run R s as m) (k : R m a t) : Run R s (as ++ [a]) t := h.append (one k)

theorem split (h : Run R s (as ++ bs) t) : ∃ m, Run R s as m ∧ Run R m bs t := by
  induction as generalizing s with
  | nil => exact ⟨s, .nil s, h⟩
  | cons a as ih =>
    cases h with
    | cons head tail =>
      obtain ⟨m, hm, hrest⟩ := ih tail
      exact ⟨m, .cons head hm, hrest⟩

theorem mono (hR : ∀ s a t, R s a t → R' s a t) (h : Run R s as t) : Run R' s as t := by
  induction h with
  | nil s => exact .nil s
  | cons head _ ih => exact .cons (hR _ _ _ head) ih

/-- What every step keeps, every run keeps. -/
theorem invariant {I : σ → Prop} (hstep : ∀ s a t, I s → R s a t → I t) (h : Run R s as t)
    (hs : I s) : I t := by
  induction h with
  | nil => exact hs
  | cons head _ ih => exact ih (hstep _ _ _ hs head)

theorem history {P : List α → σ → Prop} (hnil : P [] s)
    (hstep : ∀ as m a t, Run R s as m → P as m → R m a t → P (as ++ [a]) t) (h : Run R s as t) : P as t := by
  induction as using List.reverseRecOn generalizing t with
  | nil => cases h; exact hnil
  | append_singleton as a ih =>
    obtain ⟨m, hm, hlast⟩ := h.split
    cases hlast with
    | cons head tail =>
      cases tail
      exact hstep as m a _ hm (ih hm) head

theorem of_only {cond : σ → α → Prop} (h : Run (Only R cond) s as t) : Run R s as t :=
  h.mono fun _ _ _ hs => hs.1

theorem only {cond : σ → α → Prop} (h : Run R s as t) (hcond : ∀ a ∈ as, ∀ s, cond s a) :
    Run (Only R cond) s as t := by
  induction h with
  | nil s => exact .nil s
  | cons head _ ih =>
    rw [List.forall_mem_cons] at hcond
    exact .cons ⟨head, hcond.1 _⟩ (ih hcond.2)

theorem only_of_exec {step : σ → α → Option σ} {cond : σ → α → Prop} [∀ s a, Decidable (cond s a)]
    (h : exec (fun s a => if cond s a then step s a else none) s as = some t) :
    Run (Only (fun s a t => step s a = some t) cond) s as t := by
  refine (of_exec h).mono fun s a t hstep => ?_
  split at hstep
  · exact ⟨hstep, ‹_›⟩
  · cases hstep

theorem det (hdet : ∀ s a t t', R s a t → R s a t' → t = t') {t' : σ} (h : Run R s as t) (k : Run R s as t') :
    t = t' := by
  induction h with
  | nil => cases k; rfl
  | cons head _ ih =>
    cases k with
    | cons head' tail' =>
      obtain rfl := hdet _ _ _ _ head head'
      exact ih tail'

theorem both {cond cond' : σ → α → Prop} (hdet : ∀ s a t t', R s a t → R s a t' → t = t')
    (h : Run (Only R cond) s as t) {t' : σ} (k : Run (Only R cond') s as t') :
    Run (Only (Only R cond) cond') s as t := by
  induction h with
  | nil s => exact .nil s
  | cons head _ ih =>
    cases k with
    | cons head' tail' =>
      obtain rfl := hdet _ _ _ _ head.1 head'.1
      exact .cons ⟨head, head'.2⟩ (ih tail')

end Run

namespace Reachable

variable {init : σ → Prop}

theorem of_init (h : init s) : Reachable init R s := ⟨s, [], h, .nil s⟩

theorem step (h : Reachable init R s) (k : R s a t) : Reachable init R t := by
  obtain ⟨s₀, as, h0, hrun⟩ := h
  exact ⟨s₀, as ++ [a], h0, hrun.snoc k⟩

theorem invariant {I : σ → Prop} (hinit : ∀ s, init s → I s)
    (hstep : ∀ s a t, I s → R s a t → I t) (h : Reachable init R t) : I t := by
  obtain ⟨s, as, h0, hrun⟩ := h
  exact hrun.invariant hstep (hinit s h0)

end Reachable

end Lib

import Mathlib.Logic.Relation
import Mathlib.Tactic.Common

/-!
# Programs that call a host

A program calls operations and goes on with what they answer. What a call may answer and leave is
a relation, so that a host may fail where it likes.
-/

namespace Lib

/-- The operations of a host, and what each answers. -/
structure Calls where
  Op : Type
  Answer : Op → Type

inductive Program (C : Calls) (α : Type) : Type
  | done (a : α)
  | call (op : C.Op) (next : C.Answer op → Program C α)

namespace Program

variable {C : Calls} {σ α β γ ε : Type}

def bind : Program C α → (α → Program C β) → Program C β
  | done a, f => f a
  | call op next, f => call op fun answer => (next answer).bind f

instance : Monad (Program C) where
  pure := done
  bind := bind

/-- One call and its answer. -/
def ask (op : C.Op) : Program C (C.Answer op) := call op done

/-- A program for each of a list, in order. -/
def mapEach (f : β → Program C γ) : List β → Program C (List γ)
  | [] => pure []
  | b :: bs => do
    let c ← f b
    let cs ← mapEach f bs
    pure (c :: cs)

/-- What a program that may raise answers, if it does not. -/
def attempt (p : ExceptT ε (Program C) α) : Program C (Option α) := do
  match ← p.run with
  | .ok a => pure (some a)
  | .error _ => pure none

/-- Some calls of a program, with a choice of the host for each. -/
def exec {κ : Type} (run : κ → (op : C.Op) → σ → C.Answer op × σ) : List κ → Program C α × σ → Program C α × σ
  | [], start => start
  | _ :: _, (done a, s) => (done a, s)
  | choice :: choices, (call op next, s) => exec run choices (next (run choice op s).1, (run choice op s).2)

section

variable (does : (op : C.Op) → σ → C.Answer op → σ → Prop)

/-- One call is made. -/
inductive Step : Program C α × σ → Program C α × σ → Prop
  | call {op : C.Op} {next : C.Answer op → Program C α} {s t : σ} {answer : C.Answer op} (h : does op s answer t) :
    Step (call op next, s) (next answer, t)

/-- Some calls are made. -/
abbrev Reaches : Program C α × σ → Program C α × σ → Prop := Relation.ReflTransGen (Step does)

/-- `I` holds in every state from here to the end, and `Q` at the end. -/
def Always (I : σ → Prop) : Program C α → (α → σ → Prop) → σ → Prop
  | done a, Q, s => I s ∧ Q a s
  | call op next, Q, s => I s ∧ ∀ answer t, does op s answer t → (next answer).Always I Q t

end

variable {does : (op : C.Op) → σ → C.Answer op → σ → Prop} {I J : σ → Prop} {p : Program C α} {f : α → Program C β} {s t : σ}

theorem Always.now {Q : α → σ → Prop} (h : p.Always does I Q s) : I s := by
  cases p with
  | done a => exact h.1
  | call op next => exact h.1

theorem Always.mono {Q R : α → σ → Prop} (h : p.Always does I Q s) (hI : ∀ t, I t → J t) (hQ : ∀ a t, I t → Q a t → R a t) :
    p.Always does J R s := by
  induction p generalizing s with
  | done a => exact ⟨hI s h.1, hQ a s h.1 h.2⟩
  | call op next ih => exact ⟨hI s h.1, fun answer t hdoes => ih answer (h.2 answer t hdoes)⟩

theorem Always.post {Q R : α → σ → Prop} (h : p.Always does I Q s) (hQ : ∀ a t, I t → Q a t → R a t) : p.Always does I R s :=
  h.mono (fun _ => id) hQ

theorem always_pure {a : α} {Q : α → σ → Prop} (hI : I s) (hQ : Q a s) : (pure a : Program C α).Always does I Q s := ⟨hI, hQ⟩

/-- One program after another. -/
theorem always_bind {Q : β → σ → Prop} (h : p.Always does I (fun a t => (f a).Always does I Q t) s) : (p >>= f).Always does I Q s := by
  induction p generalizing s with
  | done a => exact h.2
  | call op next ih => exact ⟨h.1, fun answer t hdoes => ih answer (h.2 answer t hdoes)⟩

theorem always_ask {op : C.Op} {Q : C.Answer op → σ → Prop} (hI : I s) (h : ∀ answer t, does op s answer t → I t ∧ Q answer t) :
    (ask op).Always does I Q s := ⟨hI, h⟩

/-- One round for each of a list. `J` tells what holds while some of them are left. -/
theorem always_forM {J : List β → σ → Prop} {f : β → Program C PUnit} {bs : List β} (hstart : J bs s)
    (hround : ∀ b rest s, J (b :: rest) s → (f b).Always does I (fun _ t => J rest t) s) (hend : ∀ t, J [] t → I t) :
    (bs.forM f).Always does I (fun _ t => J [] t) s := by
  induction bs generalizing s with
  | nil => exact always_pure (hend s hstart) hstart
  | cons b bs ih =>
    show (f b >>= fun _ => bs.forM f).Always does I _ s
    exact always_bind ((hround b bs s hstart).post fun _ t _ hrest => ih hrest)

theorem always_mapEach {R : β → γ → Prop} {f : β → Program C γ} {bs : List β} (hJ : J s) (hI : ∀ t, J t → I t)
    (hround : ∀ b s, J s → (f b).Always does I (fun c t => J t ∧ R b c) s) :
    (mapEach f bs).Always does I (fun cs t => J t ∧ List.Forall₂ R bs cs) s := by
  induction bs generalizing s with
  | nil => exact always_pure (hI s hJ) ⟨hJ, .nil⟩
  | cons b bs ih =>
    apply always_bind
    refine (hround b s hJ).post fun c t _ hc => ?_
    apply always_bind
    refine (ih hc.1).post fun cs u hu hcs => ?_
    exact always_pure hu ⟨hcs.1, .cons hc.2 hcs.2⟩

/-! ### Programs that may raise -/

variable {x : ExceptT ε (Program C) α} {g : α → ExceptT ε (Program C) β} {handler : ε → ExceptT ε (Program C) α}

theorem always_attempt {Q : Option α → σ → Prop} (h : x.run.Always does I (fun r t => Q r.toOption t) s) : (attempt x).Always does I Q s := by
  apply always_bind
  refine h.post fun r t hI hQ => ?_
  cases r with
  | ok a => exact always_pure hI hQ
  | error err => exact always_pure hI hQ

/-- What the next step starts from, or what is raised. -/
def Rest (does : (op : C.Op) → σ → C.Answer op → σ → Prop) (I : σ → Prop) (g : α → ExceptT ε (Program C) β) (Q : Except ε β → σ → Prop) :
    Except ε α → σ → Prop
  | .ok a, t => (g a).run.Always does I Q t
  | .error err, t => Q (.error err) t

theorem always_then {Q : Except ε β → σ → Prop} (h : x.run.Always does I (Rest does I g Q) s) : (x >>= g).run.Always does I Q s := by
  refine always_bind (h.post fun r t hI hrest => ?_)
  cases r with
  | ok a => exact hrest
  | error err => exact always_pure hI hrest

/-- What every step keeps. -/
theorem keeps_then {K : σ → Prop} (h : x.run.Always does I (fun _ t => K t) s)
    (hnext : ∀ a t, I t → K t → (g a).run.Always does I (fun _ t => K t) t) : (x >>= g).run.Always does I (fun _ t => K t) s := by
  refine always_then (h.post fun r t hI hK => ?_)
  cases r with
  | ok a => exact hnext a t hI hK
  | error err => exact hK

theorem always_tryCatch {Q : Except ε α → σ → Prop}
    (h : x.run.Always does I (fun r t => match r with
      | .ok a => Q (.ok a) t
      | .error err => (handler err).run.Always does I Q t) s) : (tryCatch x handler).run.Always does I Q s := by
  refine always_bind (h.post fun r t hI hrest => ?_)
  cases r with
  | ok a => exact always_pure hI hrest
  | error err => exact hrest

theorem always_return {a : α} {Q : Except ε α → σ → Prop} (hI : I s) (hQ : Q (.ok a) s) :
    (pure a : ExceptT ε (Program C) α).run.Always does I Q s := ⟨hI, hQ⟩

theorem always_throw {err : ε} {Q : Except ε α → σ → Prop} (hI : I s) (hQ : Q (.error err) s) :
    (throw err : ExceptT ε (Program C) α).run.Always does I Q s := ⟨hI, hQ⟩

theorem always_lift {q : Program C α} {Q : Except ε α → σ → Prop} (h : q.Always does I (fun a t => Q (.ok a) t) s) :
    (liftM q : ExceptT ε (Program C) α).run.Always does I Q s := by
  refine always_bind (h.post fun a t hI hQ => ?_)
  exact always_pure hI hQ

/-! ### Runs -/

/-- What a program always does, it does on the way. -/
theorem Always.step {Q : α → σ → Prop} {p p' : Program C α} (h : p.Always does I Q s) (hstep : Step does (p, s) (p', t)) :
    p'.Always does I Q t := by
  cases hstep with
  | call hdoes => exact h.2 _ _ hdoes

theorem Always.reaches {Q : α → σ → Prop} {p p' : Program C α} (h : p.Always does I Q s) (hreaches : Reaches does (p, s) (p', t)) :
    p'.Always does I Q t := by
  generalize hfrom : (p, s) = start at hreaches
  generalize hto : (p', t) = stop at hreaches
  induction hreaches generalizing p' t with
  | refl =>
    cases hfrom.trans hto.symm
    exact h
  | tail _ hstep ih =>
    subst hto
    exact (ih rfl).step hstep

theorem reaches_exec {κ : Type} {run : κ → (op : C.Op) → σ → C.Answer op × σ} {choices : List κ}
    (hdoes : ∀ choice ∈ choices, ∀ op s, does op s (run choice op s).1 (run choice op s).2) (start : Program C α × σ) :
    Reaches does start (exec run choices start) := by
  induction choices generalizing start with
  | nil => exact .refl
  | cons choice choices ih =>
    rcases start with ⟨a | ⟨op, next⟩, s⟩
    · exact .refl
    · refine .head (.call (hdoes choice List.mem_cons_self op s)) ?_
      exact ih (fun other hother => hdoes other (List.mem_cons_of_mem _ hother)) _

end Program

end Lib

import Mathlib.Tactic.Common

/-!
# Statements on a shared connection

A connection opens a transaction before its first write and keeps it open until a commit.
A statement that raises changes nothing itself, and does not undo the statements before it.
-/

namespace Lib

variable {σ ε α β : Type}

/-- A connection, with the outcomes of its next statements: `true` raises. -/
structure Session (σ : Type) where
  stored : σ   -- the database file
  current : σ  -- what the connection sees, the open transaction included
  faults : List Bool

inductive SqlError
  | operational
  | integrity
  deriving DecidableEq

class OfSql (ε : Type) where
  ofSql : SqlError → ε

abbrev Db (σ ε : Type) := ExceptT ε (StateM (Session σ))

def Db.on (x : Db σ ε α) (s : Session σ) : Except ε α × Session σ := x.run.run s

def Session.next (s : Session σ) : Session σ := { s with faults := s.faults.tail }

def Session.Faulty (s : Session σ) : Prop := s.faults.head? = some true

instance (s : Session σ) : Decidable s.Faulty := inferInstanceAs (Decidable (_ = _))

/-- The connection sees a database with `I`, and the file is one with `F`. -/
def Session.Meets (I F : σ → Prop) (s : Session σ) : Prop := I s.current ∧ F s.stored

section Statements

variable [OfSql ε]

def query (f : σ → α) : Db σ ε α := do
  let s ← get
  set s.next
  if s.Faulty then throw (OfSql.ofSql .operational) else return f s.current

/-- A statement that writes, with what it reports. `none` is a violated constraint. -/
def execute (write : σ → Option (α × σ)) : Db σ ε α := do
  let s ← get
  set s.next
  if s.Faulty then throw (OfSql.ofSql .operational)
  else
    match write s.current with
    | none => throw (OfSql.ofSql .integrity)
    | some (a, t) =>
      set { s.next with current := t }
      return a

def commit : Db σ ε Unit := do
  let s ← get
  set s.next
  if s.Faulty then throw (OfSql.ofSql .operational) else set { s.next with stored := s.current }

end Statements

namespace Db

/-! ## Runs -/

theorem on_bind (x : Db σ ε α) (f : α → Db σ ε β) (s : Session σ) :
    (x >>= f).on s =
      match x.on s with
      | (.ok a, s') => (f a).on s'
      | (.error err, s') => (.error err, s') := by
  simp only [Db.on, bind, ExceptT.bind, ExceptT.mk, ExceptT.run, StateT.bind, StateT.run, ExceptT.bindCont]
  rcases x s with ⟨result, s'⟩
  cases result <;> rfl

theorem on_tryCatch (x : Db σ ε α) (handler : ε → Db σ ε α) (s : Session σ) :
    (tryCatch x handler).on s =
      match x.on s with
      | (.ok a, s') => (.ok a, s')
      | (.error err, s') => (handler err).on s' := by
  simp only [Db.on, tryCatch, tryCatchThe, MonadExceptOf.tryCatch, ExceptT.tryCatch, ExceptT.mk, ExceptT.run, bind, StateT.bind, StateT.run]
  rcases x s with ⟨result, s'⟩
  cases result <;> rfl

section Statements

variable [OfSql ε]

theorem on_query (f : σ → α) (s : Session σ) :
    (query f : Db σ ε α).on s =
      if s.Faulty then (.error (OfSql.ofSql .operational), s.next) else (.ok (f s.current), s.next) := by
  have hrun : (query f : Db σ ε α).on s =
      (if s.Faulty then throw (OfSql.ofSql .operational) else return f s.current : Db σ ε α).on s.next := rfl
  rw [hrun]
  split <;> rfl

/-- A query that raises is answered by a default. -/
theorem on_query_or (f : σ → α) (default : α) (s : Session σ) :
    (tryCatch (query f) fun _ => return default : Db σ ε α).on s = (.ok (if s.Faulty then default else f s.current), s.next) := by
  rw [Db.on_tryCatch, Db.on_query]
  split
  · rename_i hquery
    split at hquery
    · cases hquery
    · rename_i hfault
      cases hquery
      rw [if_neg hfault]
  · rename_i hquery
    split at hquery
    · rename_i hfault
      cases hquery
      rw [if_pos hfault]
      rfl
    · cases hquery

theorem on_execute (write : σ → Option (α × σ)) (s : Session σ) :
    (execute write : Db σ ε α).on s =
      if s.Faulty then (.error (OfSql.ofSql .operational), s.next)
      else
        match write s.current with
        | none => (.error (OfSql.ofSql .integrity), s.next)
        | some (a, t) => (.ok a, { s.next with current := t }) := by
  have hrun : (execute write : Db σ ε α).on s =
      (if s.Faulty then throw (OfSql.ofSql .operational)
      else
        match write s.current with
        | none => throw (OfSql.ofSql .integrity)
        | some (a, t) => do
          set { s.next with current := t }
          return a : Db σ ε α).on s.next := rfl
  rw [hrun]
  split
  · rfl
  · rcases write s.current with _ | ⟨a, t⟩ <;> rfl

theorem on_commit (s : Session σ) :
    (commit : Db σ ε Unit).on s =
      if s.Faulty then (.error (OfSql.ofSql .operational), s.next)
      else (.ok (), { s.next with stored := s.current }) := by
  have hrun : (commit : Db σ ε Unit).on s =
      (if s.Faulty then throw (OfSql.ofSql .operational) else set { s.next with stored := s.current } :
        Db σ ε Unit).on s.next := rfl
  rw [hrun]
  split <;> rfl

end Statements

/-! ## Pre- and postconditions -/

/-- From a connection with `P`, the program returns with `Q` or raises with `R`. -/
def Triple (P : Session σ → Prop) (x : Db σ ε α) (Q : α → Session σ → Prop) (R : Session σ → Prop) : Prop :=
  ∀ s, P s →
    match x.on s with
    | (.ok a, s') => Q a s'
    | (.error _, s') => R s'

/-- The program keeps `J`, whether it returns or raises. -/
def Keeps (J : Session σ → Prop) (x : Db σ ε α) : Prop := Triple J x (fun _ => J) J

variable {P P' : Session σ → Prop} {Q Q' : α → Session σ → Prop} {R R' : Session σ → Prop} {J : Session σ → Prop}
  {x : Db σ ε α} {s : Session σ}

theorem Keeps.after (h : Keeps J x) (hs : J s) : J (x.on s).2 := by
  have hresult := h s hs
  rcases hx : x.on s with ⟨result, s'⟩
  rw [hx] at hresult
  cases result <;> exact hresult

theorem keeps_pure {a : α} : Keeps J (pure a : Db σ ε α) := fun _ h => h

theorem keeps_throw {err : ε} : Keeps J (throw err : Db σ ε α) := fun _ h => h

theorem Triple.bind {Q' : β → Session σ → Prop} {f : α → Db σ ε β} (hx : Triple P x Q R)
    (hf : ∀ a, Triple (Q a) (f a) Q' R) : Triple P (x >>= f) Q' R := by
  intro s hs
  have hresult := hx s hs
  rw [on_bind]
  rcases h : x.on s with ⟨result, s'⟩
  rw [h] at hresult
  cases result with
  | ok a => exact hf a s' hresult
  | error err => exact hresult

theorem Triple.mono (h : Triple P x Q R) (hP : ∀ s, P' s → P s) (hQ : ∀ a s, Q a s → Q' a s)
    (hR : ∀ s, R s → R' s) : Triple P' x Q' R' := by
  intro s hs
  have hresult := h s (hP s hs)
  rcases hx : x.on s with ⟨result, s'⟩
  rw [hx] at hresult
  cases result with
  | ok a => exact hQ a s' hresult
  | error err => exact hR s' hresult

theorem Triple.of_keeps (J : Session σ → Prop) (hP : ∀ s, P s → J s) (hQ : ∀ a s, J s → Q a s) (hR : ∀ s, J s → R s)
    (h : Keeps J x) : Triple P x Q R := Triple.mono h hP hQ hR

theorem Keeps.bind {f : α → Db σ ε β} (hx : Keeps J x) (hf : ∀ a, Keeps J (f a)) : Keeps J (x >>= f) :=
  Triple.bind hx hf

theorem keeps_forM {f : α → Db σ ε Unit} (h : ∀ a, Keeps J (f a)) (as : List α) : Keeps J (as.forM f) := by
  induction as with
  | nil => exact fun _ h => h
  | cons a as ih => exact (h a).bind fun _ => ih

section Statements

variable [OfSql ε]

theorem triple_query {f : σ → α} (hok : ∀ s, P s → ¬ s.Faulty → Q (f s.current) s.next)
    (hfault : ∀ s, P s → s.Faulty → R s.next) : Triple P (query f : Db σ ε α) Q R := by
  intro s hs
  rw [on_query]
  by_cases hbad : s.Faulty
  · rw [if_pos hbad]
    exact hfault s hs hbad
  · rw [if_neg hbad]
    exact hok s hs hbad

theorem triple_execute {write : σ → Option (α × σ)}
    (hok : ∀ s, P s → ¬ s.Faulty → ∀ a t, write s.current = some (a, t) → Q a { s.next with current := t })
    (hfault : ∀ s, P s → s.Faulty ∨ write s.current = none → R s.next) :
    Triple P (execute write : Db σ ε α) Q R := by
  intro s hs
  rw [on_execute]
  by_cases hbad : s.Faulty
  · rw [if_pos hbad]
    exact hfault s hs (.inl hbad)
  · rw [if_neg hbad]
    rcases hw : write s.current with _ | ⟨a, t⟩
    · exact hfault s hs (.inr hw)
    · exact hok s hs hbad a t hw

theorem triple_commit {Q : Unit → Session σ → Prop}
    (hok : ∀ s, P s → ¬ s.Faulty → Q () { s.next with stored := s.current })
    (hfault : ∀ s, P s → s.Faulty → R s.next) : Triple P (commit : Db σ ε Unit) Q R := by
  intro s hs
  rw [on_commit]
  by_cases hbad : s.Faulty
  · rw [if_pos hbad]
    exact hfault s hs hbad
  · rw [if_neg hbad]
    exact hok s hs hbad

variable {I F : σ → Prop}

theorem keeps_query (f : σ → α) : Keeps (Session.Meets I F) (query f : Db σ ε α) :=
  triple_query (fun _ h _ => h) fun _ h _ => h

theorem keeps_execute {write : σ → Option (α × σ)} (h : ∀ t a t', write t = some (a, t') → I t → I t') :
    Keeps (Session.Meets I F) (execute write : Db σ ε α) :=
  triple_execute (fun _ hs _ a t hw => ⟨h _ a t hw hs.1, hs.2⟩) fun _ hs _ => hs

theorem keeps_write {write : σ → Option σ} (h : ∀ t t', write t = some t' → I t → I t') :
    Keeps (Session.Meets I F) (execute fun t => (write t).map (Prod.mk ()) : Db σ ε Unit) := by
  refine keeps_execute fun t a t' hw => ?_
  obtain ⟨t'', ht, hpair⟩ := Option.map_eq_some_iff.mp hw
  cases hpair
  exact h t t' ht

theorem keeps_commit (h : ∀ t, I t → F t) : Keeps (Session.Meets I F) (commit : Db σ ε Unit) :=
  triple_commit (fun _ hs _ => ⟨hs.1, h _ hs.1⟩) fun _ hs _ => hs

end Statements

/-! ## Connections that look alike

Two connections with the same open transaction go on alike. Their files may differ, by
what a view does not show, until the next commit.
-/

section Alike

variable {γ : Type} {view : σ → γ} {s' : Session σ}

structure Alike (view : σ → γ) (s s' : Session σ) : Prop where
  current : s.current = s'.current
  faults : s.faults = s'.faults
  stored : view s.stored = view s'.stored

/-- Alike connections give the program one outcome, and stay alike. -/
def Respects (view : σ → γ) (x : Db σ ε α) : Prop :=
  ∀ s s', Alike view s s' → (x.on s).1 = (x.on s').1 ∧ Alike view (x.on s).2 (x.on s').2

theorem Alike.next (h : Alike view s s') : Alike view s.next s'.next :=
  ⟨h.current, congrArg List.tail h.faults, h.stored⟩

theorem Alike.faulty_iff (h : Alike view s s') : s.Faulty ↔ s'.Faulty := by
  unfold Session.Faulty
  rw [h.faults]

theorem respects_pure (a : α) : Respects view (pure a : Db σ ε α) := fun _ _ h => ⟨rfl, h⟩

theorem respects_throw (err : ε) : Respects view (throw err : Db σ ε α) := fun _ _ h => ⟨rfl, h⟩

theorem Respects.bind {f : α → Db σ ε β} (hx : Respects view x) (hf : ∀ a, Respects view (f a)) :
    Respects view (x >>= f) := by
  intro s s' h
  obtain ⟨hresult, hafter⟩ := hx s s' h
  rw [on_bind, on_bind]
  rcases hs : x.on s with ⟨result, m⟩
  rcases hs' : x.on s' with ⟨result', m'⟩
  rw [hs, hs'] at hresult hafter
  dsimp only at hresult hafter
  subst hresult
  cases result with
  | ok a => exact hf a m m' hafter
  | error err => exact ⟨rfl, hafter⟩

theorem respects_forM {f : α → Db σ ε Unit} (h : ∀ a, Respects view (f a)) (as : List α) :
    Respects view (as.forM f) := by
  induction as with
  | nil => exact respects_pure ()
  | cons a as ih => exact (h a).bind fun _ => ih

variable [OfSql ε]

theorem respects_query (f : σ → α) : Respects view (query f : Db σ ε α) := by
  intro s s' h
  rw [on_query, on_query, h.current]
  by_cases hbad : s.Faulty
  · rw [if_pos hbad, if_pos (h.faulty_iff.mp hbad)]
    exact ⟨rfl, h.next⟩
  · rw [if_neg hbad, if_neg (mt h.faulty_iff.mpr hbad)]
    exact ⟨rfl, h.next⟩

theorem respects_execute (write : σ → Option (α × σ)) : Respects view (execute write : Db σ ε α) := by
  intro s s' h
  rw [on_execute, on_execute, h.current]
  by_cases hbad : s.Faulty
  · rw [if_pos hbad, if_pos (h.faulty_iff.mp hbad)]
    exact ⟨rfl, h.next⟩
  · rw [if_neg hbad, if_neg (mt h.faulty_iff.mpr hbad)]
    rcases write s'.current with _ | ⟨a, t⟩
    · exact ⟨rfl, h.next⟩
    · exact ⟨rfl, rfl, h.next.faults, h.stored⟩

theorem respects_commit : Respects view (commit : Db σ ε Unit) := by
  intro s s' h
  rw [on_commit, on_commit, h.current]
  by_cases hbad : s.Faulty
  · rw [if_pos hbad, if_pos (h.faulty_iff.mp hbad)]
    exact ⟨rfl, h.next⟩
  · rw [if_neg hbad, if_neg (mt h.faulty_iff.mpr hbad)]
    exact ⟨rfl, h.current, h.next.faults, rfl⟩

end Alike

end Db

end Lib

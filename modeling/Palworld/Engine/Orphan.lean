import Palworld.Engine.Lock
import Palworld.Settings.Newest

/-!
# A lock file without a sequence

The lock file outlives the process that touched it. A start of the service unlinks an old one, and until then it
refuses every reboot.
-/

open Lib Palworld.Settings

namespace Palworld.Engine

structure PurgeIo where
  statFails : Bool
  unlinkFails : Bool

/-- The lock file behind the first lines of `lifespan`. -/
def purgeStaleLock (io : PurgeIo) (now : ℚ) : Option ℚ → Option ℚ
  | none => none
  | some mtime => if io.statFails = false ∧ now - mtime > 900 ∧ io.unlinkFails = false then none else some mtime

/-- A request that the lock file has let in. -/
inductive Admitted
  | saving (args : RebootArgs) (text : Text)  -- awaits the write of its settings
  | scheduled (args : RebootArgs)             -- its background task has not begun

/-- What a request is told at the lock file. -/
inductive Answer
  | conflict
  | admitted
  deriving DecidableEq

/-- The service, and what there is of it while it is down: the files of its engine. -/
structure Manager where
  engine : PalEngine
  up : Bool
  admitted : List Admitted
  answers : List Answer

inductive ManagerAct
  | boot (now : ℚ) (io : PurgeIo)
  | die
  | clean                                               -- somebody else unlinks the lock file
  | reboot (args : RebootArgs) (text : Option Text)     -- `trigger_reboot`, and what its settings are merged to
  | shutdown (seconds : Nat) (message : String)         -- `shutdown_server`
  | save (k : Nat) (io : IniIo) (reloads : Bool)
  | task (k i : Nat) (now : ℚ) (io : LockIo)            -- a background task begins, as call `i`
  | drop (k : Nat)
  | within (act : Act)
  | elsewhere (flags : String → Option String) (store : Store)

def Act.isStart : Act → Bool
  | .start .. => true
  | .acquire .. | .resume .. | .fire _ | .cancelCountdown _ => false

def ManagerAct.request : ManagerAct → Option Admitted
  | .reboot args none => some (.scheduled args)
  | .reboot args (some text) => some (.saving args text)
  | .shutdown seconds message => some (.scheduled ⟨seconds, false, "", message⟩)
  | .boot .. | .die | .clean | .save .. | .task .. | .drop _ | .within _ | .elsewhere .. => none

/-- `if LOCK_FILE.exists()`. -/
def Manager.letIn (s : Manager) (request : Option Admitted) : Option Manager :=
  if s.up then
    match s.engine.lockFile with
    | some _ => some { s with answers := s.answers ++ [.conflict] }
    | none => some { s with admitted := s.admitted ++ request.toList, answers := s.answers ++ [.admitted] }
  else none

/-- The files outlive the process, and its memory does not. -/
def PalEngine.reset (e : PalEngine) : PalEngine := .new e.lockFile e.updateFlags { e.store with stagedIni := none }

def managerStep (cfg : EngineConfig) (s : Manager) (a : ManagerAct) : Option Manager :=
  match a with
  | .boot now io =>
    if s.up then none else some { s with up := true, engine := { s.engine with lockFile := purgeStaleLock io now s.engine.lockFile } }
  | .die => if s.up then some { s with up := false, admitted := [], engine := s.engine.reset } else none
  | .clean => some { s with engine := { s.engine with lockFile := none } }
  | .reboot .. | .shutdown .. => s.letIn a.request
  | .save k io reloads =>
    match s.admitted[k]? with
    | some (.saving args text) =>
      let r := saveSettings io text (some true) reloads s.engine.store
      some { s with
        engine := { s.engine with store := r.1 }
        admitted := if r.2 then s.admitted.set k (.scheduled args) else s.admitted.eraseIdx k }
    | _ => none
  | .task k i now io =>
    match s.admitted[k]? with
    | some (.scheduled args) =>
      (step cfg s.engine (.start i args now io)).map fun engine => { s with engine := engine, admitted := s.admitted.eraseIdx k }
    | _ => none
  | .drop k => if k < s.admitted.length then some { s with admitted := s.admitted.eraseIdx k } else none
  | .within act => if s.up ∧ act.isStart = false then (step cfg s.engine act).map fun engine => { s with engine := engine } else none
  | .elsewhere flags store =>
    if s.up ∨ store.stagedIni = none then some { s with engine := { s.engine with updateFlags := flags, store := store } } else none

def ManagerStep (cfg : EngineConfig) (s : Manager) (a : ManagerAct) (t : Manager) : Prop := managerStep cfg s a = some t

/-- What a step can do. -/
inductive ManagerMoves (cfg : EngineConfig) (s : Manager) : ManagerAct → Manager → Prop
  | boot (now : ℚ) (io : PurgeIo) :
    ManagerMoves cfg s (.boot now io)
      { s with up := true, engine := { s.engine with lockFile := purgeStaleLock io now s.engine.lockFile } }
  | die : ManagerMoves cfg s .die { s with up := false, admitted := [], engine := s.engine.reset }
  | clean : ManagerMoves cfg s .clean { s with engine := { s.engine with lockFile := none } }
  | refuse (a : ManagerAct) (request : Admitted) (mtime : ℚ) (hrequest : a.request = some request) (hlock : s.engine.lockFile = some mtime) :
    ManagerMoves cfg s a { s with answers := s.answers ++ [.conflict] }
  | accept (a : ManagerAct) (request : Admitted) (hrequest : a.request = some request) (hlock : s.engine.lockFile = none) :
    ManagerMoves cfg s a { s with admitted := s.admitted ++ [request], answers := s.answers ++ [.admitted] }
  | save (k : Nat) (io : IniIo) (reloads : Bool) (request : Admitted) (store : Store) (admitted : List Admitted)
      (hk : s.admitted[k]? = some request) :
    ManagerMoves cfg s (.save k io reloads) { s with engine := { s.engine with store := store }, admitted := admitted }
  | task (k i : Nat) (now : ℚ) (io : LockIo) (args : RebootArgs) (engine : PalEngine) (hk : s.admitted[k]? = some (.scheduled args))
      (hstep : Step cfg s.engine (.start i args now io) engine) :
    ManagerMoves cfg s (.task k i now io) { s with engine := engine, admitted := s.admitted.eraseIdx k }
  | drop (k : Nat) : ManagerMoves cfg s (.drop k) { s with admitted := s.admitted.eraseIdx k }
  | within (act : Act) (engine : PalEngine) (hact : act.isStart = false) (hstep : Step cfg s.engine act engine) :
    ManagerMoves cfg s (.within act) { s with engine := engine }
  | elsewhere (flags : String → Option String) (store : Store) :
    ManagerMoves cfg s (.elsewhere flags store) { s with engine := { s.engine with updateFlags := flags, store := store } }

variable {cfg : EngineConfig} {s t : Manager} {a : ManagerAct} {as : List ManagerAct} {mtime : ℚ}

theorem letIn_moves {request : Admitted} (hrequest : a.request = some request) (h : s.letIn a.request = some t) : ManagerMoves cfg s a t := by
  unfold Manager.letIn at h
  split at h
  · split at h
    · rename_i hlock
      cases h
      exact .refuse a request _ hrequest hlock
    · rename_i hlock
      rw [hrequest] at h
      cases h
      exact .accept a request hrequest hlock
  · cases h

theorem managerStep_moves (h : ManagerStep cfg s a t) : ManagerMoves cfg s a t := by
  unfold ManagerStep managerStep at h
  cases a with
  | boot now io =>
    dsimp only at h
    split at h
    · cases h
    · cases h
      exact .boot now io
  | die =>
    dsimp only at h
    split at h
    · cases h
      exact .die
    · cases h
  | clean =>
    cases h
    exact .clean
  | reboot args text => cases text <;> exact letIn_moves rfl h
  | shutdown seconds message => exact letIn_moves rfl h
  | save k io reloads =>
    dsimp only at h
    split at h
    · rename_i hk
      cases h
      exact .save k io reloads _ _ _ hk
    · cases h
  | task k i now io =>
    dsimp only at h
    split at h
    · rename_i args hk
      obtain ⟨engine, hstep, rfl⟩ := Option.map_eq_some_iff.mp h
      exact .task k i now io args engine hk hstep
    · cases h
  | drop k =>
    dsimp only at h
    split at h
    · cases h
      exact .drop k
    · cases h
  | within act =>
    dsimp only at h
    split at h
    · rename_i hact
      obtain ⟨engine, hstep, rfl⟩ := Option.map_eq_some_iff.mp h
      exact .within act engine hact.2 hstep
    · cases h
  | elsewhere flags store =>
    dsimp only at h
    split at h
    · cases h
      exact .elsewhere flags store
    · cases h

/-! ## A service that dies in a countdown -/

def sampleManager : Manager := ⟨sampleEngine, false, [], []⟩

def sampleBoot (now : ℚ) : ManagerAct := .boot now ⟨false, false⟩

/-- A countdown has begun. -/
def countingActs : List ManagerAct :=
  [sampleBoot 0, .reboot (sampleArgs 60) none, .task 0 0 0 sampleLockIo, .within (.acquire 0 sampleHostIo)]

/-- What is left of it when the service dies. -/
def leftBehind : Manager := ⟨.new (some 0) (fun _ => none) ⟨fun _ => none, none⟩, false, [], [.admitted]⟩

example : exec (managerStep sampleConfig) sampleManager (countingActs ++ [.die]) = some leftBehind := rfl

theorem boot_step {io : PurgeIo} {now : ℚ} {lockFile : Option ℚ} (hup : s.up = false) (hpurge : purgeStaleLock io now s.engine.lockFile = lockFile) :
    ManagerStep cfg s (.boot now io) { s with up := true, engine := { s.engine with lockFile := lockFile } } := by
  simp [ManagerStep, managerStep, hup, hpurge]

/-- It starts ten minutes later, and again when the lock file is too old. -/
def comingBackActs : List ManagerAct := [sampleBoot 600, .reboot (sampleArgs 0) none, .die, sampleBoot 1000, .reboot (sampleArgs 0) none]

def cameBack : Manager :=
  ⟨.new none (fun _ => none) ⟨fun _ => none, none⟩, true, [.scheduled (sampleArgs 0)], [.admitted, .conflict, .admitted]⟩

/-! ## A lock file that is left behind -/

/-- Nobody will unlink the lock file: no sequence runs, and none is about to. -/
structure Orphaned (mtime : ℚ) (s : Manager) : Prop where
  lock : s.engine.lockFile = some mtime
  admitted : s.admitted = []
  idle : ∀ i args pc, s.engine.calls i ≠ .running args pc

/-- The lock file stays. -/
def ManagerAct.Spares (mtime : ℚ) : ManagerAct → Prop
  | .boot now io => io.statFails = false → now - mtime > 900 → io.unlinkFails = true
  | .clean => False
  | .die | .reboot .. | .shutdown .. | .save .. | .task .. | .drop _ | .within _ | .elsewhere .. => True

def refusals (as : List ManagerAct) : List Answer := as.filterMap fun a => a.request.map fun _ => .conflict

/-- Every request was refused, and no call did anything. -/
structure Refused (s : Manager) (as : List ManagerAct) (t : Manager) : Prop where
  answers : t.answers = s.answers ++ refusals as
  trace : ∀ i op, .op i op ∈ t.engine.trace → .op i op ∈ s.engine.trace

theorem refused_nil (s : Manager) : Refused s [] s := ⟨(List.append_nil _).symm, fun _ _ => id⟩

theorem Refused.cons {m : Manager} (h : Refused s [a] m) (htail : Refused m as t) : Refused s (a :: as) t where
  answers := by
    have hsplit : refusals (a :: as) = refusals [a] ++ refusals as := List.filterMap_append (l := [a])
    rw [htail.answers, h.answers, hsplit, List.append_assoc]
  trace i op hmem := h.trace i op (htail.trace i op hmem)

/-- Nothing happens at the lock file. -/
theorem refused_quiet (hrequest : a.request = none) (hanswers : t.answers = s.answers)
    (htrace : ∀ i op, .op i op ∈ t.engine.trace → .op i op ∈ s.engine.trace) : Refused s [a] t where
  answers := by
    simp [hanswers, refusals, hrequest]
  trace := htrace

theorem purge_spared {now : ℚ} {io : PurgeIo} (h : (ManagerAct.boot now io).Spares mtime) :
    purgeStaleLock io now (some mtime) = some mtime :=
  if_neg fun hpurge => by simp [h hpurge.1 hpurge.2.1] at hpurge

/-- An engine without a call moves only to say that there is nothing to cancel. -/
theorem idle_moves {e e' : PalEngine} {act : Act} (hidle : ∀ i args pc, e.calls i ≠ .running args pc) (hact : act.isStart = false)
    (h : Step cfg e act e') :
    e'.lockFile = e.lockFile ∧ e'.calls = e.calls ∧ ∀ i op, .op i op ∈ e'.trace → .op i op ∈ e.trace := by
  cases step_moves h with
  | claim => cases hact
  | reject => cases hact
  | enter waiting => exact absurd waiting (hidle _ _ _)
  | giveUp waiting => exact absurd waiting (hidle _ _ _)
  | proceed running => exact absurd running (hidle _ _ _)
  | leave running => exact absurd running (hidle _ _ _)
  | fire running => exact absurd running (hidle _ _ _)
  | cancel => exact ⟨rfl, rfl, fun i op hmem => by simpa using hmem⟩
  | refuse => exact ⟨rfl, rfl, fun i op hmem => by simpa using hmem⟩

theorem orphan_step (h : Orphaned mtime s) (hspares : a.Spares mtime) (hstep : ManagerStep cfg s a t) :
    Orphaned mtime t ∧ Refused s [a] t := by
  obtain ⟨hlock, hadmitted, hidle⟩ := h
  have hnone (k : Nat) (request : Admitted) : s.admitted[k]? ≠ some request := by simp [hadmitted]
  cases managerStep_moves hstep with
  | boot now io =>
    refine ⟨⟨?_, hadmitted, hidle⟩, refused_quiet rfl rfl fun _ _ => id⟩
    dsimp only
    rw [hlock, purge_spared hspares]
  | die =>
    refine ⟨⟨hlock, rfl, fun _ _ _ => Call.noConfusion⟩, refused_quiet rfl rfl fun _ _ hmem => ?_⟩
    cases hmem
  | clean => exact hspares.elim
  | refuse _ request _ hrequest => exact ⟨⟨hlock, hadmitted, hidle⟩, by simp [refusals, hrequest], fun _ _ => id⟩
  | accept _ _ _ hfree =>
    rw [hlock] at hfree
    cases hfree
  | save k io reloads request store admitted hk => exact absurd hk (hnone k _)
  | task k i now io args engine hk => exact absurd hk (hnone k _)
  | drop k => exact ⟨⟨hlock, by simp [hadmitted], hidle⟩, refused_quiet rfl rfl fun _ _ => id⟩
  | within act engine hact hmove =>
    obtain ⟨hfile, hcalls, htrace⟩ := idle_moves hidle hact hmove
    refine ⟨⟨hfile.trans hlock, hadmitted, fun i => ?_⟩, refused_quiet rfl rfl htrace⟩
    dsimp only
    rw [hcalls]
    exact hidle i
  | elsewhere => exact ⟨⟨hlock, hadmitted, hidle⟩, refused_quiet rfl rfl fun _ _ => id⟩

theorem spares_of_request {request : Admitted} (h : a.request = some request) : a.Spares mtime := by
  cases a with
  | reboot | shutdown => trivial
  | _ => cases h

theorem purged_of_not_spared {m m' : Manager} (h : Orphaned mtime m) (hspares : ¬ a.Spares mtime) (hstep : ManagerStep cfg m a m') :
    m'.engine.lockFile = none := by
  cases managerStep_moves hstep with
  | boot now io =>
    simp only [ManagerAct.Spares, not_forall] at hspares
    obtain ⟨hstat, hage, hunlink⟩ := hspares
    dsimp only
    rw [h.lock]
    exact if_pos ⟨hstat, hage, by simpa using hunlink⟩
  | clean => rfl
  | refuse _ _ _ hrequest => exact absurd (spares_of_request hrequest) hspares
  | accept _ _ hrequest => exact absurd (spares_of_request hrequest) hspares
  | _ => exact absurd trivial hspares

/-- **A lock file without a sequence refuses every reboot**, however old it gets, until the service starts more than 900 seconds behind
its modification time and can unlink it, or somebody else does. The next request is let in. -/
theorem orphan_until_purged (hs : Orphaned mtime s) (h : Run (ManagerStep cfg) s as t) : (Orphaned mtime t ∧ Refused s as t) ∨
    ∃ before a after m m', as = before ++ a :: after ∧ Run (ManagerStep cfg) s before m ∧ Orphaned mtime m ∧ Refused s before m ∧
      ¬ a.Spares mtime ∧ ManagerStep cfg m a m' ∧ Run (ManagerStep cfg) m' after t ∧
      (m'.up = true → ∀ args text, ∃ n, ManagerStep cfg m' (.reboot args text) n ∧ n.answers = m'.answers ++ [.admitted]) := by
  induction h with
  | nil s => exact .inl ⟨hs, refused_nil s⟩
  | @cons s m t a as head tail ih =>
    by_cases hspares : a.Spares mtime
    · obtain ⟨hm, hrefused⟩ := orphan_step hs hspares head
      rcases ih hm with ⟨ht, hrest⟩ | ⟨before, b, after, n, n', rfl, hbefore, hn, hrest, hpurge⟩
      · exact .inl ⟨ht, hrefused.cons hrest⟩
      · exact .inr ⟨a :: before, b, after, n, n', rfl, .cons head hbefore, hn, hrefused.cons hrest, hpurge⟩
    · have hfree := purged_of_not_spared hs hspares head
      refine .inr ⟨[], a, as, s, m, rfl, .nil s, hs, refused_nil s, hspares, head, tail, fun hup args text => ?_⟩
      simp [ManagerStep, managerStep, Manager.letIn, hup, hfree]

/-- The first start leaves the lock file there, and the second one unlinks it. -/
theorem orphan_until_purged_late : (Orphaned 0 cameBack ∧ Refused leftBehind comingBackActs cameBack) ∨
    ∃ before a after m m', comingBackActs = before ++ a :: after ∧ Run (ManagerStep sampleConfig) leftBehind before m ∧ Orphaned 0 m ∧
      Refused leftBehind before m ∧ ¬ a.Spares 0 ∧ ManagerStep sampleConfig m a m' ∧ Run (ManagerStep sampleConfig) m' after cameBack ∧
      (m'.up = true → ∀ args text, ∃ n, ManagerStep sampleConfig m' (.reboot args text) n ∧ n.answers = m'.answers ++ [.admitted]) :=
  have hyoung : purgeStaleLock ⟨false, false⟩ 600 (some 0) = some 0 := by decide +kernel
  have hold : purgeStaleLock ⟨false, false⟩ 1000 (some 0) = none := by decide +kernel
  have hrun : Run (ManagerStep sampleConfig) leftBehind comingBackActs cameBack :=
    .cons (boot_step rfl hyoung) (.cons rfl (.cons rfl (.cons (boot_step rfl hold) (.cons rfl (.nil _)))))
  orphan_until_purged ⟨rfl, rfl, fun _ _ _ => Call.noConfusion⟩ hrun

/-! ## Where it comes from -/

/-- The process does not die with a lock file, `_release_reboot_lock` can unlink it, and no call gives up in the queue. -/
def LeavesNoLock (s : Manager) : ManagerAct → Prop
  | .die => s.engine.lockFile = none
  | .within (.resume i o io) => io.unlinkLock = true ∧ (o = .cancelled → ∀ args, s.engine.calls i ≠ .running args .lifecycleLock)
  | _ => True

/-- A call will still come to its `finally` block. -/
def Working (e : PalEngine) (i : Nat) : Prop := ∃ args pc, e.calls i = .running args pc ∧ ∀ raised, pc ≠ .finalWs raised

/-- The lock file is that of a call that will unlink it. -/
def LockOwned (e : PalEngine) : Prop := e.lockFile.isSome → ∃ i, Working e i

section

variable {e e' : PalEngine} {i : Nat} {args : RebootArgs} {pc pc' : Await} {o : Outcome} {ops : List Op} {io : HostIo} {call : Call}

theorem working_goTo (hpc : ∀ raised, pc ≠ .finalWs raised) : Working (e.goTo i (.running args pc)) i := ⟨args, pc, goTo_self, hpc⟩

theorem Working.other {j : Nat} (h : Working e j) (hcalls : e'.calls = Function.update e.calls i call) (hij : j ≠ i) : Working e' j := by
  obtain ⟨args, pc, hrun, hpc⟩ := h
  refine ⟨args, pc, ?_, hpc⟩
  rw [hcalls, Function.update_of_ne hij]
  exact hrun

theorem onDone_final {value raised : Bool} (h : onDone cfg io e args value pc = some (ops, .finalWs raised)) : .releaseLockFile ∈ ops := by
  unfold onDone at h
  split at h <;> grind [loopHead_cases, restartHead, enterPhase, cancelBranch, finallyBlock, tickHead_await]

theorem Segment.final {raised : Bool} (h : Segment cfg io e args pc o ops (.finalWs raised)) : .releaseLockFile ∈ ops := by
  rcases h.cases with ⟨value, -, hdone⟩ | ⟨-, -, -, hpc⟩ | ⟨-, rfl, -⟩
  · exact onDone_final hdone
  · cases hpc
  · simp [finallyBlock]

theorem perform_unlinks (h : .releaseLockFile ∈ ops) (hunlink : io.unlinkLock = true) : (perform cfg io i ops e).lockFile = none := by
  induction ops generalizing e with
  | nil => cases h
  | cons op ops ih =>
    rw [perform_cons]
    by_cases hmore : .releaseLockFile ∈ ops
    · exact ih hmore
    · obtain rfl : op = .releaseLockFile := ((List.mem_cons.mp h).resolve_right hmore).symm
      rw [perform_lockFile hmore]
      simp [Op.apply, hunlink]

/-- A step of call `i` that keeps the lock file, and leaves the call at work if it was. -/
theorem LockOwned.goTo (h : LockOwned e) (hfile : e'.lockFile = e.lockFile) (hcalls : e'.calls = Function.update e.calls i call)
    (hcall : Working e i → Working e' i) : LockOwned e' := by
  intro hsome
  rw [hfile] at hsome
  obtain ⟨j, hj⟩ := h hsome
  by_cases hij : j = i
  · subst hij
    exact ⟨j, hcall hj⟩
  · exact ⟨j, hj.other hcalls hij⟩

/-- A call that has not begun, or is behind its `finally` block. -/
theorem not_working (h : e.calls i = .absent ∨ ∃ args raised, e.calls i = .running args (.finalWs raised)) : ¬ Working e i := by
  rintro ⟨args, pc, hrun, hpc⟩
  rcases h with h | ⟨args', raised, h⟩
  · rw [h] at hrun
    cases hrun
  · rw [h] at hrun
    cases hrun
    exact hpc raised rfl

theorem enterSequence_working (args : RebootArgs) (raised : Bool) : (enterSequence args).2 ≠ .finalWs raised := by
  unfold enterSequence
  dsimp only
  split <;> exact Await.noConfusion

theorem touchLock_rejected {now : ℚ} {lockIo : LockIo} {lockFile : Option ℚ} {ending : Ending}
    (h : (touchLock lockIo now lockFile).2 = some ending) : (touchLock lockIo now lockFile).1 = lockFile := by
  unfold touchLock at h ⊢
  split
  · rfl
  · rename_i htouch
    rw [if_neg htouch] at h
    cases h

theorem checkAndAcquireLock_rejected {now : ℚ} {lockIo : LockIo} {lockFile : Option ℚ} {ending : Ending}
    (h : (checkAndAcquireLock lockIo now lockFile).2 = some ending) :
    (checkAndAcquireLock lockIo now lockFile).1 = lockFile ∨ (checkAndAcquireLock lockIo now lockFile).1 = none := by
  unfold checkAndAcquireLock at h ⊢
  split at h
  · exact .inr (touchLock_rejected h)
  · split_ifs at h ⊢
    · exact .inl rfl
    · exact .inl rfl
    · exact .inr (touchLock_rejected h)
    · exact .inl (touchLock_rejected h)

theorem lockOwned_step {act : Act} (h : LockOwned e) (hm : Moves cfg e act e')
    (htidy : ∀ i o io, act = .resume i o io → io.unlinkLock = true ∧ (o = .cancelled → ∀ args, e.calls i ≠ .running args .lifecycleLock)) :
    LockOwned e' := by
  cases hm with
  | @claim i args now io absent claimed => exact fun _ => ⟨i, working_goTo fun _ => Await.noConfusion⟩
  | reject absent rejected =>
    rcases checkAndAcquireLock_rejected rejected with hsame | hnone
    · exact h.goTo hsame rfl fun hwork => absurd hwork (not_working (.inl absent))
    · intro hsome
      rw [goTo_lockFile, hnone] at hsome
      cases hsome
  | @enter i args io waiting free =>
    refine h.goTo (perform_lockFile (enterSequence_keeps args)) (by rw [goTo_calls, perform_calls]) fun _ => ?_
    exact working_goTo (enterSequence_working args)
  | giveUp waiting => exact absurd waiting ((htidy _ _ _ rfl).2 rfl _)
  | @proceed i args pc pc' o ops io running segment =>
    by_cases hrelease : .releaseLockFile ∈ ops
    · intro hsome
      rw [goTo_lockFile, perform_unlinks hrelease (htidy _ _ _ rfl).1] at hsome
      cases hsome
    · refine h.goTo (perform_lockFile hrelease) (by rw [goTo_calls, perform_calls]) fun _ => working_goTo ?_
      rintro raised rfl
      exact hrelease segment.final
  | leave running => exact h.goTo rfl rfl fun hwork => absurd hwork (not_working (.inr ⟨_, _, running⟩))
  | fire running => exact h.goTo rfl rfl fun _ => working_goTo fun _ => Await.noConfusion
  | cancel | refuse => exact h

end

/-- The service is down, and there is no lock file. -/
structure Manager.Fresh (s : Manager) : Prop where
  up : s.up = false
  admitted : s.admitted = []
  engine : ∃ flags inis, s.engine = .new none flags ⟨inis, none⟩

theorem lockOwned_of_none {e : PalEngine} (h : e.lockFile = none) : LockOwned e := by
  intro hsome
  rw [h] at hsome
  cases hsome

theorem purge_none {io : PurgeIo} {now : ℚ} {lockFile : Option ℚ} (h : (purgeStaleLock io now lockFile).isSome) : lockFile.isSome := by
  cases lockFile with
  | none => exact h
  | some mtime => rfl

theorem managerOwned_step (h : LockOwned s.engine) (htidy : LeavesNoLock s a) (hstep : ManagerStep cfg s a t) : LockOwned t.engine := by
  cases managerStep_moves hstep with
  | boot now io => exact fun hsome => h (purge_none hsome)
  | die => exact lockOwned_of_none htidy
  | clean => exact lockOwned_of_none rfl
  | refuse => exact h
  | accept => exact h
  | save => exact h
  | task k i now io args engine hk hmove =>
    refine lockOwned_step h (step_moves hmove) ?_
    rintro _ _ _ ⟨⟩
  | drop => exact h
  | within act engine hact hmove =>
    refine lockOwned_step h (step_moves hmove) ?_
    rintro i o io rfl
    exact htidy
  | elsewhere => exact h

/-- **A reboot is refused only while another one runs**, and that one will still unlink the lock file: no start, save or
overlapping call leaves a lock file behind by itself. -/
theorem lock_is_owned (hs : s.Fresh) (h : Run (Only (ManagerStep cfg) LeavesNoLock) s as t) : (∀ mtime, ¬ Orphaned mtime t) ∧
    ∀ args text t', ManagerStep cfg t (.reboot args text) t' → t'.answers = t.answers ++ [.conflict] → ∃ i, Working t.engine i := by
  obtain ⟨flags, inis, hengine⟩ := hs.engine
  have hfresh : LockOwned s.engine := lockOwned_of_none (by rw [hengine]; rfl)
  have howned : LockOwned t.engine := h.invariant (I := fun s => LockOwned s.engine)
    (fun _ _ _ hs hstep => managerOwned_step hs hstep.2 hstep.1) hfresh
  refine ⟨fun mtime horphan => ?_, fun args text t' hstep hrefused => ?_⟩
  · obtain ⟨i, args, pc, hrun, -⟩ := howned (by rw [horphan.lock]; rfl)
    exact horphan.idle i args pc hrun
  · cases managerStep_moves hstep with
    | refuse _ _ _ _ hlock => exact howned (by rw [hlock]; rfl)
    | accept => simp at hrefused

/-- In a countdown the lock file is there, and it is that of the countdown. -/
theorem lock_is_owned_counting : ∃ t, t.engine.lockFile = some 0 ∧ (∀ mtime, ¬ Orphaned mtime t) ∧
    ∀ args text t', ManagerStep sampleConfig t (.reboot args text) t' → t'.answers = t.answers ++ [.conflict] → ∃ i, Working t.engine i := by
  obtain ⟨t, ht, hlock⟩ : ∃ t, exec (managerStep sampleConfig) sampleManager countingActs = some t ∧ t.engine.lockFile = some 0 := ⟨_, rfl, rfl⟩
  have htidy : ∀ a ∈ countingActs, ∀ s, LeavesNoLock s a := by
    simp [countingActs, sampleBoot, LeavesNoLock]
  exact ⟨t, hlock, lock_is_owned ⟨rfl, rfl, _, _, rfl⟩ ((Run.of_exec ht).only htidy)⟩

end Palworld.Engine

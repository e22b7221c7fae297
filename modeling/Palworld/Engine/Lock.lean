import Palworld.Engine.Serial

/-!
# The lock file

What the lock file keeps out, and what it covers. It is touched before the
lifecycle lock is taken, and every sequence unlinks it at its own end.
-/

open Lib

namespace Palworld.Engine

variable {cfg : EngineConfig} {e e' : PalEngine} {a : Act} {i j : Nat} {args : RebootArgs} {pc pc' : Await}
  {o : Outcome} {io : HostIo} {ops : List Op} {call : Call}

/-! ## A call that ended -/

theorem mem_callers {l : List Entry} : i ∈ callers l ↔ ∃ op, .op i op ∈ l := by
  simp only [callers, List.mem_filterMap]
  constructor
  · rintro ⟨entry, hmem, hcaller⟩
    cases entry with
    | op call op => cases hcaller; exact ⟨op, hmem⟩
    | cancelReturned ok => cases hcaller
  · rintro ⟨op, hmem⟩
    exact ⟨.op i op, hmem, rfl⟩

def Quiet (ending : Ending) (e : PalEngine) (i : Nat) : Prop :=
  e.calls i = .finished ending ∧ ∀ op, .op i op ∉ e.trace

theorem Quiet.step {ending : Ending} (h : Quiet ending e i) (hm : Moves cfg e a e') : Quiet ending e' i := by
  obtain ⟨hcall, htrace⟩ := hm.frame (hm.not_finished h.1)
  exact ⟨hcall.trans h.1, fun op hmem => h.2 op (htrace op hmem)⟩

theorem Quiet.run {ending : Ending} {as : List Act} (hrun : Run (Step cfg) e as e') (h : Quiet ending e i) :
    Quiet ending e' i := by
  exact hrun.invariant (I := fun e => Quiet ending e i) (fun _ _ _ hq hstep => hq.step (step_moves hstep)) h

/-! ## A second call -/

def Active (e : PalEngine) (j : Nat) : Prop := ∃ args pc, e.calls j = .running args pc ∧ pc ≠ .lifecycleLock

/-- Call `i` raised `RuntimeError` and never broadcasts, saves or restarts, however the run goes on. -/
def Rejected (cfg : EngineConfig) (e : PalEngine) (i : Nat) : Prop :=
  ∀ as e', Run (Step cfg) e as e' → e'.calls i = .finished .runtimeError ∧ ∀ op, .op i op ∉ e'.trace

/-- A call that starts while a sequence is active, with a lock file younger than 900 seconds, is rejected. -/
def RejectsWhileActive (cfg : EngineConfig) (e : PalEngine) (i : Nat) (args : RebootArgs) (now : ℚ) (io : LockIo) :
    Prop :=
  ∀ e' j mtime, Active e j → e.lockFile = some mtime → now - mtime < 900 → Step cfg e (.start i args now io) e' →
    Rejected cfg e' i

theorem checkAndAcquireLock_fresh {mtime now : ℚ} (io : LockIo) (hage : now - mtime < 900) :
    checkAndAcquireLock io now (some mtime) =
      if io.statFails then (some mtime, some .runtimeError) else touchLock io now (some mtime) := by
  simp only [checkAndAcquireLock, if_neg (Rat.not_lt.mpr (Rat.le_of_lt hage))]

theorem touchLock_ne_runtimeError (io : LockIo) (now : ℚ) (lockFile : Option ℚ) :
    (touchLock io now lockFile).2 ≠ some .runtimeError := by
  unfold touchLock
  split <;> simp

theorem start_calls {now : ℚ} {lockIo : LockIo} (h : Step cfg e (.start i args now lockIo) e') :
    e.calls i = .absent ∧ e'.calls i = (match (checkAndAcquireLock lockIo now e.lockFile).2 with
      | none => .running args .lifecycleLock
      | some ending => .finished ending) ∧ e'.trace = e.trace := by
  cases step_moves h with
  | claim absent claimed => exact ⟨absent, by rw [goTo_calls, Function.update_self, claimed], rfl⟩
  | reject absent rejected => exact ⟨absent, by rw [goTo_calls, Function.update_self, rejected], rfl⟩

/-- **The second reboot request.** While a sequence is active and the lock file is fresh, a new
call is rejected exactly when the lock file cannot be inspected: a fresh one raises nothing. -/
theorem rejectsWhileActive_iff {mtime now : ℚ} {lockIo : LockIo} (h : Reached cfg e) (habsent : e.calls i = .absent)
    (hactive : Active e j) (hlock : e.lockFile = some mtime) (hage : now - mtime < 900) :
    RejectsWhileActive cfg e i args now lockIo ↔ lockIo.statFails = true := by
  constructor
  · intro hrejects
    have hstep : ∃ e', Step cfg e (.start i args now lockIo) e' := ⟨_, if_pos habsent⟩
    obtain ⟨e', hstep⟩ := hstep
    have hcall := (start_calls hstep).2.1
    rw [(hrejects e' j mtime hactive hlock hage hstep _ _ (.nil e')).1, hlock, checkAndAcquireLock_fresh lockIo hage]
      at hcall
    by_contra hstat
    rw [if_neg hstat] at hcall
    have htouch := touchLock_ne_runtimeError lockIo now (some mtime)
    cases hr : (touchLock lockIo now (some mtime)).2 with
    | none => rw [hr] at hcall; cases hcall
    | some ending => rw [hr] at hcall; cases hcall; exact htouch hr
  · intro hstat e' _ mtime' _ hlock' hage' hstep as t hrun
    obtain ⟨_, hcall, htrace⟩ := start_calls hstep
    rw [hlock', checkAndAcquireLock_fresh lockIo hage', if_pos hstat] at hcall
    have hquiet : Quiet .runtimeError e' i := by
      refine ⟨hcall, fun op hmem => ?_⟩
      rw [htrace] at hmem
      exact (turns_of_reached h).absent i habsent (mem_callers.mpr ⟨op, hmem⟩)
    exact hquiet.run hrun

theorem reached_of_exec {as : List Act} (h : exec (step cfg) sampleEngine as = some e) : Reached cfg e :=
  ⟨sampleEngine, as, ⟨_, _, _, rfl⟩, Run.of_exec h⟩

/-- A lock file whose time cannot be read, and one whose time can. -/
theorem rejectsWhileActive_iff_sample : ∃ e, Reached sampleConfig e ∧ Active e 0 ∧
    RejectsWhileActive sampleConfig e 1 (sampleArgs 0) 1 { sampleLockIo with statFails := true } ∧
    ¬ RejectsWhileActive sampleConfig e 1 (sampleArgs 0) 1 sampleLockIo := by
  have hexec : (exec (step sampleConfig) sampleEngine (sampleCall 0 60 [])).map
      (fun e => (e.calls 0, e.calls 1, e.lockFile)) =
      some (.running (sampleArgs 60) .startWs, .absent, some 0) := by decide +kernel
  obtain ⟨e, he, hstate⟩ := Option.map_eq_some_iff.mp hexec
  simp only [Prod.mk.injEq] at hstate
  have hactive : Active e 0 := ⟨_, _, hstate.1, Await.noConfusion⟩
  have hiff : ∀ lockIo, RejectsWhileActive sampleConfig e 1 (sampleArgs 0) 1 lockIo ↔ lockIo.statFails = true := fun lockIo =>
    rejectsWhileActive_iff (reached_of_exec he) hstate.2.1 hactive hstate.2.2 (by decide +kernel)
  exact ⟨e, reached_of_exec he, hactive, (hiff _).mpr rfl, fun h => absurd ((hiff _).mp h) (by decide)⟩

def cancelledFirst : List Act :=
  .cancelCountdown "" :: List.replicate 4 (.resume 0 (.done true) sampleHostIo) ++
    .acquire 1 sampleHostIo :: List.replicate 13 (.resume 1 (.done true) sampleHostIo)

/-- A call that starts one second after another one restarts the server. -/
theorem second_call_restarts : ∃ e e' t, Reached sampleConfig e ∧ Active e 0 ∧ e.lockFile = some 0 ∧
    Step sampleConfig e (.start 1 (sampleArgs 0) 1 sampleLockIo) e' ∧
    Run (Step sampleConfig) e' cancelledFirst t ∧ .op 1 (.restartService "palworld.service") ∈ t.trace ∧
    ¬ RejectsWhileActive sampleConfig e 1 (sampleArgs 0) 1 sampleLockIo := by
  have hexec : (exec (step sampleConfig) sampleEngine (sampleCall 0 60 [])).map
      (fun e => (e.calls 0, e.lockFile,
        (exec (step sampleConfig) e (.start 1 (sampleArgs 0) 1 sampleLockIo :: cancelledFirst)).map fun t =>
          decide (.op 1 (.restartService "palworld.service") ∈ t.trace))) =
      some (.running (sampleArgs 60) .startWs, some 0, some true) := by decide +kernel
  obtain ⟨e, he, hstate⟩ := Option.map_eq_some_iff.mp hexec
  simp only [Prod.mk.injEq] at hstate
  obtain ⟨hcall, hlock, hrest⟩ := hstate
  obtain ⟨t, ht, hmem⟩ := Option.map_eq_some_iff.mp hrest
  have hmem := of_decide_eq_true hmem
  obtain ⟨e', hstep, hrun⟩ := Option.bind_eq_some_iff.mp ht
  have hactive : Active e 0 := ⟨_, _, hcall, Await.noConfusion⟩
  refine ⟨e, e', t, reached_of_exec he, hactive, hlock, hstep, Run.of_exec hrun, hmem, fun hrejects => ?_⟩
  exact (hrejects e' 0 0 hactive hlock (by decide +kernel) hstep _ _ (Run.of_exec hrun)).2 _ hmem

/-! ## What the lock file covers -/

/-- The step does not unlink a lock file that another call has claimed and waits behind, and does
not unlink an old one and then fail to create the new one. -/
def RespectsClaims (cfg : EngineConfig) (e : PalEngine) : Act → Prop
  | .start _ _ now io => ∀ mtime, e.lockFile = some mtime → io.statFails = false → now - mtime > 900 →
      io.unlinkFails = false → io.touchFails = false
  | .resume i o io => ∀ args pc ops call, e.calls i = .running args pc → resume cfg io e args pc o = some (ops, call) →
      .releaseLockFile ∈ ops → io.unlinkLock = true → ∀ j args, e.calls j ≠ .running args .lifecycleLock
  | _ => True

def Covered (e : PalEngine) : Prop :=
  ∀ i args pc, e.calls i = .running args pc → (∀ raised, pc ≠ .finalWs raised) → e.lockFile.isSome

theorem touchLock_isSome {now : ℚ} {lockIo : LockIo} {lockFile : Option ℚ}
    (h : (touchLock lockIo now lockFile).2 = none) : (touchLock lockIo now lockFile).1.isSome := by
  unfold touchLock at h ⊢
  split at h
  · cases h
  · rename_i htouch
    rw [if_neg htouch]
    rfl

theorem checkAndAcquireLock_claimed {now : ℚ} {lockIo : LockIo} {lockFile : Option ℚ}
    (h : (checkAndAcquireLock lockIo now lockFile).2 = none) :
    (checkAndAcquireLock lockIo now lockFile).1.isSome := by
  unfold checkAndAcquireLock at h ⊢
  split at h
  · exact touchLock_isSome h
  · split_ifs at h ⊢ <;> exact touchLock_isSome h

theorem checkAndAcquireLock_keeps {now : ℚ} {lockIo : LockIo} {lockFile : Option ℚ} (hsome : lockFile.isSome)
    (h : ∀ mtime, lockFile = some mtime → lockIo.statFails = false → now - mtime > 900 →
      lockIo.unlinkFails = false → lockIo.touchFails = false) :
    (checkAndAcquireLock lockIo now lockFile).1.isSome := by
  obtain ⟨mtime, rfl⟩ := Option.isSome_iff_exists.mp hsome
  have h := h mtime rfl
  simp only [checkAndAcquireLock, touchLock]
  split_ifs <;> simp_all

/-- A step that keeps the lock file, and leads call `i` to no new place that needs it. -/
theorem Covered.goTo (h : Covered e) (hfile : e.lockFile.isSome → e'.lockFile.isSome)
    (hcall : ∀ args pc, call = .running args pc → (∀ raised, pc ≠ .finalWs raised) → e'.lockFile.isSome)
    (hcalls : e'.calls = Function.update e.calls i call) : Covered e' := by
  intro j args pc hrun hpc
  by_cases hij : j = i
  · subst hij
    rw [hcalls, Function.update_self] at hrun
    exact hcall args pc hrun hpc
  · rw [hcalls, Function.update_of_ne hij] at hrun
    exact hfile (h j args pc hrun hpc)

theorem enterSequence_keeps (args : RebootArgs) : .releaseLockFile ∉ (enterSequence args).1 := by
  simp only [enterSequence]
  split_ifs <;> simp

theorem perform_unlink_fails (h : io.unlinkLock = false) : (perform cfg io i ops e).lockFile = e.lockFile := by
  apply perform_keeps PalEngine.lockFile
  intro op _ e
  cases op <;> simp [Op.apply, h]

theorem Segment.not_final (h : Segment cfg io e args pc o ops pc') (raised : Bool) : pc ≠ .finalWs raised := by
  rintro rfl
  obtain ⟨_, ending, hcall, _⟩ := resume_finalWs h.2
  cases hcall

theorem Covered.step (h : Covered e) (hheld : Held e) (hm : Moves cfg e a e') (hcond : RespectsClaims cfg e a) :
    Covered e' := by
  cases hm with
  | claim absent claimed =>
    have hsome := checkAndAcquireLock_claimed claimed
    exact h.goTo (fun _ => hsome) (fun _ _ _ _ => hsome) rfl
  | reject absent rejected =>
    exact h.goTo (fun hsome => checkAndAcquireLock_keeps hsome hcond) (fun _ _ hrun _ => by cases hrun) rfl
  | @enter i args io waiting free =>
    have hfile : (perform cfg io i (enterSequence args).1 e).lockFile = e.lockFile :=
      perform_lockFile (enterSequence_keeps args)
    have hsome := h _ _ _ waiting fun _ => Await.noConfusion
    refine h.goTo (fun _ => ?_) (fun _ _ _ _ => ?_) (by rw [goTo_calls, perform_calls])
    all_goals simpa only [goTo_lockFile, hfile] using hsome
  | giveUp waiting => exact h.goTo id (fun _ _ hrun _ => by cases hrun) rfl
  | @proceed i args pc pc' o ops io running segment =>
    have hsome := h _ _ _ running segment.not_final
    by_cases hkept : (perform cfg io i ops e).lockFile = e.lockFile
    · refine h.goTo (fun _ => ?_) (fun _ _ _ _ => ?_) (by rw [goTo_calls, perform_calls])
      all_goals simpa only [goTo_lockFile, hkept] using hsome
    · -- The `finally` block of the only call inside, with no call waiting.
      have hrelease : .releaseLockFile ∈ ops := by
        by_contra hmem
        exact hkept (perform_lockFile hmem)
      have hunlink : io.unlinkLock = true := by
        by_contra hfails
        exact hkept (perform_unlink_fails (by simpa using hfails))
      have hnone := hcond args pc ops _ running segment.2 hrelease hunlink
      obtain ⟨raised, rfl⟩ := segment.keeps.2.1 hrelease
      intro j args' pc' hrun hpc'
      rw [goTo_calls, perform_calls] at hrun
      by_cases hji : j = i
      · subst hji
        rw [Function.update_self] at hrun
        cases hrun
        exact absurd rfl (hpc' raised)
      · rw [Function.update_of_ne hji] at hrun
        have hwait := (hheld.owned running segment.1).others j hji _ _ hrun
        exact absurd (hwait ▸ hrun) (hnone j args')
  | leave running => exact h.goTo id (fun _ _ hrun _ => by cases hrun) rfl
  | fire running =>
    have hsome := h _ _ _ running fun _ => Await.noConfusion
    exact h.goTo id (fun _ _ _ _ => hsome) rfl
  | cancel | refuse => exact h

theorem covered_new {lockFile : Option ℚ} {flags : String → Option String} {store : Settings.Store} :
    Covered (.new lockFile flags store) := by
  intro i args pc hrun
  cases hrun

/-- **The lock file covers the sequence.** As long as no `finally` block unlinks the lock file of a
call that waits behind it, every phase other than IDLE has a lock file. -/
theorem lockFile_covers_phase (h : Reachable Initial (Only (Step cfg) (RespectsClaims cfg)) e)
    (hphase : e.lifecycleState.phase ≠ .idle) : e.lockFile.isSome := by
  have hboth : Held e ∧ Covered e := by
    refine h.invariant (I := fun e => Held e ∧ Covered e) ?_ ?_
    · rintro s ⟨lockFile, flags, store, rfl⟩
      exact ⟨held_new, covered_new⟩
    · rintro s a t ⟨hheld, hcov⟩ ⟨hstep, hcond⟩
      exact ⟨hheld.step (step_moves hstep), hcov.step hheld (step_moves hstep) hcond⟩
  obtain ⟨hheld, hcov⟩ := hboth
  rcases hheld with hfree | ⟨i, args, pc, hown⟩
  · exact absurd hfree.phase hphase
  · refine hcov i args pc hown.running fun raised hpc => hphase ?_
    rw [hown.phase, hpc]
    rfl

theorem lockFile_covers_phase_sample : ∃ e, Reachable Initial (Only (Step sampleConfig) (RespectsClaims sampleConfig)) e ∧
    e.lifecycleState.phase ≠ .idle ∧ e.lockFile.isSome := by
  have hexec : (exec (step sampleConfig) sampleEngine (sampleCall 0 60 [])).map (fun e => e.lifecycleState.phase) =
      some .countdown := by decide +kernel
  obtain ⟨e, he, hphase⟩ := Option.map_eq_some_iff.mp hexec
  obtain ⟨m, hstart, hrest⟩ := Option.bind_eq_some_iff.mp he
  obtain ⟨_, henter, hnil⟩ := Option.bind_eq_some_iff.mp hrest
  cases Option.some.inj hnil
  have hnew : Initial sampleEngine := ⟨_, _, _, rfl⟩
  have hreach : Reachable Initial (Only (Step sampleConfig) (RespectsClaims sampleConfig)) e := by
    refine ((Reachable.of_init hnew).step (t := m) ⟨hstart, ?_⟩).step ⟨henter, trivial⟩
    intro mtime hlock
    cases hlock
  have hcount : e.lifecycleState.phase ≠ .idle := by rw [hphase]; exact Phase.noConfusion
  exact ⟨e, hreach, hcount, lockFile_covers_phase hreach hcount⟩

/-- Call 0 is cancelled while call 1 waits, and unlinks the lock file of call 1. -/
theorem countdown_without_lockFile : ¬ ∀ e, Reached sampleConfig e → e.lifecycleState.phase ≠ .idle → e.lockFile.isSome := by
  have hexec : (exec (step sampleConfig) sampleEngine (sampleCall 0 60 [] ++
      [.start 1 (sampleArgs 60) 0 sampleLockIo, .cancelCountdown ""] ++
      List.replicate 4 (.resume 0 (.done true) sampleHostIo) ++ [.acquire 1 sampleHostIo])).map
      (fun e => (e.lifecycleState.phase, e.lockFile)) = some (.countdown, none) := by decide +kernel
  obtain ⟨e, he, hstate⟩ := Option.map_eq_some_iff.mp hexec
  simp only [Prod.mk.injEq] at hstate
  intro h
  have hsome := h e (reached_of_exec he) (by rw [hstate.1]; exact Phase.noConfusion)
  rw [hstate.2] at hsome
  cases hsome

end Palworld.Engine

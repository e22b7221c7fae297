import Palworld.Engine.Moves
import Palworld.Lib.Trace

/-!
# One sequence at a time

The call that holds the lifecycle lock is the only one inside its sequence, and
the phase is the phase of its await. So sequences take turns, and a cancellation
hits the sequence that is counting down.
-/

open Lib

namespace Palworld.Engine

variable {cfg : EngineConfig} {e e' : PalEngine} {a : Act} {i j : Nat} {args : RebootArgs} {pc pc' : Await}
  {o : Outcome} {io : HostIo} {ops : List Op} {call : Call}

/-! ## The holder of the lifecycle lock -/

def Outside (call : Call) : Prop := ∀ args pc, call = .running args pc → pc = .lifecycleLock

/-- Call `i` is inside its sequence, at the await `pc`, and it is the only one. -/
structure Owned (e : PalEngine) (i : Nat) (args : RebootArgs) (pc : Await) : Prop where
  lock : e.lifecycleLock = some i
  running : e.calls i = .running args pc
  inside : pc ≠ .lifecycleLock
  phase : e.lifecycleState.phase = pc.phase
  others : ∀ j, j ≠ i → Outside (e.calls j)

structure Free (e : PalEngine) : Prop where
  lock : e.lifecycleLock = none
  phase : e.lifecycleState.phase = .idle
  outside : ∀ j, Outside (e.calls j)

def Held (e : PalEngine) : Prop := Free e ∨ ∃ i args pc, Owned e i args pc

theorem outside_absent : Outside .absent := by
  intro args pc h
  cases h

theorem outside_waiting : Outside (.running args .lifecycleLock) := by
  intro args pc h
  cases h
  rfl

theorem outside_finished {ending : Ending} : Outside (.finished ending) := by
  intro args pc h
  cases h

theorem not_outside (hpc : pc ≠ .lifecycleLock) : ¬ Outside (.running args pc) :=
  fun h => hpc (h args pc rfl)

theorem outside_update {calls : Nat → Call} (h : Outside (calls j)) (hcall : Outside call) :
    Outside (Function.update calls i call j) := by
  by_cases hj : j = i
  · rw [hj, Function.update_self]; exact hcall
  · rw [Function.update_of_ne hj]; exact h

theorem Held.owned (h : Held e) (hrun : e.calls i = .running args pc) (hpc : pc ≠ .lifecycleLock) :
    Owned e i args pc := by
  have hin : ¬ Outside (e.calls i) := hrun ▸ not_outside hpc
  rcases h with hfree | ⟨k, args', pc', hown⟩
  · exact absurd (hfree.outside i) hin
  · have hik : i = k := by
      by_contra hne
      exact hin (hown.others i hne)
    subst hik
    rw [hown.running] at hrun
    cases hrun
    exact hown

theorem Held.goTo (h : Held e) (hbefore : Outside (e.calls i)) (hafter : Outside call)
    (hlock : e'.lifecycleLock = e.lifecycleLock) (hphase : e'.lifecycleState = e.lifecycleState)
    (hcalls : e'.calls = Function.update e.calls i call) : Held e' := by
  rcases h with hfree | ⟨k, args, pc, hown⟩
  · left
    refine ⟨hlock.trans hfree.lock, by rw [hphase]; exact hfree.phase, fun j => ?_⟩
    rw [hcalls]
    exact outside_update (hfree.outside j) hafter
  · right
    have hik : k ≠ i := by
      rintro rfl
      rw [hown.running] at hbefore
      exact not_outside hown.inside hbefore
    refine ⟨k, args, pc, hlock.trans hown.lock, ?_, hown.inside, by rw [hphase]; exact hown.phase, fun j hj => ?_⟩
    · rw [hcalls, Function.update_of_ne hik]; exact hown.running
    · rw [hcalls]; exact outside_update (hown.others j hj) hafter

theorem Owned.proceed (h : Owned e i args pc) (hseg : Segment cfg io e args pc o ops pc') (io : HostIo) :
    Owned ((perform cfg io i ops e).goTo i (.running args pc')) i args pc' := by
  refine ⟨?_, Function.update_self .., hseg.keeps.2.2, ?_, fun j hj => ?_⟩
  · exact (perform_lifecycleLock cfg io i ops e).trans h.lock
  · exact perform_phase.trans (h.phase ▸ hseg.phase h.phase)
  · rw [goTo_calls, Function.update_of_ne hj, perform_calls]; exact h.others j hj

theorem enterSequence_phase (args : RebootArgs) :
    phaseAfter .idle (enterSequence args).1 = (enterSequence args).2.phase := by
  simp only [enterSequence]
  split_ifs <;> rfl

theorem enterSequence_await (args : RebootArgs) :
    (enterSequence args).2 = .startWs ∨ (enterSequence args).2 = .instantAnnounce := by
  simp only [enterSequence]
  split_ifs
  all_goals first | exact Or.inl rfl | exact Or.inr rfl

theorem Free.enter (h : Free e) : Owned
    ({ perform cfg io i (enterSequence args).1 e with lifecycleLock := some i }.goTo i
      (.running args (enterSequence args).2)) i args (enterSequence args).2 := by
  refine ⟨rfl, Function.update_self .., ?_, ?_, fun j hj => ?_⟩
  · rcases enterSequence_await args with hpc | hpc <;> rw [hpc] <;> exact Await.noConfusion
  · exact perform_phase.trans (h.phase ▸ enterSequence_phase args)
  · rw [goTo_calls, Function.update_of_ne hj, perform_calls]; exact h.outside j

theorem Owned.leave {raised : Bool} {ending : Ending} (h : Owned e i args (.finalWs raised)) :
    Free ({ e with lifecycleLock := none }.goTo i (.finished ending)) := by
  refine ⟨rfl, h.phase, fun j => ?_⟩
  by_cases hj : j = i
  · rw [goTo_calls, hj, Function.update_self]; exact outside_finished
  · rw [goTo_calls, Function.update_of_ne hj]; exact h.others j hj

theorem Owned.fire {r : Nat} (h : Owned e i args (.tickWait r)) :
    Owned (e.goTo i (.running args (.tickFired r))) i args (.tickFired r) := by
  refine ⟨h.lock, Function.update_self .., Await.noConfusion, h.phase, fun j hj => ?_⟩
  rw [goTo_calls, Function.update_of_ne hj]; exact h.others j hj

theorem Held.step (h : Held e) (hm : Moves cfg e a e') : Held e' := by
  cases hm with
  | claim absent => exact h.goTo (absent ▸ outside_absent) outside_waiting rfl rfl rfl
  | reject absent => exact h.goTo (absent ▸ outside_absent) outside_finished rfl rfl rfl
  | giveUp waiting => exact h.goTo (waiting ▸ outside_waiting) outside_finished rfl rfl rfl
  | enter waiting free =>
    rcases h with hfree | ⟨k, args', pc', hown⟩
    · exact Or.inr ⟨_, _, _, hfree.enter⟩
    · rw [hown.lock] at free; cases free
  | proceed running segment => exact Or.inr ⟨_, _, _, (h.owned running segment.1).proceed segment _⟩
  | leave running => exact Or.inl (h.owned running Await.noConfusion).leave
  | fire running => exact Or.inr ⟨_, _, _, (h.owned running Await.noConfusion).fire⟩
  | cancel | refuse =>
    rcases h with hfree | ⟨k, args, pc, hown⟩
    · exact Or.inl ⟨hfree.lock, hfree.phase, hfree.outside⟩
    · exact Or.inr ⟨k, args, pc, hown.lock, hown.running, hown.inside, hown.phase, hown.others⟩

theorem held_new {lockFile : Option ℚ} {flags : String → Option String} {store : Settings.Store} :
    Held (.new lockFile flags store) := Or.inl ⟨rfl, rfl, fun _ => outside_absent⟩

/-- In every reachable state at most one call is inside its sequence, and it holds the lock. -/
theorem held_of_reached (h : Reached cfg e) : Held e := by
  refine h.invariant ?_ fun s a t hs hstep => hs.step (step_moves hstep)
  rintro s ⟨lockFile, flags, store, rfl⟩
  exact held_new

/-! ## Turns -/

def Entry.caller : Entry → Option Nat
  | .op call _ => some call
  | .cancelReturned _ => none

def callers (trace : List Entry) : List Nat := trace.filterMap Entry.caller

theorem callers_append (l m : List Entry) : callers (l ++ m) = callers l ++ callers m := List.filterMap_append

theorem callers_ops (i : Nat) (ops : List Op) : callers (ops.map (.op i)) = List.replicate ops.length i := by
  induction ops with
  | nil => rfl
  | cons op ops ih =>
    rw [List.length_cons, List.replicate_succ, ← ih]
    rfl

theorem callers_cancelReturned (l : List Entry) (ok : Bool) : callers (l ++ [.cancelReturned ok]) = callers l := by
  rw [callers_append]
  exact List.append_nil _

/-- The holder of the lock has the turn, and a call outside that has not run yet had none. -/
structure Turns (e : PalEngine) : Prop where
  noInterleave : NoInterleave (callers e.trace)
  turn : ∀ i, e.lifecycleLock = some i → HasTurn i (callers e.trace)
  absent : ∀ i, e.calls i = .absent → i ∉ callers e.trace
  waiting : ∀ i args, e.calls i = .running args .lifecycleLock → i ∉ callers e.trace

/-- A step that performs nothing, and moves call `i` only to a place with no history. -/
theorem Turns.goTo (h : Turns e) (hi : i ∉ callers e.trace ∨ (call ≠ .absent ∧ ∀ args, call ≠ .running args .lifecycleLock))
    (hlock : ∀ j, e'.lifecycleLock = some j → e.lifecycleLock = some j)
    (htrace : callers e'.trace = callers e.trace) (hcalls : e'.calls = Function.update e.calls i call) : Turns e' := by
  have hcall : ∀ j, j ≠ i → e'.calls j = e.calls j := fun j hj => by rw [hcalls, Function.update_of_ne hj]
  have hself : e'.calls i = call := by rw [hcalls, Function.update_self]
  refine ⟨htrace ▸ h.noInterleave, fun j hj => htrace ▸ h.turn j (hlock j hj), fun j hj => ?_, fun j args hj => ?_⟩
  · rw [htrace]
    by_cases hji : j = i
    · subst hji
      rcases hi with hi | ⟨hne, _⟩
      · exact hi
      · exact absurd (hself.symm.trans hj) hne
    · exact h.absent j (hcall j hji ▸ hj)
  · rw [htrace]
    by_cases hji : j = i
    · subst hji
      rcases hi with hi | ⟨_, hne⟩
      · exact hi
      · exact absurd (hself.symm.trans hj) (hne args)
    · exact h.waiting j args (hcall j hji ▸ hj)

theorem Turns.extend (h : Turns e) (hturn : HasTurn i (callers e.trace)) (hpc : pc ≠ .lifecycleLock)
    (hlock : e'.lifecycleLock = some i) (htrace : e'.trace = e.trace ++ ops.map (.op i))
    (hcalls : e'.calls = Function.update e.calls i (.running args pc)) : Turns e' := by
  have hlabels : callers e'.trace = callers e.trace ++ List.replicate ops.length i := by
    rw [htrace, callers_append, callers_ops]
  have hnext := h.noInterleave.append_replicate hturn ops.length
  have hother : ∀ j, j ≠ i → j ∉ callers e.trace → j ∉ callers e'.trace := by
    intro j hj hmem
    rw [hlabels, List.mem_append, not_or]
    exact ⟨hmem, fun h => hj (List.eq_of_mem_replicate h)⟩
  have hcall : ∀ j, j ≠ i → e'.calls j = e.calls j := fun j hj => by rw [hcalls, Function.update_of_ne hj]
  have hself : e'.calls i = .running args pc := by rw [hcalls, Function.update_self]
  refine ⟨hlabels ▸ hnext.1, fun j hj => ?_, fun j hj => ?_, fun j args hj => ?_⟩
  · cases hlock.symm.trans hj
    exact hlabels ▸ hnext.2
  · have hji : j ≠ i := by rintro rfl; rw [hself] at hj; cases hj
    exact hother j hji (h.absent j (hcall j hji ▸ hj))
  · have hji : j ≠ i := by rintro rfl; rw [hself] at hj; cases hj; exact hpc rfl
    exact hother j hji (h.waiting j args (hcall j hji ▸ hj))

theorem Turns.step (h : Turns e) (hheld : Held e) (hm : Moves cfg e a e') : Turns e' := by
  cases hm with
  | claim absent => exact h.goTo (Or.inl (h.absent _ absent)) (fun _ hj => hj) rfl rfl
  | reject absent => exact h.goTo (Or.inl (h.absent _ absent)) (fun _ hj => hj) rfl rfl
  | giveUp waiting => exact h.goTo (Or.inl (h.waiting _ _ waiting)) (fun _ hj => hj) rfl rfl
  | enter waiting free =>
    refine h.extend (.of_not_mem (h.waiting _ _ waiting)) ?_ rfl perform_trace (by rw [goTo_calls, perform_calls])
    rcases enterSequence_await _ with hpc | hpc <;> rw [hpc] <;> exact Await.noConfusion
  | proceed running segment =>
    have hlock := (hheld.owned running segment.1).lock
    exact h.extend (h.turn _ hlock) segment.keeps.2.2 ((perform_lifecycleLock ..).trans hlock) perform_trace
      (by rw [goTo_calls, perform_calls])
  | leave running =>
    refine h.goTo (Or.inr ⟨Call.noConfusion, fun _ => Call.noConfusion⟩) (fun _ hj => ?_) rfl rfl
    cases hj
  | fire running => exact h.goTo (Or.inr ⟨Call.noConfusion, fun _ hj => by cases hj⟩) (fun _ hj => hj) rfl rfl
  | cancel | refuse =>
    have hlabels := callers_cancelReturned e.trace
    exact ⟨by simpa only [hlabels] using h.noInterleave, by simpa only [hlabels] using h.turn,
      by simpa only [hlabels] using h.absent, by simpa only [hlabels] using h.waiting⟩

theorem turns_new {lockFile : Option ℚ} {flags : String → Option String} {store : Settings.Store} :
    Turns (.new lockFile flags store) := by
  refine ⟨noInterleave_nil, fun i h => ?_, fun i _ => List.not_mem_nil, fun i args _ => List.not_mem_nil⟩
  cases h

theorem turns_of_reached (h : Reached cfg e) : Turns e := by
  have hboth : Held e ∧ Turns e := by
    refine h.invariant (I := fun e => Held e ∧ Turns e) ?_ ?_
    · rintro s ⟨lockFile, flags, store, rfl⟩
      exact ⟨held_new, turns_new⟩
    · rintro s a t ⟨hheld, hturns⟩ hstep
      exact ⟨hheld.step (step_moves hstep), hturns.step hheld (step_moves hstep)⟩
  exact hboth.2

/-! ## Cancellation -/

def CountingDown (e : PalEngine) (i : Nat) : Prop :=
  e.lifecycleLock = some i ∧ e.lifecycleState.phase = .countdown

/-- The countdown of call `i` returned `False`, and it is aborting. -/
def Aborted (e : PalEngine) (i : Nat) : Prop :=
  ∃ args, e.calls i = .running args .cancelAnnounce ∨ e.calls i = .running args .cancelNotify

def Confirmed (e : PalEngine) (a : Act) (e' : PalEngine) : Prop :=
  (∃ reason, a = .cancelCountdown reason) ∧ e'.trace = e.trace ++ [.cancelReturned true]

def Unconfirmed (cfg : EngineConfig) (e : PalEngine) (a : Act) (e' : PalEngine) : Prop :=
  Step cfg e a e' ∧ ¬ Confirmed e a e'

/-- Call `i` is aborting, or will when it next looks at the event. -/
def Doomed (e : PalEngine) (i : Nat) : Prop := CountingDown e i ∧ (e.cancelEvent = true ∨ Aborted e i)

theorem loopHead_cancel (e : PalEngine) (args : RebootArgs) (r : Nat) :
    ((loopHead e args r).2 = .cancelAnnounce → e.cancelEvent = true) ∧ (loopHead e args r).2 ≠ .cancelNotify := by
  rcases loopHead_cases e args r with hloop | ⟨hset, hloop⟩ | hloop <;> rw [hloop]
  · simp [restartHead]
  · exact ⟨fun _ => hset, by simp [cancelBranch]⟩
  · rcases tickHead_await e args r with h | h <;> simp [h]

theorem Segment.countdown (h : Segment cfg io e args pc o ops pc') (hpc' : pc'.phase = .countdown) :
    pc.phase = .countdown ∧ (pc' = .cancelAnnounce → e.cancelEvent = true) ∧
      (pc' = .cancelNotify → pc = .cancelAnnounce) := by
  rcases h.cases with ⟨value, _, hdone⟩ | ⟨_, _, _, rfl⟩ | ⟨_, _, rfl⟩
  · unfold onDone at hdone
    split at hdone <;>
      grind [Await.phase, loopHead_cancel, restartHead, cancelBranch, finallyBlock]
  · cases hpc'
  · cases hpc'

theorem enterSequence_clears (cfg : EngineConfig) (io : HostIo) (i : Nat) (args : RebootArgs) (e : PalEngine) :
    (perform cfg io i (enterSequence args).1 e).cancelEvent = false := by
  simp only [enterSequence]
  split_ifs <;> rfl

theorem Aborted.of_goTo (h : Aborted e' i) (hcalls : e'.calls = Function.update e.calls j call)
    (hcall : ∀ args, call ≠ .running args .cancelAnnounce ∧ call ≠ .running args .cancelNotify) : Aborted e i := by
  obtain ⟨args, h⟩ := h
  have hij : i ≠ j := by
    rintro rfl
    rw [hcalls, Function.update_self] at h
    exact h.elim (hcall args).1 (hcall args).2
  rw [hcalls, Function.update_of_ne hij] at h
  exact ⟨args, h⟩

theorem Doomed.before (hheld : Held e) (hm : Moves cfg e a e') (hun : ¬ Confirmed e a e') (h : Doomed e' i) :
    Doomed e i := by
  obtain ⟨⟨hlock, hphase⟩, hwhy⟩ := h
  cases hm with
  | claim | reject | giveUp =>
    exact ⟨⟨hlock, hphase⟩, hwhy.imp_right fun h => h.of_goTo rfl fun _ => by simp⟩
  | enter waiting free =>
    -- Entering the sequence clears the event.
    rcases hwhy with hset | habort
    · simp only [PalEngine.goTo, enterSequence_clears] at hset
      cases hset
    · cases hlock
      obtain ⟨args', h⟩ := habort
      rw [goTo_self] at h
      rcases enterSequence_await _ with hpc | hpc <;> rw [hpc] at h <;> simp at h
  | @proceed k args pc pc' o ops io running segment =>
    -- Only the holder of the lock goes on, so the call that is doomed after the step is this one.
    have hown := hheld.owned running segment.1
    have hown' := hown.proceed segment io
    cases hown'.lock.symm.trans hlock
    obtain ⟨hpc, hannounce, hnotify⟩ := segment.countdown (hown'.phase.symm.trans hphase)
    refine ⟨⟨hown.lock, hown.phase.trans hpc⟩, ?_⟩
    rcases hwhy with hset | ⟨args', h⟩
    · left
      rwa [goTo_cancelEvent, perform_cancelEvent segment.keeps.1] at hset
    · rw [goTo_self] at h
      rcases h with h | h <;> cases h
      · exact Or.inl (hannounce rfl)
      · exact Or.inr ⟨_, Or.inl (hnotify rfl ▸ running)⟩
  | leave running => cases hlock
  | fire running =>
    exact ⟨⟨hlock, hphase⟩, hwhy.imp_right fun h => h.of_goTo rfl fun _ => by simp⟩
  | cancel => exact absurd ⟨⟨_, rfl⟩, rfl⟩ hun
  | refuse => exact ⟨⟨hlock, hphase⟩, hwhy⟩

theorem Aborted.doomed (hheld : Held e) (h : Aborted e i) : Doomed e i := by
  obtain ⟨args, hrun⟩ := id h
  have hown : ∃ pc, Owned e i args pc ∧ pc.phase = .countdown := by
    rcases hrun with hrun | hrun
    · exact ⟨_, hheld.owned hrun Await.noConfusion, rfl⟩
    · exact ⟨_, hheld.owned hrun Await.noConfusion, rfl⟩
  obtain ⟨pc, hown, hpc⟩ := hown
  exact ⟨⟨hown.lock, hown.phase.trans hpc⟩, Or.inr h⟩

/-- The last `cancel_countdown` of a run that returned `True` hit the countdown of call `i`. -/
def HitBy (cfg : EngineConfig) (s : PalEngine) (as : List Act) (e : PalEngine) (i : Nat) : Prop :=
  ∃ bs reason cs m m', as = bs ++ .cancelCountdown reason :: cs ∧ Run (Step cfg) s bs m ∧
    Step cfg m (.cancelCountdown reason) m' ∧ Confirmed m (.cancelCountdown reason) m' ∧
    Run (Unconfirmed cfg) m' cs e ∧ CountingDown m i

theorem HitBy.snoc {s : PalEngine} {as : List Act} (h : HitBy cfg s as e i) (hstep : Unconfirmed cfg e a e') :
    HitBy cfg s (as ++ [a]) e' i := by
  obtain ⟨bs, reason, cs, m, m', rfl, hbs, hcancel, hconf, hcs, hdown⟩ := h
  exact ⟨bs, reason, cs ++ [a], m, m', by simp, hbs, hcancel, hconf, hcs.snoc hstep, hdown⟩

theorem Confirmed.hit {s : PalEngine} {as : List Act} (hrun : Run (Step cfg) s as e) (hstep : Step cfg e a e')
    (hconf : Confirmed e a e') (hdown : CountingDown e' i) : HitBy cfg s (as ++ [a]) e' i := by
  obtain ⟨reason, rfl⟩ := hconf.1
  have hm := step_moves hstep
  have hdown₀ : CountingDown e i := by
    cases hm with
    | cancel countdown => exact hdown
    | refuse _ => exact hdown
  exact ⟨as, reason, [], e, e', rfl, hrun, hstep, hconf, .nil _, hdown₀⟩

/-- **Sequences are serialised, and a cancellation hits the right one.** The operations of two
calls never interleave, and a sequence aborts only after a `cancel_countdown` that returned
`True` in its own COUNTDOWN phase, with no other one returning `True` since. -/
theorem sequences_serialised (lockFile : Option ℚ) (flags : String → Option String) (store : Settings.Store)
    (as : List Act) (h : Run (Step cfg) (.new lockFile flags store) as e) :
    NoInterleave (callers e.trace) ∧
      ∀ i, Aborted e i → HitBy cfg (.new lockFile flags store) as e i := by
  have hreached : ∀ {bs m}, Run (Step cfg) (.new lockFile flags store) bs m → Reached cfg m :=
    fun hrun => ⟨_, _, ⟨lockFile, flags, store, rfl⟩, hrun⟩
  refine ⟨(turns_of_reached (hreached h)).noInterleave, fun i habort => ?_⟩
  have hdoomed : ∀ i, Doomed e i → HitBy cfg (.new lockFile flags store) as e i := by
    refine h.history (P := fun as e => ∀ i, Doomed e i → HitBy cfg (.new lockFile flags store) as e i) ?_ ?_
    · rintro i ⟨⟨hlock, _⟩, _⟩
      cases hlock
    · intro bs m a t hrun ih hstep i hdoomed
      by_cases hconf : Confirmed m a t
      · exact hconf.hit hrun hstep hdoomed.1
      · have hbefore := hdoomed.before (held_of_reached (hreached hrun)) (step_moves hstep) hconf
        exact (ih i hbefore).snoc ⟨hstep, hconf⟩
  exact hdoomed i (habort.doomed (held_of_reached (hreached h)))

def cancelTwice : List Act :=
  sampleCall 0 5 [] ++ [.start 1 (sampleArgs 5) 0 sampleLockIo, .cancelCountdown "first"] ++
    List.replicate 4 (.resume 0 (.done true) sampleHostIo) ++
    [.acquire 1 sampleHostIo, .cancelCountdown "second", .resume 1 (.done true) sampleHostIo]

theorem sequences_serialised_twice : ∃ e, exec (step sampleConfig) sampleEngine cancelTwice = some e ∧
    NoInterleave (callers e.trace) ∧ Aborted e 1 ∧ HitBy sampleConfig sampleEngine cancelTwice e 1 := by
  have hcall : (exec (step sampleConfig) sampleEngine cancelTwice).map (fun e => e.calls 1) =
      some (.running (sampleArgs 5) .cancelAnnounce) := by decide +kernel
  obtain ⟨e, he, hcall⟩ := Option.map_eq_some_iff.mp hcall
  have habort : Aborted e 1 := ⟨_, Or.inl hcall⟩
  have h := sequences_serialised none (fun _ => none) ⟨fun _ => none, none⟩ cancelTwice (Run.of_exec he)
  exact ⟨e, he, h.1, habort, h.2 1 habort⟩

end Palworld.Engine

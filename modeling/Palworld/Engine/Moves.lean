import Palworld.Engine.Step

/-!
# What one step can do

The inversion of `step`, and what it means for the lifecycle lock: the call that
holds it is the only one inside its sequence, and the phase is the phase of its await.
-/

open Lib Palworld.Settings

namespace Palworld.Engine

variable {cfg : EngineConfig} {e e' : PalEngine} {a : Act} {i : Nat} {args : RebootArgs} {pc pc' : Await}
  {o : Outcome} {io : HostIo} {ops : List Op} {call : Call}

/-! ## Performing operations -/

@[simp]
theorem perform_nil : perform cfg io i [] e = e := rfl

@[simp]
theorem perform_cons (op : Op) : perform cfg io i (op :: ops) e =
    perform cfg io i ops { op.apply cfg io e with trace := e.trace ++ [.op i op] } := rfl

@[simp]
theorem apply_calls (op : Op) : (op.apply cfg io e).calls = e.calls := by cases op <;> rfl

@[simp]
theorem apply_lifecycleLock (op : Op) : (op.apply cfg io e).lifecycleLock = e.lifecycleLock := by
  cases op <;> rfl

/-- What each operation leaves alone, the whole list leaves alone. -/
theorem perform_keeps {α : Type} (field : PalEngine → α)
    (h : ∀ op ∈ ops, ∀ e, field { op.apply cfg io e with trace := e.trace ++ [.op i op] } = field e) :
    field (perform cfg io i ops e) = field e := by
  induction ops generalizing e with
  | nil => rfl
  | cons op ops ih =>
    rw [List.forall_mem_cons] at h
    rw [perform_cons, ih h.2, h.1]

theorem perform_calls : (perform cfg io i ops e).calls = e.calls :=
  perform_keeps PalEngine.calls fun op _ _ => apply_calls op

theorem perform_lifecycleLock (cfg : EngineConfig) (io : HostIo) (i : Nat) (ops : List Op) (e : PalEngine) :
    (perform cfg io i ops e).lifecycleLock = e.lifecycleLock :=
  perform_keeps PalEngine.lifecycleLock fun op _ _ => apply_lifecycleLock op

theorem perform_trace : (perform cfg io i ops e).trace = e.trace ++ ops.map (.op i) := by
  induction ops generalizing e with
  | nil => simp
  | cons op ops ih => rw [perform_cons, ih]; simp

def phaseAfter (phase : Phase) : List Op → Phase
  | [] => phase
  | .setLifecycle st :: ops => phaseAfter st.phase ops
  | _ :: ops => phaseAfter phase ops

theorem perform_phase : (perform cfg io i ops e).lifecycleState.phase = phaseAfter e.lifecycleState.phase ops := by
  induction ops generalizing e with
  | nil => rfl
  | cons op ops ih => rw [perform_cons, ih]; cases op <;> rfl

theorem perform_lockFile (h : Op.releaseLockFile ∉ ops) : (perform cfg io i ops e).lockFile = e.lockFile := by
  apply perform_keeps PalEngine.lockFile
  intro op hop e
  cases op <;> first | rfl | exact absurd hop h

theorem perform_cancelEvent (h : Op.clearCancelState ∉ ops) :
    (perform cfg io i ops e).cancelEvent = e.cancelEvent := by
  apply perform_keeps PalEngine.cancelEvent
  intro op hop e
  cases op <;> first | rfl | exact absurd hop h

@[simp]
theorem goTo_calls : (e.goTo i call).calls = Function.update e.calls i call := rfl
theorem goTo_self : (e.goTo i call).calls i = call := Function.update_self ..
@[simp]
theorem goTo_lifecycleState : (e.goTo i call).lifecycleState = e.lifecycleState := rfl
@[simp]
theorem goTo_lifecycleLock : (e.goTo i call).lifecycleLock = e.lifecycleLock := rfl
@[simp]
theorem goTo_cancelEvent : (e.goTo i call).cancelEvent = e.cancelEvent := rfl
@[simp]
theorem goTo_lockFile : (e.goTo i call).lockFile = e.lockFile := rfl
@[simp]
theorem goTo_trace : (e.goTo i call).trace = e.trace := rfl

/-! ## Segments -/

def Await.phase : Await → Phase
  | .startWs | .tickAnnounce _ | .tickNotify _ | .tickWs _ | .tickWait _ | .tickFired _ => .countdown
  | .cancelAnnounce | .cancelNotify => .countdown
  | .savingWs | .savingAnnounce | .savingMirror | .saving | .savingSleep => .saving
  | .maintenanceWs | .restarting | .maintenanceSleep => .maintenance
  | .probingWs | .probing _ | .probingSleep _ | .completeNotify => .probing
  | .lifecycleLock | .instantAnnounce | .instantNotify | .finalWs _ => .idle

theorem tickHead_phase (e : PalEngine) (args : RebootArgs) (r : Nat) :
    phaseAfter e.lifecycleState.phase (tickHead e args r).1 = e.lifecycleState.phase := by
  unfold tickHead
  split <;> rfl

theorem tickHead_await (e : PalEngine) (args : RebootArgs) (r : Nat) :
    (tickHead e args r).2 = .tickAnnounce r ∨ (tickHead e args r).2 = .tickWs r := by
  unfold tickHead
  split
  · exact Or.inl rfl
  · exact Or.inr rfl

/-- The loop restarts the server, gives up or goes on. -/
theorem loopHead_cases (e : PalEngine) (args : RebootArgs) (r : Nat) :
    loopHead e args r = restartHead e ∨ e.cancelEvent = true ∧ loopHead e args r = cancelBranch e ∨
      loopHead e args r = tickHead e args r := by
  unfold loopHead
  split
  · exact Or.inl rfl
  split
  · exact Or.inr (Or.inl ⟨‹_›, rfl⟩)
  · exact Or.inr (Or.inr rfl)

theorem loopHead_phase (args : RebootArgs) (r : Nat) (hphase : e.lifecycleState.phase = .countdown) :
    phaseAfter .countdown (loopHead e args r).1 = (loopHead e args r).2.phase := by
  rcases loopHead_cases e args r with hloop | ⟨_, hloop⟩ | hloop <;> rw [hloop]
  · rfl
  · rfl
  · have htick := tickHead_phase e args r
    rw [hphase] at htick
    rcases tickHead_await e args r with hpc | hpc <;> rw [htick, hpc] <;> rfl

/-- A segment leaves the phase of the await that it ends at. -/
theorem onDone_phase {value : Bool} (hphase : e.lifecycleState.phase = pc.phase)
    (h : onDone cfg io e args value pc = some (ops, pc')) : phaseAfter pc.phase ops = pc'.phase := by
  cases pc with
  | startWs =>
    have hloop := loopHead_phase args args.countdownSeconds hphase
    rwa [Option.some.inj h] at hloop
  | tickFired r =>
    have hloop := loopHead_phase args (r - 1) hphase
    rwa [Option.some.inj h] at hloop
  | tickAnnounce _ | tickWs _ | tickWait _ | maintenanceWs | probing _ | probingSleep _ =>
    simp only [onDone, Option.some.injEq] at h
    split at h <;> cases h <;> rfl
  | _ => cases h <;> rfl

theorem tickHead_ops {op : Op} (r : Nat) (h : op ∈ (tickHead e args r).1) :
    (∃ st, op = .setLifecycle st ∧ st.phase = e.lifecycleState.phase) ∨ (∃ message, op = .sendBroadcast message) ∨
      ∃ st, op = .broadcastWs st := by
  unfold tickHead at h
  split at h <;> simp only [List.mem_cons, List.not_mem_nil, or_false] at h <;> rcases h with rfl | rfl
  · exact Or.inl ⟨_, rfl, rfl⟩
  · exact Or.inr (Or.inl ⟨_, rfl⟩)
  · exact Or.inl ⟨_, rfl, rfl⟩
  · exact Or.inr (Or.inr ⟨_, rfl⟩)

/-- The loop neither clears the event nor releases the lock file. -/
theorem loopHead_ops (e : PalEngine) (args : RebootArgs) (r : Nat) :
    .clearCancelState ∉ (loopHead e args r).1 ∧ .releaseLockFile ∉ (loopHead e args r).1 ∧
      (loopHead e args r).2 ≠ .lifecycleLock := by
  rcases loopHead_cases e args r with hloop | ⟨_, hloop⟩ | hloop <;> rw [hloop]
  · simp [restartHead, enterPhase]
  · simp [cancelBranch]
  · refine ⟨?_, ?_, ?_⟩
    · intro h
      rcases tickHead_ops r h with ⟨_, h, _⟩ | ⟨_, h⟩ | ⟨_, h⟩ <;> cases h
    · intro h
      rcases tickHead_ops r h with ⟨_, h, _⟩ | ⟨_, h⟩ | ⟨_, h⟩ <;> cases h
    · rcases tickHead_await e args r with h | h <;> rw [h] <;> exact Await.noConfusion

/-- Only the `finally` block releases the lock file, and nothing in a sequence clears the event. -/
theorem onDone_ops {value : Bool} (h : onDone cfg io e args value pc = some (ops, pc')) :
    .clearCancelState ∉ ops ∧ (.releaseLockFile ∈ ops → ∃ raised, pc' = .finalWs raised) ∧ pc' ≠ .lifecycleLock := by
  by_cases hpc : pc = .cancelNotify
  · subst hpc
    cases h
    simp [finallyBlock]
  · have hother : .clearCancelState ∉ ops ∧ (.releaseLockFile ∈ ops → pc' = .finalWs false) ∧ pc' ≠ .lifecycleLock := by
      unfold onDone at h
      split at h <;> grind [loopHead_ops, restartHead, enterPhase, cancelBranch, finallyBlock]
    exact ⟨hother.1, fun hmem => ⟨_, hother.2.1 hmem⟩, hother.2.2⟩

/-- Inside its sequence, the operations `ops` take a call from the await `pc` to the await `pc'`. -/
def Segment (cfg : EngineConfig) (io : HostIo) (e : PalEngine) (args : RebootArgs) (pc : Await) (o : Outcome) (ops : List Op)
    (pc' : Await) : Prop :=
  pc ≠ .lifecycleLock ∧ resume cfg io e args pc o = some (ops, .running args pc')

/-- A segment follows an await that ended normally, a restart that failed, or an await that raised. -/
theorem Segment.cases (h : Segment cfg io e args pc o ops pc') :
    (∃ value, o = .done value ∧ onDone cfg io e args value pc = some (ops, pc')) ∨
      (pc = .restarting ∧ o = .error ∧ ops = [.restartReturned false] ∧ pc' = .maintenanceSleep) ∨
      (∀ value, o ≠ .done value) ∧ ops = (finallyBlock true).1 ∧ pc' = .finalWs true := by
  obtain ⟨hlock, h⟩ := h
  unfold resume at h
  split at h
  case h_5 value _ _ =>
    obtain ⟨⟨ops', pc''⟩, hdone, heq⟩ := Option.map_eq_some_iff.mp h
    cases heq
    exact Or.inl ⟨value, rfl, hdone⟩
  case h_6 hdone _ _ =>
    unfold onRaise at h
    split at h
    · rename_i hfailed
      cases h
      exact Or.inr (Or.inl ⟨hfailed.1, hfailed.2, rfl, rfl⟩)
    · cases h
      exact Or.inr (Or.inr ⟨hdone, rfl, rfl⟩)
  all_goals grind

theorem Segment.phase (h : Segment cfg io e args pc o ops pc') (hphase : e.lifecycleState.phase = pc.phase) :
    phaseAfter pc.phase ops = pc'.phase := by
  rcases h.cases with ⟨value, _, hdone⟩ | ⟨rfl, _, rfl, rfl⟩ | ⟨_, rfl, rfl⟩
  · exact onDone_phase hphase hdone
  · rfl
  · rfl

theorem Segment.keeps (h : Segment cfg io e args pc o ops pc') :
    .clearCancelState ∉ ops ∧ (.releaseLockFile ∈ ops → ∃ raised, pc' = .finalWs raised) ∧ pc' ≠ .lifecycleLock := by
  rcases h.cases with ⟨value, _, hdone⟩ | ⟨_, _, rfl, rfl⟩ | ⟨_, rfl, rfl⟩
  · obtain ⟨hclear, hrelease, hlock⟩ := onDone_ops hdone
    exact ⟨hclear, hrelease, hlock⟩
  · simp
  · simp [finallyBlock]

/-! ## The moves -/

/-- What one step of the engine can be. -/
inductive Moves (cfg : EngineConfig) (e : PalEngine) : Act → PalEngine → Prop
  | claim {i : Nat} {args : RebootArgs} {now : ℚ} {io : LockIo} (absent : e.calls i = .absent)
      (claimed : (checkAndAcquireLock io now e.lockFile).2 = none) :
      Moves cfg e (.start i args now io)
        ({ e with lockFile := (checkAndAcquireLock io now e.lockFile).1 }.goTo i (.running args .lifecycleLock))
  | reject {i : Nat} {args : RebootArgs} {now : ℚ} {io : LockIo} {ending : Ending} (absent : e.calls i = .absent)
      (rejected : (checkAndAcquireLock io now e.lockFile).2 = some ending) :
      Moves cfg e (.start i args now io)
        ({ e with lockFile := (checkAndAcquireLock io now e.lockFile).1 }.goTo i (.finished ending))
  | enter {i : Nat} {args : RebootArgs} {io : HostIo} (waiting : e.calls i = .running args .lifecycleLock) (free : e.lifecycleLock = none) :
      Moves cfg e (.acquire i io)
        ({ perform cfg io i (enterSequence args).1 e with lifecycleLock := some i }.goTo i
          (.running args (enterSequence args).2))
  | giveUp {i : Nat} {args : RebootArgs} {io : HostIo} (waiting : e.calls i = .running args .lifecycleLock) :
      Moves cfg e (.resume i .cancelled io) (e.goTo i (.finished .raised))
  | proceed {i : Nat} {args : RebootArgs} {pc pc' : Await} {o : Outcome} {ops : List Op} {io : HostIo} (running : e.calls i = .running args pc)
      (segment : Segment cfg io e args pc o ops pc') :
      Moves cfg e (.resume i o io) ((perform cfg io i ops e).goTo i (.running args pc'))
  | leave {i : Nat} {args : RebootArgs} {raised : Bool} {o : Outcome} {ending : Ending} {io : HostIo} (running : e.calls i = .running args (.finalWs raised))
      (ended : ending = .raised ∨ raised = false ∧ ending = .returned) :
      Moves cfg e (.resume i o io) ({ e with lifecycleLock := none }.goTo i (.finished ending))
  | fire {i : Nat} {args : RebootArgs} {r : Nat} (running : e.calls i = .running args (.tickWait r)) :
      Moves cfg e (.fire i) (e.goTo i (.running args (.tickFired r)))
  | cancel {reason : String} (countdown : e.lifecycleState.phase = .countdown) :
      Moves cfg e (.cancelCountdown reason)
        { e with cancelReason := reason, cancelEvent := true, trace := e.trace ++ [.cancelReturned true] }
  | refuse {reason : String} (idle : e.lifecycleState.phase ≠ .countdown) :
      Moves cfg e (.cancelCountdown reason) { e with trace := e.trace ++ [.cancelReturned false] }

/-- Away from the lock and the `finally` block, a call that goes on stays in its sequence. -/
theorem resume_running (hpc : pc ≠ .lifecycleLock) (hfinal : ∀ raised, pc ≠ .finalWs raised)
    (h : resume cfg io e args pc o = some (ops, call)) : ∃ pc', call = .running args pc' := by
  cases pc <;> cases o <;> simp_all [resume] <;> grind

theorem resume_finalWs {raised : Bool} (h : resume cfg io e args (.finalWs raised) o = some (ops, call)) :
    ops = [] ∧ ∃ ending, call = .finished ending ∧
      (ending = .raised ∨ raised = false ∧ ending = .returned) := by
  cases o <;> cases raised <;> simp_all [resume] <;> grind

theorem step_moves (h : step cfg e a = some e') : Moves cfg e a e' := by
  cases a with
  | start i args now io =>
    simp only [step] at h
    split at h
    · rename_i habsent
      cases hr : (checkAndAcquireLock io now e.lockFile).2 with
      | none => rw [hr] at h; cases h; exact .claim habsent hr
      | some ending => rw [hr] at h; cases h; exact .reject habsent hr
    · cases h
  | acquire i io =>
    simp only [step] at h
    split at h
    · rename_i hwait hfree
      cases h
      exact .enter hwait hfree
    · cases h
  | resume i o io =>
    simp only [step] at h
    split at h
    · rename_i args pc hrun
      obtain ⟨⟨ops, call⟩, hres, rfl⟩ := Option.map_eq_some_iff.mp h
      by_cases hlock : pc = .lifecycleLock
      · subst hlock
        cases o <;> simp only [resume, Option.some.injEq, Prod.mk.injEq, reduceCtorEq] at hres
        obtain ⟨rfl, rfl⟩ := hres
        exact .giveUp hrun
      · by_cases hfinal : ∃ raised, pc = .finalWs raised
        · obtain ⟨raised, rfl⟩ := hfinal
          obtain ⟨rfl, ending, rfl, hend⟩ := resume_finalWs hres
          exact .leave hrun hend
        · obtain ⟨pc', rfl⟩ := resume_running hlock (fun raised hp => hfinal ⟨raised, hp⟩) hres
          have hkeep : releasedBy pc (.running args pc') e.lifecycleLock = e.lifecycleLock := by
            cases pc <;> rfl
          have hsame : ({ perform cfg io i ops e with lifecycleLock := e.lifecycleLock } : PalEngine) =
              perform cfg io i ops e := by
            rw [← perform_lifecycleLock cfg io i ops e]
          rw [hkeep, hsame]
          exact .proceed hrun ⟨hlock, hres⟩
    · cases h
  | fire i =>
    simp only [step] at h
    split at h
    · rename_i hrun
      cases h
      exact .fire hrun
    · cases h
  | cancelCountdown reason =>
    simp only [step] at h
    split at h
    · rename_i hphase
      cases h
      exact .cancel hphase
    · rename_i hphase
      cases h
      exact .refuse hphase

/-! ## The other calls -/

def Act.caller : Act → Option Nat
  | .start i _ _ _ | .acquire i _ | .resume i _ _ | .fire i => some i
  | .cancelCountdown _ => none

theorem goTo_frame {j : Nat} (ops : List Op) (hij : j ≠ i) (htrace : e'.trace = e.trace ++ ops.map (.op j))
    (hcalls : e'.calls = Function.update e.calls j call) :
    e'.calls i = e.calls i ∧ ∀ op, .op i op ∈ e'.trace → .op i op ∈ e.trace := by
  refine ⟨by rw [hcalls, Function.update_of_ne hij.symm], fun op hmem => ?_⟩
  rw [htrace, List.mem_append, List.mem_map] at hmem
  rcases hmem with hmem | ⟨_, _, heq⟩
  · exact hmem
  · cases heq
    exact absurd rfl hij

/-- What the other calls do changes nothing about call `i`. -/
theorem Moves.frame (hm : Moves cfg e a e') (ha : a.caller ≠ some i) :
    e'.calls i = e.calls i ∧ ∀ op, .op i op ∈ e'.trace → .op i op ∈ e.trace := by
  have hne : ∀ j, some j ≠ some i → j ≠ i := fun j h hj => h (congrArg some hj)
  cases hm with
  | claim | reject | giveUp | leave | fire => exact goTo_frame [] (hne _ ha) (List.append_nil _).symm rfl
  | enter | proceed => exact goTo_frame _ (hne _ ha) perform_trace (by rw [goTo_calls, perform_calls])
  | cancel | refuse => exact ⟨rfl, fun op hmem => by simpa using hmem⟩

theorem Moves.not_finished {ending : Ending} (hm : Moves cfg e a e') (hend : e.calls i = .finished ending) :
    a.caller ≠ some i := by
  intro ha
  cases hm with
  | claim absent | reject absent => cases ha; rw [hend] at absent; cases absent
  | enter waiting | giveUp waiting => cases ha; rw [hend] at waiting; cases waiting
  | proceed running | leave running | fire running => cases ha; rw [hend] at running; cases running
  | cancel | refuse => cases ha

/-- What a call inside its sequence can do. -/
theorem Moves.own (hm : Moves cfg e a e') (ha : a.caller = some i) (hrun : e.calls i = .running args pc)
    (hpc : pc ≠ .lifecycleLock) :
    (∃ o ops pc' io, a = .resume i o io ∧ Segment cfg io e args pc o ops pc' ∧
      e' = (perform cfg io i ops e).goTo i (.running args pc')) ∨
    (∃ raised ending, pc = .finalWs raised ∧ e' = { e with lifecycleLock := none }.goTo i (.finished ending)) ∨
    ∃ r, pc = .tickWait r ∧ a = .fire i ∧ e' = e.goTo i (.running args (.tickFired r)) := by
  cases hm with
  | cancel | refuse => cases ha
  | claim absent | reject absent =>
    cases ha
    rw [hrun] at absent
    cases absent
  | enter waiting | giveUp waiting =>
    cases ha
    rw [hrun] at waiting
    cases waiting
    exact absurd rfl hpc
  | proceed running segment =>
    cases ha
    rw [hrun] at running
    cases running
    exact Or.inl ⟨_, _, _, _, rfl, segment, rfl⟩
  | leave running =>
    cases ha
    rw [hrun] at running
    cases running
    exact Or.inr (Or.inl ⟨_, _, rfl, rfl⟩)
  | fire running =>
    cases ha
    rw [hrun] at running
    cases running
    exact Or.inr (Or.inr ⟨_, rfl, rfl, rfl⟩)

theorem resume_enabled (io : HostIo) (hrun : e.calls i = .running args pc)
    (hresume : resume cfg io e args pc o = some (ops, call)) : ∃ e', Step cfg e (.resume i o io) e' :=
  Option.isSome_iff_exists.mp (by simp [step, hrun, hresume])

end Palworld.Engine

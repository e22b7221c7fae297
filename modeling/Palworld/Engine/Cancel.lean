import Palworld.Engine.Lock
import Mathlib.Data.List.TakeWhile

/-!
# A confirmed cancellation

What becomes of a sequence whose `cancel_countdown` returned `True`: it winds up
and never restarts, unless the cancellation falls into the last tick after its timeout.
-/

open Lib

namespace Palworld.Engine

variable {cfg : EngineConfig} {e e' t : PalEngine} {a : Act} {as : List Act} {i j : Nat} {args : RebootArgs}
  {pc pc' : Await} {o : Outcome} {io : HostIo} {ops : List Op} {call : Call}

/-! ## The window -/

/-- The timeout of the last tick: when it ends the wait, the loop does not look at the event again. -/
def Await.lastTick : Await → Prop
  | .tickFired r => r ≤ 1
  | _ => False

/-- No cancellation falls between the timeout of the last tick and the resumption of its coroutine. -/
def Heeds (e : PalEngine) : Act → Prop
  | .cancelCountdown _ => ∀ i args pc, e.calls i = .running args pc → ¬ pc.lastTick
  | .fire i => e.cancelEvent = true → ∀ args r, e.calls i = .running args (.tickWait r) → ¬ r ≤ 1
  | _ => True

/-- An operation that a sequence does before its SAVING phase, or after it gave up. -/
def Op.sparing : Op → Prop
  | .setLifecycle st => st.phase ≠ .saving
  | .restartService _ | .triggerSave => False
  | _ => True

/-- The sequence of call `i` never entered the SAVING phase and never issued a restart. -/
def Spared (e : PalEngine) (i : Nat) : Prop := ∀ op, .op i op ∈ e.trace → op.sparing

/-- An await of a sequence that will abort: the event is set and will be looked at, or the loop returned `False`. -/
def Await.aborting (event : Bool) (pc : Await) : Prop :=
  pc.phase = .countdown ∧ ((event = true ∧ ¬ pc.lastTick) ∨ pc = .cancelAnnounce ∨ pc = .cancelNotify)

theorem tickHead_sparing (e : PalEngine) (args : RebootArgs) (r : Nat) (h : e.lifecycleState.phase ≠ .saving) :
    ∀ op ∈ (tickHead e args r).1, op.sparing := by
  intro op hop
  rcases tickHead_ops r hop with ⟨st, rfl, hst⟩ | ⟨_, rfl⟩ | ⟨_, rfl⟩
  · rw [Op.sparing, hst]; exact h
  · trivial
  · trivial

theorem loopHead_set (args : RebootArgs) (r : Nat) (hset : e.cancelEvent = true) (hr : r ≠ 0) :
    loopHead e args r = cancelBranch e := by
  rw [loopHead, if_neg hr, if_pos hset]

def Await.left : Await → Nat
  | .tickAnnounce _ => 8
  | .tickNotify _ => 7
  | .tickWs _ => 6
  | .tickWait _ => 5
  | .tickFired _ | .startWs => 4
  | .cancelAnnounce => 3
  | .cancelNotify => 2
  | .finalWs _ => 1
  | _ => 0

/-- An aborting sequence goes on to its cancellation broadcast, or enters its `finally` block. -/
theorem aborting_onDone {value : Bool} (habort : pc.aborting e.cancelEvent)
    (hstart : pc = .startWs → 0 < args.countdownSeconds) (h : onDone cfg io e args value pc = some (ops, pc')) :
    (∀ op ∈ ops, op.sparing) ∧ pc'.left < pc.left ∧
      (pc'.aborting e.cancelEvent ∨
        pc = .cancelNotify ∧ ops = .clearUpdateFlags :: (finallyBlock false).1 ∧ pc' = .finalWs (clearRaises cfg io)) := by
  obtain ⟨hphase, hwhy⟩ := habort
  have hset : pc ≠ .cancelAnnounce → pc ≠ .cancelNotify → e.cancelEvent = true ∧ ¬ pc.lastTick :=
    fun hannounce hnotify => hwhy.resolve_right (not_or.mpr ⟨hannounce, hnotify⟩)
  cases pc with
  | startWs =>
    have hset := (hset Await.noConfusion Await.noConfusion).1
    rw [onDone, loopHead_set args _ hset (Nat.ne_of_gt (hstart rfl))] at h
    cases h
    exact ⟨by simp [Op.sparing], by simp [Await.left], Or.inl ⟨rfl, Or.inr (Or.inl rfl)⟩⟩
  -- The loop looks at the event before the next tick, unless this was the last one.
  | tickFired r =>
    obtain ⟨hset, hlast⟩ := hset Await.noConfusion Await.noConfusion
    have hr : r - 1 ≠ 0 := by
      simp only [Await.lastTick] at hlast
      omega
    rw [onDone, loopHead_set args _ hset hr] at h
    cases h
    exact ⟨by simp [Op.sparing], by simp [Await.left], Or.inl ⟨rfl, Or.inr (Or.inl rfl)⟩⟩
  | tickWs r | tickWait r =>
    have hset := (hset Await.noConfusion Await.noConfusion).1
    rw [onDone, if_pos hset] at h
    cases h
    exact ⟨by simp [Op.sparing], by simp [Await.left], Or.inl ⟨rfl, Or.inr (Or.inl rfl)⟩⟩
  -- These awaits come before the wait for the event, which will find it set.
  | tickAnnounce r =>
    have hset := (hset Await.noConfusion Await.noConfusion).1
    simp only [onDone] at h
    split at h <;> cases h
    all_goals exact ⟨by simp [Op.sparing], by simp [Await.left], Or.inl ⟨rfl, Or.inl ⟨hset, id⟩⟩⟩
  | tickNotify r =>
    have hset := (hset Await.noConfusion Await.noConfusion).1
    cases h
    exact ⟨by simp [Op.sparing], by simp [Await.left], Or.inl ⟨rfl, Or.inl ⟨hset, id⟩⟩⟩
  | cancelAnnounce =>
    cases h
    exact ⟨by simp [Op.sparing], by simp [Await.left], Or.inl ⟨rfl, Or.inr (Or.inr rfl)⟩⟩
  | cancelNotify =>
    cases h
    exact ⟨by simp [Op.sparing, finallyBlock, LifecycleState.idle], by simp [Await.left, finallyBlock],
      Or.inr ⟨rfl, rfl, rfl⟩⟩
  | _ => cases hphase

theorem aborting_segment (habort : pc.aborting e.cancelEvent) (hstart : pc = .startWs → 0 < args.countdownSeconds)
    (h : Segment cfg io e args pc o ops pc') :
    (∀ op ∈ ops, op.sparing) ∧ (pc'.aborting e.cancelEvent ∨ ∃ raised, pc' = .finalWs raised) := by
  rcases h.cases with ⟨value, _, hdone⟩ | ⟨rfl, -⟩ | ⟨_, rfl, rfl⟩
  · obtain ⟨hops, _, hnext⟩ := aborting_onDone habort hstart hdone
    exact ⟨hops, hnext.imp_right fun h => ⟨_, h.2.2⟩⟩
  · cases habort.1
  · exact ⟨by simp [finallyBlock, Op.sparing, LifecycleState.idle], Or.inr ⟨true, rfl⟩⟩

/-! ## What leads to a countdown -/

def Started (e : PalEngine) : Prop := ∀ i args, e.calls i = .running args .startWs → 0 < args.countdownSeconds

theorem loopHead_ne_startWs (e : PalEngine) (args : RebootArgs) (r : Nat) : (loopHead e args r).2 ≠ .startWs := by
  rcases loopHead_cases e args r with hloop | ⟨_, hloop⟩ | hloop <;> rw [hloop]
  · exact Await.noConfusion
  · exact Await.noConfusion
  · rcases tickHead_await e args r with h | h <;> rw [h] <;> exact Await.noConfusion

theorem Segment.ne_startWs (h : Segment cfg io e args pc o ops pc') : pc' ≠ .startWs := by
  rcases h.cases with ⟨value, _, hdone⟩ | ⟨_, _, _, rfl⟩ | ⟨_, _, rfl⟩
  · unfold onDone at hdone
    split at hdone <;> grind [loopHead_ne_startWs, restartHead, cancelBranch, finallyBlock]
  · exact Await.noConfusion
  · exact Await.noConfusion

theorem enterSequence_startWs (h : (enterSequence args).2 = .startWs) : 0 < args.countdownSeconds := by
  simp only [enterSequence] at h
  split_ifs at h <;> assumption

theorem Started.goTo (h : Started e) (hcalls : e'.calls = Function.update e.calls i call)
    (hcall : ∀ args, call = .running args .startWs → 0 < args.countdownSeconds) : Started e' := by
  intro j args hrun
  rw [hcalls] at hrun
  by_cases hj : j = i
  · rw [hj, Function.update_self] at hrun
    exact hcall args hrun
  · rw [Function.update_of_ne hj] at hrun
    exact h j args hrun

theorem Started.step (h : Started e) (hm : Moves cfg e a e') : Started e' := by
  cases hm with
  | claim | reject | giveUp | leave | fire => exact h.goTo rfl fun _ hrun => by cases hrun
  | enter =>
    refine h.goTo (by rw [goTo_calls, perform_calls]) fun args hrun => ?_
    simp only [Call.running.injEq] at hrun
    exact hrun.1 ▸ enterSequence_startWs hrun.2
  | proceed running segment =>
    refine h.goTo (by rw [goTo_calls, perform_calls]) fun args hrun => ?_
    simp only [Call.running.injEq] at hrun
    exact absurd hrun.2 segment.ne_startWs
  | cancel | refuse => exact h

theorem loopHead_sparing (args : RebootArgs) (r : Nat) (hphase : e.lifecycleState.phase = .countdown)
    (hnext : (loopHead e args r).2.phase = .countdown) : ∀ op ∈ (loopHead e args r).1, op.sparing := by
  rcases loopHead_cases e args r with hloop | ⟨_, hloop⟩ | hloop <;> rw [hloop] at hnext ⊢
  · cases hnext
  · simp [cancelBranch, Op.sparing]
  · exact tickHead_sparing e args r (by rw [hphase]; exact Phase.noConfusion)

theorem Segment.sparing (h : Segment cfg io e args pc o ops pc') (hphase : e.lifecycleState.phase = pc.phase)
    (hpc' : pc'.phase = .countdown) : ∀ op ∈ ops, op.sparing := by
  have hpc := (h.countdown hpc').1
  rcases h.cases with ⟨value, _, hdone⟩ | ⟨rfl, -⟩ | ⟨_, _, rfl⟩
  · have hloop : ∀ r, loopHead e args r = (ops, pc') → ∀ op ∈ ops, op.sparing := by
      intro r hr
      have hops := loopHead_sparing args r (hphase.trans hpc) (by rw [hr]; exact hpc')
      rwa [hr] at hops
    cases pc with
    | startWs => exact hloop _ (Option.some.inj hdone)
    | tickFired r => exact hloop _ (Option.some.inj hdone)
    | tickAnnounce r | tickNotify r | tickWs r | tickWait r | cancelAnnounce | cancelNotify =>
      simp only [onDone, Option.some.injEq] at hdone
      all_goals try split at hdone
      all_goals cases hdone
      all_goals simp [Op.sparing, finallyBlock, LifecycleState.idle]
    | _ => cases hpc
  · cases hpc
  · cases hpc'

def Announced (e : PalEngine) (i : Nat) : Prop := ∃ reason, .op i (.sendBroadcast (cancelMessage reason)) ∈ e.trace

structure Unsaved (e : PalEngine) : Prop where
  spared : ∀ i args pc, e.calls i = .running args pc → pc.phase = .countdown → Spared e i
  announced : ∀ i, Aborted e i → Announced e i

theorem enterSequence_sparing (args : RebootArgs) : ∀ op ∈ (enterSequence args).1, op.sparing := by
  simp only [enterSequence]
  split_ifs <;> simp [Op.sparing]

theorem spared_append (h : Spared e i) (hops : ∀ op ∈ ops, op.sparing) (htrace : e'.trace = e.trace ++ ops.map (.op j)) :
    Spared e' i := by
  intro op hmem
  rw [htrace, List.mem_append, List.mem_map] at hmem
  rcases hmem with hmem | ⟨op', hop', heq⟩
  · exact h op hmem
  · cases heq
    exact hops op hop'

theorem spared_other (h : Spared e i) (hij : i ≠ j) (htrace : e'.trace = e.trace ++ ops.map (.op j)) : Spared e' i := by
  intro op hmem
  rw [htrace, List.mem_append, List.mem_map] at hmem
  rcases hmem with hmem | ⟨op', _, heq⟩
  · exact h op hmem
  · cases heq
    exact absurd rfl hij

theorem spared_of_not_mem (h : i ∉ callers e.trace) : Spared e i :=
  fun op hmem => absurd (mem_callers.mpr ⟨op, hmem⟩) h

theorem Announced.mono (h : Announced e i) (hsub : e.trace ⊆ e'.trace) : Announced e' i := by
  obtain ⟨reason, hmem⟩ := h
  exact ⟨reason, hsub hmem⟩

/-- A step that performs nothing, and leads call `i` to no countdown. -/
theorem Unsaved.goTo (h : Unsaved e) (htrace : e'.trace = e.trace) (hcalls : e'.calls = Function.update e.calls i call)
    (hcall : ∀ args pc, call = .running args pc → pc.phase = .countdown →
      Spared e i ∧ pc ≠ .cancelAnnounce ∧ pc ≠ .cancelNotify) : Unsaved e' := by
  have hsame : ∀ j, Spared e j → Spared e' j := fun j hs op hmem => hs op (htrace ▸ hmem)
  constructor
  · intro j args pc hrun hpc
    apply hsame
    rw [hcalls] at hrun
    by_cases hj : j = i
    · rw [hj, Function.update_self] at hrun
      exact hj ▸ (hcall args pc hrun hpc).1
    · rw [Function.update_of_ne hj] at hrun
      exact h.spared j args pc hrun hpc
  · intro j habort
    have hbefore : Aborted e j := by
      refine habort.of_goTo hcalls fun args => ⟨?_, ?_⟩
      · intro hcall'
        exact (hcall args _ hcall' rfl).2.1 rfl
      · intro hcall'
        exact (hcall args _ hcall' rfl).2.2 rfl
    exact (h.announced j hbefore).mono (by rw [htrace]; exact List.Subset.refl _)

theorem cancelBranch_of_segment (h : Segment cfg io e args pc o ops .cancelAnnounce) :
    ops = (cancelBranch e).1 := by
  rcases h.cases with ⟨value, _, hdone⟩ | ⟨_, _, _, hpc'⟩ | ⟨_, _, hpc'⟩
  · have hloop : ∀ r, loopHead e args r = (ops, .cancelAnnounce) → ops = (cancelBranch e).1 := by
      intro r hr
      rcases loopHead_cases e args r with hhead | ⟨_, hhead⟩ | hhead
      · cases hr.symm.trans hhead
      · exact congrArg Prod.fst (hr.symm.trans hhead)
      · rcases tickHead_await e args r with h | h <;> cases (congrArg Prod.snd (hr.symm.trans hhead)).trans h
    unfold onDone at hdone
    split at hdone <;> grind [restartHead, finallyBlock]
  · cases hpc'
  · cases hpc'

theorem Unsaved.proceed (h : Unsaved e) (hown : Owned e i args pc) (hseg : Segment cfg io e args pc o ops pc') :
    Unsaved ((perform cfg io i ops e).goTo i (.running args pc')) := by
  have htrace : ((perform cfg io i ops e).goTo i (.running args pc')).trace = e.trace ++ ops.map (.op i) := perform_trace
  constructor
  · intro j args' pc'' hrun hpc
    rw [goTo_calls, perform_calls] at hrun
    by_cases hj : j = i
    · subst hj
      rw [Function.update_self] at hrun
      cases hrun
      exact spared_append (h.spared j args pc hown.running (hseg.countdown hpc).1) (hseg.sparing hown.phase hpc) htrace
    · rw [Function.update_of_ne hj] at hrun
      exact spared_other (h.spared j args' pc'' hrun hpc) hj htrace
  · rintro j ⟨args', habort⟩
    have hsub : e.trace ⊆ ((perform cfg io i ops e).goTo i (.running args pc')).trace := by
      rw [htrace]
      exact List.subset_append_left _ _
    rw [goTo_calls, perform_calls] at habort
    by_cases hj : j = i
    · subst hj
      rw [Function.update_self] at habort
      rcases habort with habort | habort <;> cases habort
      · refine ⟨e.cancelReason, ?_⟩
        rw [htrace, cancelBranch_of_segment hseg]
        simp [cancelBranch]
      · have hfrom : e.calls j = .running args .cancelAnnounce := (hseg.countdown rfl).2.2 rfl ▸ hown.running
        exact (h.announced j ⟨args, Or.inl hfrom⟩).mono hsub
    · rw [Function.update_of_ne hj] at habort
      exact (h.announced j ⟨args', habort⟩).mono hsub

theorem Unsaved.enter (h : Unsaved e) (hturns : Turns e) (hwait : e.calls i = .running args .lifecycleLock) :
    Unsaved ({ perform cfg io i (enterSequence args).1 e with lifecycleLock := some i }.goTo i
      (.running args (enterSequence args).2)) := by
  have htrace : ({ perform cfg io i (enterSequence args).1 e with lifecycleLock := some i }.goTo i
      (.running args (enterSequence args).2)).trace = e.trace ++ (enterSequence args).1.map (.op i) := perform_trace
  constructor
  · intro j args' pc' hrun hpc
    rw [goTo_calls, perform_calls] at hrun
    by_cases hj : j = i
    · subst hj
      exact spared_append (spared_of_not_mem (hturns.waiting j args hwait)) (enterSequence_sparing args) htrace
    · rw [Function.update_of_ne hj] at hrun
      exact spared_other (h.spared j args' pc' hrun hpc) hj htrace
  · intro j habort
    have hbefore : Aborted e j := by
      refine habort.of_goTo (j := i) (by rw [goTo_calls, perform_calls]) fun args' => ?_
      rcases enterSequence_await args with hpc | hpc <;> rw [hpc] <;> simp
    refine (h.announced j hbefore).mono ?_
    rw [htrace]
    exact List.subset_append_left _ _

theorem Unsaved.step (h : Unsaved e) (hheld : Held e) (hturns : Turns e) (hm : Moves cfg e a e') : Unsaved e' := by
  cases hm with
  | claim | reject | giveUp =>
    exact h.goTo rfl rfl fun _ _ hrun hpc => by cases hrun <;> cases hpc
  | leave => exact h.goTo rfl rfl fun _ _ hrun hpc => by cases hrun
  | enter waiting => exact h.enter hturns waiting
  | proceed running segment => exact h.proceed (hheld.owned running segment.1) segment
  | fire running =>
    refine h.goTo rfl rfl fun _ _ hrun _ => ?_
    cases hrun
    exact ⟨h.spared _ _ _ running rfl, Await.noConfusion, Await.noConfusion⟩
  | cancel | refuse =>
    constructor
    · intro i args pc hrun hpc op hmem
      exact h.spared i args pc hrun hpc op (by simpa using hmem)
    · intro i habort
      exact (h.announced i habort).mono (List.subset_append_left _ _)

structure Sound (e : PalEngine) : Prop where
  held : Held e
  turns : Turns e
  started : Started e
  unsaved : Unsaved e

theorem Sound.step (h : Sound e) (hm : Moves cfg e a e') : Sound e' :=
  ⟨h.held.step hm, h.turns.step h.held hm, h.started.step hm, h.unsaved.step h.held h.turns hm⟩

theorem sound_of_reached (h : Reached cfg e) : Sound e := by
  refine h.invariant ?_ fun s a t hs hstep => hs.step (step_moves hstep)
  rintro s ⟨lockFile, flags, store, rfl⟩
  refine ⟨held_new, turns_new, ?_, ?_, ?_⟩
  · intro i args hrun
    cases hrun
  · intro i args pc hrun
    cases hrun
  · rintro i ⟨args, habort | habort⟩ <;> cases habort

/-! ## After the cancellation -/

def Aborting (e : PalEngine) (i : Nat) : Prop := ∃ args pc, e.calls i = .running args pc ∧ pc.aborting e.cancelEvent

/-- The sequence of call `i` is past its `finally` block. -/
def Over (e : PalEngine) (i : Nat) : Prop :=
  (∃ args raised, e.calls i = .running args (.finalWs raised)) ∨ ∃ ending, e.calls i = .finished ending

def awaitsLeft (e : PalEngine) (i : Nat) : Nat :=
  match e.calls i with
  | .running _ pc => pc.left
  | _ => 0

theorem Await.aborting.inside {event : Bool} (h : pc.aborting event) : pc ≠ .lifecycleLock := by
  rintro rfl
  cases h.1

theorem Aborting.owned (h : Aborting e i) (hs : Sound e) :
    ∃ args pc, Owned e i args pc ∧ pc.aborting e.cancelEvent := by
  obtain ⟨args, pc, hrun, hpc⟩ := h
  exact ⟨args, pc, hs.held.owned hrun hpc.inside, hpc⟩

theorem Spared.frame (h : Spared e i) (hframe : ∀ op, .op i op ∈ e'.trace → .op i op ∈ e.trace) : Spared e' i :=
  fun op hmem => h op (hframe op hmem)

theorem Aborting.other (h : Aborting e i) (hs : Sound e) (hm : Moves cfg e a e') (hcond : Heeds e a)
    (hother : a.caller ≠ some i) : Aborting e' i ∧ awaitsLeft e' i = awaitsLeft e i ∧ (Spared e i → Spared e' i) := by
  obtain ⟨args, pc, hown, hpc⟩ := h.owned hs
  obtain ⟨hcall, htrace⟩ := hm.frame hother
  refine ⟨⟨args, pc, hcall.trans hown.running, hpc.1, ?_⟩, by rw [awaitsLeft, hcall]; rfl, fun hspared => hspared.frame htrace⟩
  have howner : ∀ j args' pc', e.calls j = .running args' pc' → pc' ≠ .lifecycleLock → some j = some i := by
    intro j args' pc' hrun hin
    exact (hs.held.owned hrun hin).lock.symm.trans hown.lock
  cases hm with
  | claim | reject | giveUp | refuse => exact hpc.2
  | enter _ free =>
    rw [hown.lock] at free
    cases free
  | proceed running segment => exact absurd (howner _ _ _ running segment.1) hother
  | leave running | fire running => exact absurd (howner _ _ _ running Await.noConfusion) hother
  | cancel => exact Or.inl ⟨rfl, hcond i args pc hown.running⟩

theorem Await.aborting.set {event : Bool} {r : Nat} (h : (Await.tickWait r).aborting event) : event = true := by
  rcases h.2 with ⟨hset, _⟩ | hpc | hpc
  · exact hset
  · cases hpc
  · cases hpc

theorem Aborting.own (h : Aborting e i) (hs : Sound e) (hm : Moves cfg e a e') (hcond : Heeds e a)
    (hi : a.caller = some i) : (Aborting e' i ∨ Over e' i) ∧ (Spared e i → Spared e' i) := by
  obtain ⟨args, pc, hown, hpc⟩ := h.owned hs
  rcases hm.own hi hown.running hown.inside with ⟨o, ops, pc', io, rfl, hseg, rfl⟩ | ⟨raised, _, rfl, _⟩ | ⟨r, rfl, rfl, rfl⟩
  · obtain ⟨hops, hnext⟩ := aborting_segment hpc (fun hstart => hs.started i args (hstart ▸ hown.running)) hseg
    refine ⟨?_, fun hspared => spared_append hspared hops perform_trace⟩
    rcases hnext with hnext | ⟨raised, rfl⟩
    · refine Or.inl ⟨args, pc', Function.update_self .., ?_⟩
      rwa [goTo_cancelEvent, perform_cancelEvent hseg.keeps.1]
    · exact Or.inr (Or.inl ⟨args, raised, Function.update_self ..⟩)
  · cases hpc.1
  · refine ⟨Or.inl ⟨args, .tickFired r, Function.update_self .., rfl, Or.inl ⟨hpc.set, ?_⟩⟩, id⟩
    exact hcond hpc.set args r hown.running

theorem Over.own (h : Over e i) (hm : Moves cfg e a e') (hi : a.caller = some i) :
    Over e' i ∧ (∀ op, .op i op ∈ e'.trace → .op i op ∈ e.trace) ∧ awaitsLeft e' i < awaitsLeft e i := by
  rcases h with ⟨args, raised, hrun⟩ | ⟨ending, hend⟩
  · rcases hm.own hi hrun Await.noConfusion with ⟨_, _, _, _, _, hseg, _⟩ | ⟨_, ending, _, rfl⟩ | ⟨_, hpc, _⟩
    · exact absurd rfl (hseg.not_final raised)
    · refine ⟨Or.inr ⟨ending, Function.update_self ..⟩, fun _ => id, ?_⟩
      simp [awaitsLeft, hrun, Await.left]
    · cases hpc
  · exact absurd hi (hm.not_finished hend)

theorem Over.step (h : Over e i) (hm : Moves cfg e a e') : Over e' i ∧ (Spared e i → Spared e' i) := by
  by_cases hi : a.caller = some i
  · obtain ⟨hover, htrace, _⟩ := h.own hm hi
    exact ⟨hover, fun hspared => hspared.frame htrace⟩
  · obtain ⟨hcall, htrace⟩ := hm.frame hi
    exact ⟨by simpa only [Over, hcall] using h, fun hspared => hspared.frame htrace⟩

/-! ## Winding up -/

/-- The awaits of an aborting sequence return, and its files can be written and unlinked. -/
def Smooth (cfg : EngineConfig) (i : Nat) (e : PalEngine) : Act → Prop
  | .resume j o io => j = i → Aborting e i → (∃ value, o = .done value) ∧ io.unlinkLock = true ∧
      ∀ path ∈ candidateFlags cfg, io.writeFlag path = true ∧ io.unlinkFlag path = true
  | _ => True

structure WoundUp (cfg : EngineConfig) (e : PalEngine) (i : Nat) : Prop where
  final : ∃ args, e.calls i = .running args (.finalWs false)
  idle : e.lifecycleState = .idle
  lockFile : e.lockFile = none
  flags : ∀ path ∈ candidateFlags cfg, e.updateFlags path = none
  announced : Announced e i

/-- Where every flag can be written, none keeps the others from being cleared. -/
theorem reachedFlags_eq (h : ∀ path ∈ candidateFlags cfg, io.writeFlag path = true) : reachedFlags cfg io = candidateFlags cfg :=
  List.takeWhile_eq_self_iff.mpr fun path hpath => io.searched path (h path hpath)

theorem clearRaises_eq (h : ∀ path ∈ candidateFlags cfg, io.writeFlag path = true) : clearRaises cfg io = false := by
  unfold clearRaises
  rw [List.any_eq_false]
  intro path hpath
  simp [io.searched path (h path hpath)]

theorem clearUpdateFlag_other {flags : String → Option String} {path path' : String} (h : flags path' = none) :
    clearUpdateFlag io flags path path' = none := by
  cases hflag : flags path with
  | none => simpa only [clearUpdateFlag, hflag] using h
  | some text =>
    have hne : path' ≠ path := by
      rintro rfl
      rw [h] at hflag
      cases hflag
    simp only [clearUpdateFlag, hflag]
    split_ifs <;> simp only [Function.update_of_ne hne, h]

theorem clearUpdateFlag_self {flags : String → Option String} {path : String}
    (hio : io.writeFlag path = true ∧ io.unlinkFlag path = true) : clearUpdateFlag io flags path path = none := by
  cases hflag : flags path with
  | none => simp only [clearUpdateFlag, hflag]
  | some text => simp only [clearUpdateFlag, hflag, hio.1, hio.2, if_true, Function.update_self]

theorem clearUpdateFlags_keep {flags : String → Option String} {path : String} (h : flags path = none)
    (paths : List String) : paths.foldl (clearUpdateFlag io) flags path = none := by
  induction paths generalizing flags with
  | nil => exact h
  | cons p paths ih => exact ih (clearUpdateFlag_other h)

theorem clearUpdateFlags_mem {path : String} {paths : List String} (hmem : path ∈ paths)
    (hio : io.writeFlag path = true ∧ io.unlinkFlag path = true) (flags : String → Option String) :
    paths.foldl (clearUpdateFlag io) flags path = none := by
  induction paths generalizing flags with
  | nil => cases hmem
  | cons p paths ih =>
    rcases List.mem_cons.mp hmem with rfl | hmem
    · exact clearUpdateFlags_keep (clearUpdateFlag_self hio) paths
    · exact ih hmem _

/-- Each step of an aborting sequence brings it closer to its end, and its `finally` block undoes everything. -/
theorem Aborting.windUp (h : Aborting e i) (hs : Sound e) (hm : Moves cfg e a e') (hcond : Heeds e a)
    (hsmooth : Smooth cfg i e a) (hi : a.caller = some i) :
    awaitsLeft e' i < awaitsLeft e i ∧ (Aborting e' i ∨ WoundUp cfg e' i) := by
  obtain ⟨args, pc, hown, hpc⟩ := h.owned hs
  have hleft : ∀ pc', e'.calls i = .running args pc' → pc'.left < pc.left → awaitsLeft e' i < awaitsLeft e i := by
    intro pc' hcall hless
    simpa only [awaitsLeft, hcall, hown.running] using hless
  rcases hm.own hi hown.running hown.inside with ⟨o, ops, pc', io, rfl, hseg, rfl⟩ | ⟨raised, _, rfl, _⟩ | ⟨r, rfl, rfl, rfl⟩
  · obtain ⟨⟨value, rfl⟩, hunlink, hflags⟩ := hsmooth rfl h
    have hdone : onDone cfg io e args value pc = some (ops, pc') := by
      rcases hseg.cases with ⟨_, heq, hdone⟩ | ⟨_, heq, -⟩ | ⟨hne, -⟩
      · cases heq
        exact hdone
      · cases heq
      · exact absurd rfl (hne value)
    obtain ⟨_, hless, hnext⟩ := aborting_onDone hpc (fun hstart => hs.started i args (hstart ▸ hown.running)) hdone
    refine ⟨hleft pc' (Function.update_self ..) hless, ?_⟩
    rcases hnext with hnext | ⟨rfl, rfl, rfl⟩
    · refine Or.inl ⟨args, pc', Function.update_self .., ?_⟩
      rwa [goTo_cancelEvent, perform_cancelEvent hseg.keeps.1]
    · have hwrite := fun path hpath => (hflags path hpath).1
      refine Or.inr ⟨⟨args, clearRaises_eq hwrite ▸ Function.update_self ..⟩, rfl, if_pos hunlink,
        fun path hpath => clearUpdateFlags_mem (reachedFlags_eq hwrite ▸ hpath) (hflags path hpath) _, ?_⟩
      -- The cancellation was broadcast before the await that has just returned.
      refine (hs.unsaved.announced i ⟨args, Or.inr hown.running⟩).mono ?_
      rw [goTo_trace, perform_trace]
      exact List.subset_append_left _ _
  · cases hpc.1
  -- The timeout of its own tick fires.
  · refine ⟨hleft _ (Function.update_self ..) (by simp [Await.left]), ?_⟩
    rcases (h.own hs hm hcond hi).1 with hnext | ⟨_, _, hfinal⟩ | ⟨_, hend⟩
    · exact Or.inl hnext
    · rw [goTo_self] at hfinal
      cases hfinal
    · rw [goTo_self] at hend
      cases hend

theorem awaitsLeft_le (e : PalEngine) (i : Nat) : awaitsLeft e i ≤ 8 := by
  unfold awaitsLeft
  split
  · rename_i pc _
    cases pc <;> simp [Await.left]
  · omega

theorem aborting_enabled (cfg : EngineConfig) (io : HostIo) (args : RebootArgs) (hpc : pc.aborting e.cancelEvent) :
    ∃ r, onDone cfg io e args true pc = some r := by
  cases pc with
  | tickWait r => exact ⟨_, if_pos hpc.set⟩
  | tickAnnounce r =>
    simp only [onDone]
    split <;> exact ⟨_, rfl⟩
  | startWs | tickNotify r | tickWs r | tickFired r | cancelAnnounce | cancelNotify => exact ⟨_, rfl⟩
  | _ => cases hpc.1

/-- What becomes of call `i` over the steps `as` of a run from `e` to `t`. -/
structure WindsUp (cfg : EngineConfig) (e : PalEngine) (as : List Act) (t : PalEngine) (i : Nat) : Prop where
  /-- It takes at most eight more steps of its own. -/
  bounded : as.countP (fun a => a.caller == some i) ≤ 8
  /-- As long as it has not ended, its await can return and it goes on. -/
  enabled : (∀ ending, t.calls i ≠ .finished ending) → ∀ io, ∃ t', Step cfg t (.resume i (.done true) io) t'
  /-- When it has ended, its `finally` block has run with everything undone, and it holds no lock. -/
  ended : ∀ ending, t.calls i = .finished ending → t.lifecycleLock ≠ some i ∧
    ∃ bs cs m, as = bs ++ cs ∧ Run (Step cfg) e bs m ∧ WoundUp cfg m i ∧ Run (Step cfg) m cs t

def Winding (cfg : EngineConfig) (e : PalEngine) (as : List Act) (t : PalEngine) (i : Nat) : Prop :=
  as.countP (fun a => a.caller == some i) + awaitsLeft t i ≤ awaitsLeft e i ∧
    (Aborting t i ∨ Over t i ∧ ∃ bs cs m, as = bs ++ cs ∧ Run (Step cfg) e bs m ∧ WoundUp cfg m i ∧ Run (Step cfg) m cs t)

theorem WoundUp.over (h : WoundUp cfg e i) : Over e i := by
  obtain ⟨args, hrun⟩ := h.final
  exact Or.inl ⟨args, false, hrun⟩

theorem Winding.snoc {m : PalEngine} (h : Winding cfg e as m i) (hs : Sound m) (hrun : Run (Step cfg) e as m)
    (hstep : Step cfg m a t) (hcond : Heeds m a) (hsmooth : Smooth cfg i m a) : Winding cfg e (as ++ [a]) t i := by
  have hm := step_moves hstep
  obtain ⟨hcount, hwhere⟩ := h
  -- Each step of its own uses up an await, and the others leave it what it has.
  have hcount' : (as ++ [a]).countP (fun a => a.caller == some i) + awaitsLeft t i ≤ awaitsLeft e i := by
    rw [List.countP_append, List.countP_singleton]
    by_cases hi : a.caller = some i
    · have hless : awaitsLeft t i < awaitsLeft m i := by
        rcases hwhere with habort | ⟨hover, _⟩
        · exact (habort.windUp hs hm hcond hsmooth hi).1
        · exact (hover.own hm hi).2.2
      simp only [hi, beq_self_eq_true, if_true]
      omega
    · have hsame : awaitsLeft t i = awaitsLeft m i := by rw [awaitsLeft, awaitsLeft, (hm.frame hi).1]
      simp only [beq_iff_eq, hi, if_false, hsame]
      omega
  refine ⟨hcount', ?_⟩
  rcases hwhere with habort | ⟨hover, bs, cs, w, rfl, hbs, hw, hcs⟩
  · by_cases hi : a.caller = some i
    · rcases (habort.windUp hs hm hcond hsmooth hi).2 with hnext | hnext
      · exact Or.inl hnext
      · exact Or.inr ⟨hnext.over, as ++ [a], [], t, (List.append_nil _).symm, hrun.snoc hstep, hnext, .nil t⟩
    · exact Or.inl (habort.other hs hm hcond hi).1
  · exact Or.inr ⟨(hover.step hm).1, bs, cs ++ [a], w, List.append_assoc .., hbs, hw, hcs.snoc hstep⟩

theorem Winding.windsUp (h : Winding cfg e as t i) (hs : Sound t) : WindsUp cfg e as t i := by
  obtain ⟨hcount, hwhere⟩ := h
  refine ⟨?_, fun hrunning io => ?_, fun ending hend => ?_⟩
  · have hle := awaitsLeft_le e i
    omega
  · rcases hwhere with ⟨args, pc, hrun, hpc⟩ | ⟨⟨args, raised, hrun⟩ | ⟨ending, hend⟩, _⟩
    · obtain ⟨⟨ops, pc'⟩, hdone⟩ := aborting_enabled cfg io args hpc
      have hin := hpc.inside
      have hfinal : ∀ raised, pc ≠ .finalWs raised := by
        rintro raised rfl
        cases hpc.1
      have hresume : resume cfg io t args pc (.done true) = some (ops, .running args pc') := by
        unfold resume
        split <;> simp_all
      exact resume_enabled io hrun hresume
    · exact resume_enabled io hrun rfl
    · exact absurd hend (hrunning ending)
  · constructor
    · intro hlock
      rcases hs.held with hfree | ⟨k, args, pc, hown⟩
      · rw [hfree.lock] at hlock
        cases hlock
      · cases hown.lock.symm.trans hlock
        rw [hown.running] at hend
        cases hend
    · rcases hwhere with ⟨args, pc, hrun, _⟩ | ⟨_, hsplit⟩
      · rw [hrun] at hend
        cases hend
      · exact hsplit

/-- A confirmed cancellation outside the window of the last tick dooms the sequence. -/
theorem aborting_of_confirmed {reason : String} (hs : Sound e) (hstep : Step cfg e (.cancelCountdown reason) e')
    (hcond : Heeds e (.cancelCountdown reason)) (hconf : Confirmed e (.cancelCountdown reason) e')
    (hlock : e.lifecycleLock = some i) : Aborting e' i ∧ Spared e' i := by
  have hown : ∃ args pc, Owned e i args pc := by
    rcases hs.held with hfree | ⟨k, args, pc, hown⟩
    · rw [hfree.lock] at hlock
      cases hlock
    · cases hown.lock.symm.trans hlock
      exact ⟨args, pc, hown⟩
  obtain ⟨args, pc, hown⟩ := hown
  cases step_moves hstep with
  | cancel countdown =>
    have hpc : pc.phase = .countdown := hown.phase.symm.trans countdown
    refine ⟨⟨args, pc, hown.running, hpc, Or.inl ⟨rfl, hcond i args pc hown.running⟩⟩, fun op hmem => ?_⟩
    exact hs.unsaved.spared i args pc hown.running hpc op (by simpa using hmem)
  | refuse _ =>
    have h := List.append_cancel_left hconf.2
    cases h

theorem spared_of_aborting (hs : Sound e) (habort : Aborting e i) (hspared : Spared e i)
    (hrun : Run (Only (Step cfg) Heeds) e as t) : Spared t i := by
  have hinv : Sound t ∧ (Aborting t i ∨ Over t i) ∧ Spared t i := by
    refine hrun.invariant (I := fun t => Sound t ∧ (Aborting t i ∨ Over t i) ∧ Spared t i) ?_
      ⟨hs, Or.inl habort, hspared⟩
    rintro m a m' ⟨hsm, hwhere, hsp⟩ ⟨hstep, hcond⟩
    have hm := step_moves hstep
    refine ⟨hsm.step hm, ?_⟩
    rcases hwhere with hab | hover
    · by_cases hi : a.caller = some i
      · obtain ⟨hnext, hkeep⟩ := hab.own hsm hm hcond hi
        exact ⟨hnext, hkeep hsp⟩
      · obtain ⟨hnext, _, hkeep⟩ := hab.other hsm hm hcond hi
        exact ⟨Or.inl hnext, hkeep hsp⟩
    · obtain ⟨hnext, hkeep⟩ := hover.step hm
      exact ⟨Or.inr hnext, hkeep hsp⟩
  exact hinv.2.2

theorem windsUp_of_aborting (hs : Sound e) (habort : Aborting e i)
    (hrun : Run (Only (Step cfg) fun s a => Heeds s a ∧ Smooth cfg i s a) e as t) : WindsUp cfg e as t i := by
  have hinv : Sound t ∧ Winding cfg e as t i := by
    refine hrun.history (P := fun as t => Sound t ∧ Winding cfg e as t i) ⟨hs, by simp, Or.inl habort⟩ ?_
    rintro bs m a m' hbs ⟨hsm, hw⟩ ⟨hstep, hcond, hsmooth⟩
    exact ⟨hsm.step (step_moves hstep), hw.snoc hsm hbs.of_only hstep hcond hsmooth⟩
  exact hinv.2.windsUp hinv.1

/-- **A confirmed cancellation is final.** Unless it falls between the timeout of the last tick and
the resumption of its coroutine, the sequence never saves or restarts, and when none of its awaits
raises it winds up. -/
theorem cancellation_final {reason : String} (h : Reached cfg e)
    (hcancel : Only (Step cfg) Heeds e (.cancelCountdown reason) e')
    (hconf : Confirmed e (.cancelCountdown reason) e') (hlock : e.lifecycleLock = some i) :
    (Run (Only (Step cfg) Heeds) e' as t → Spared t i) ∧
      (Run (Only (Step cfg) fun s a => Heeds s a ∧ Smooth cfg i s a) e' as t → WindsUp cfg e' as t i) := by
  have hs := sound_of_reached h
  have hs' := hs.step (step_moves hcancel.1)
  obtain ⟨habort, hspared⟩ := aborting_of_confirmed hs hcancel.1 hcancel.2 hconf hlock
  exact ⟨spared_of_aborting hs' habort hspared, windsUp_of_aborting hs' habort⟩

theorem confirmed_of_countdown {reason : String} (hstep : Step cfg e (.cancelCountdown reason) e')
    (hphase : e.lifecycleState.phase = .countdown) : Confirmed e (.cancelCountdown reason) e' := by
  refine ⟨⟨reason, rfl⟩, ?_⟩
  cases step_moves hstep with
  | cancel => rfl
  | refuse hother => exact absurd hphase hother

def fourReturns : List Act := List.replicate 4 (.resume 0 (.done true) sampleHostIo)

theorem fourReturns_smooth : ∀ a ∈ fourReturns, ∀ e, Heeds e a ∧ Smooth sampleConfig 0 e a := by
  intro a ha e
  rw [List.eq_of_mem_replicate ha]
  exact ⟨trivial, fun _ _ => ⟨⟨true, rfl⟩, rfl, fun _ _ => ⟨rfl, rfl⟩⟩⟩

theorem cancellation_final_sample : ∃ e e' t, Reached sampleConfig e ∧
    Only (Step sampleConfig) Heeds e (.cancelCountdown "") e' ∧
    Run (Step sampleConfig) e' fourReturns t ∧ t.calls 0 = .finished .returned ∧
    Spared t 0 ∧ WindsUp sampleConfig e' fourReturns t 0 := by
  have hexec : (exec (step sampleConfig) sampleEngine (sampleCall 0 60 [])).map (fun e =>
      (e.calls 0, e.calls 1, e.lifecycleLock, e.lifecycleState.phase,
        ((step sampleConfig e (.cancelCountdown "")).bind fun e' => exec (step sampleConfig) e' fourReturns).map
          fun t => t.calls 0)) =
      some (.running (sampleArgs 60) .startWs, .absent, some 0, .countdown, some (.finished .returned)) := by
    decide +kernel
  obtain ⟨e, he, hstate⟩ := Option.map_eq_some_iff.mp hexec
  simp only [Prod.mk.injEq] at hstate
  obtain ⟨hcall, -, hlock, hphase, hrest⟩ := hstate
  obtain ⟨t, ht, hend⟩ := Option.map_eq_some_iff.mp hrest
  obtain ⟨e', hstep, hrun⟩ := Option.bind_eq_some_iff.mp ht
  have hreached := reached_of_exec he
  have hcond : Heeds e (.cancelCountdown "") := by
    intro i args pc hrun hlast
    have hpc : pc ≠ .lifecycleLock := by
      rintro rfl
      exact hlast
    cases Option.some.inj (((held_of_reached hreached).owned hrun hpc).lock.symm.trans hlock)
    rw [hcall] at hrun
    cases hrun
    exact hlast
  have hconf := confirmed_of_countdown hstep hphase
  have hsmooth := (Run.of_exec hrun).only fourReturns_smooth
  have h := @cancellation_final sampleConfig e e' t fourReturns 0 "" hreached ⟨hstep, hcond⟩ hconf hlock
  exact ⟨e, e', t, hreached, ⟨hstep, hcond⟩, Run.of_exec hrun, hend,
    h.1 (hsmooth.mono fun _ _ _ hs => ⟨hs.1, hs.2.1⟩), h.2 hsmooth⟩

/-- A countdown of one second whose timeout has fired. -/
def lastTickFired : List Act := sampleCall 0 1 (List.replicate 4 (.done true)) ++ [.fire 0]

/-- A cancellation that returns `True` in that window is lost: the sequence saves. -/
theorem cancellation_lost : ¬ ∀ e e' t as i reason, Reached sampleConfig e →
    Step sampleConfig e (.cancelCountdown reason) e' → Confirmed e (.cancelCountdown reason) e' →
    e.lifecycleLock = some i → Run (Step sampleConfig) e' as t → Spared t i := by
  have hexec : (exec (step sampleConfig) sampleEngine lastTickFired).map (fun e =>
      (e.lifecycleLock, e.lifecycleState.phase,
        ((step sampleConfig e (.cancelCountdown "")).bind fun e' =>
          exec (step sampleConfig) e' (List.replicate 4 (.resume 0 (.done true) sampleHostIo))).map
            fun t => decide (.op 0 .triggerSave ∈ t.trace))) =
      some (some 0, .countdown, some true) := by decide +kernel
  obtain ⟨e, he, hstate⟩ := Option.map_eq_some_iff.mp hexec
  simp only [Prod.mk.injEq] at hstate
  obtain ⟨hlock, hphase, hrest⟩ := hstate
  obtain ⟨t, ht, hmem⟩ := Option.map_eq_some_iff.mp hrest
  obtain ⟨e', hstep, hrun⟩ := Option.bind_eq_some_iff.mp ht
  have hconf := confirmed_of_countdown hstep hphase
  intro h
  exact h e e' t _ 0 "" (reached_of_exec he) hstep hconf hlock (Run.of_exec hrun) _ (of_decide_eq_true hmem)

end Palworld.Engine

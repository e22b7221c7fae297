import Palworld.Engine.Cancel

/-!
# What an aborted sequence leaves behind

The update flags are cleared on the cancel branch, the lock file and the lifecycle state in
the `finally` block. An await that raises skips the first.
-/

open Lib

namespace Palworld.Engine

variable {cfg : EngineConfig} {s e e' m t : PalEngine} {a : Act} {as : List Act} {i : Nat} {args : RebootArgs}
  {pc pc' : Await} {o : Outcome} {io : HostIo} {ops : List Op} {raised : Bool} {set : String → Prop}

/-! ## Before SAVING -/

def Await.early : Await → Prop
  | .startWs | .tickAnnounce _ | .tickNotify _ | .tickWs _ | .tickWait _ | .tickFired _ => True
  | .cancelAnnounce | .cancelNotify | .instantAnnounce | .instantNotify => True
  | _ => False

def Await.late (pc : Await) : Prop := ¬ pc.early ∧ pc ≠ .lifecycleLock ∧ ∀ raised, pc ≠ .finalWs raised

def EnteredSaving (e : PalEngine) (i : Nat) : Prop := ∃ st, .op i (.setLifecycle st) ∈ e.trace ∧ st.phase = .saving

/-- The actions since call `i` last went on. -/
def Since (i : Nat) (as after : List Act) : Prop :=
  ∃ before o io, as = before ++ .resume i o io :: after ∧ ∀ o io, .resume i o io ∉ after

/-- Another call has started since call `i` last went on. -/
def StartedSince (as : List Act) (i : Nat) : Prop :=
  ∃ after, Since i as after ∧ ∃ j args now lockIo, .start j args now lockIo ∈ after

/-- Call `i` takes no step that skips a part of the cleanup. -/
def Tidy (cfg : EngineConfig) (i : Nat) (set : String → Prop) (e : PalEngine) : Act → Prop
  | .resume j o io => j = i → ∀ args pc, e.calls i = .running args pc →
      -- It is not cancelled in the queue, unless there is nothing to clean up.
      (pc = .lifecycleLock → o = .cancelled → e.lifecycleState.phase = .idle ∧ e.lockFile = none) ∧
      -- With an update flag set, no await before SAVING raises.
      (pc.early → (∃ value, o = .done value) ∨ ∀ path, ¬ set path) ∧
      -- The files can be written and unlinked, and no `exists` raises before their turn.
      (pc = .cancelNotify → ∀ path, set path → path ∈ reachedFlags cfg io ∧ io.writeFlag path = true ∧ io.unlinkFlag path = true) ∧
      (pc.early → pc = .cancelNotify ∨ (∀ value, o ≠ .done value) → io.unlinkLock = true ∨ e.lockFile = none)
  | _ => True

/-! ## Segments -/

theorem restartHead_saving (e : PalEngine) : ∃ st, .setLifecycle st ∈ (restartHead e).1 ∧ st.phase = .saving :=
  ⟨_, List.mem_cons_self, rfl⟩

theorem loopHead_late {args : RebootArgs} {r : Nat} (h : (loopHead e args r).2.late) :
    ∃ st, .setLifecycle st ∈ (loopHead e args r).1 ∧ st.phase = .saving := by
  rcases loopHead_cases e args r with hloop | ⟨_, hloop⟩ | hloop <;> rw [hloop] at h ⊢
  · exact restartHead_saving e
  · exact absurd trivial h.1
  · rcases tickHead_await e args r with hpc | hpc <;> rw [hpc] at h <;> exact absurd trivial h.1

/-- A sequence gets past the countdown by entering SAVING. -/
theorem Segment.late (h : Segment cfg io e args pc o ops pc') (hpc : pc.early) (hpc' : pc'.late) :
    ∃ st, .setLifecycle st ∈ ops ∧ st.phase = .saving := by
  rcases h.cases with ⟨value, _, hdone⟩ | ⟨rfl, -⟩ | ⟨_, -, rfl⟩
  · cases pc with
    | startWs =>
      have hloop := @loopHead_late e args args.countdownSeconds
      rw [Option.some.inj hdone] at hloop
      exact hloop hpc'
    | tickFired r =>
      have hloop := @loopHead_late e args (r - 1)
      rw [Option.some.inj hdone] at hloop
      exact hloop hpc'
    | instantNotify =>
      cases hdone
      exact restartHead_saving e
    | tickAnnounce r | tickWs r | tickWait r =>
      simp only [onDone, Option.some.injEq] at hdone
      split at hdone <;> cases hdone <;> exact absurd trivial hpc'.1
    | tickNotify r | cancelAnnounce | instantAnnounce =>
      cases hdone
      exact absurd trivial hpc'.1
    | cancelNotify =>
      cases hdone
      exact absurd rfl (hpc'.2.2 _)
    | _ => cases hpc
  · cases hpc
  · exact absurd rfl (hpc'.2.2 true)

theorem loopHead_ne_finalWs (e : PalEngine) (args : RebootArgs) (r : Nat) (raised : Bool) :
    (loopHead e args r).2 ≠ .finalWs raised := by
  rcases loopHead_cases e args r with hloop | ⟨_, hloop⟩ | hloop <;> rw [hloop]
  · exact Await.noConfusion
  · exact Await.noConfusion
  · rcases tickHead_await e args r with hpc | hpc <;> rw [hpc] <;> exact Await.noConfusion

/-- Before SAVING, the `finally` block follows the cancel branch or an await that raised. -/
theorem Segment.final_early (h : Segment cfg io e args pc o ops (.finalWs raised)) (hpc : pc.early) :
    (∃ value, o = .done value) ∧ pc = .cancelNotify ∧ ops = .clearUpdateFlags :: (finallyBlock false).1 ∨
      (∀ value, o ≠ .done value) ∧ ops = (finallyBlock true).1 := by
  rcases h.cases with ⟨value, hvalue, hdone⟩ | ⟨rfl, -⟩ | ⟨hne, hops, -⟩
  · left
    cases pc with
    | startWs => exact (loopHead_ne_finalWs _ _ _ _ (congrArg Prod.snd (Option.some.inj hdone))).elim
    | tickFired r => exact (loopHead_ne_finalWs _ _ _ _ (congrArg Prod.snd (Option.some.inj hdone))).elim
    | tickAnnounce r | tickWs r | tickWait r =>
      simp only [onDone, Option.some.injEq] at hdone
      split at hdone <;> cases hdone
    | tickNotify r | cancelAnnounce | instantAnnounce | instantNotify => cases hdone
    | cancelNotify =>
      cases hdone
      exact ⟨⟨value, hvalue⟩, rfl, rfl⟩
    | _ => cases hpc
  · cases hpc
  · exact .inr ⟨hne, hops⟩

/-! ## The other calls -/

/-- While a call is inside its sequence, the others leave the flags alone, and touch the lock file when they start. -/
theorem Owned.frame (h : Owned e i args pc) (hm : Moves cfg e a e') (hi : a.caller ≠ some i) :
    e'.updateFlags = e.updateFlags ∧ (e'.lockFile = e.lockFile ∨ ∃ j args now lockIo, a = .start j args now lockIo) := by
  have hother : ∀ {j : Nat}, some j ≠ some i → j ≠ i := fun hj heq => hj (congrArg some heq)
  cases hm with
  | claim | reject => exact ⟨rfl, .inr ⟨_, _, _, _, rfl⟩⟩
  | enter waiting free => exact absurd (h.lock.symm.trans free) (Option.some_ne_none i)
  | giveUp | fire | cancel | refuse => exact ⟨rfl, .inl rfl⟩
  | proceed running segment =>
    exact absurd (h.others _ (hother hi) _ _ running) segment.1
  | leave running => exact absurd (h.others _ (hother hi) _ _ running) Await.noConfusion

/-! ## The SAVING phase -/

def SavedLate (e : PalEngine) : Prop := ∀ i args pc, e.calls i = .running args pc → pc.late → EnteredSaving e i

theorem EnteredSaving.mono (h : EnteredSaving e i) (hsub : e.trace ⊆ e'.trace) : EnteredSaving e' i := by
  obtain ⟨st, hmem, hst⟩ := h
  exact ⟨st, hsub hmem, hst⟩

theorem Moves.trace_subset (hm : Moves cfg e a e') : e.trace ⊆ e'.trace := by
  cases hm with
  | claim | reject | giveUp | leave | fire => exact List.Subset.refl _
  | enter | proceed =>
    rw [goTo_trace, perform_trace]
    exact List.subset_append_left _ _
  | cancel | refuse => exact List.subset_append_left _ _

theorem enterSequence_not_late (args : RebootArgs) : ¬ (enterSequence args).2.late := by
  intro hlate
  rcases enterSequence_await args with hpc | hpc <;> rw [hpc] at hlate <;> exact hlate.1 trivial

theorem SavedLate.step (h : SavedLate e) (hm : Moves cfg e a e') : SavedLate e' := by
  intro i args pc hrun hlate
  by_cases hi : a.caller = some i
  · cases hm with
    | cancel | refuse => cases hi
    | claim | reject | giveUp | leave =>
      cases hi
      rw [goTo_self] at hrun
      cases hrun
      try exact absurd rfl hlate.2.1
    | enter =>
      cases hi
      rw [goTo_self] at hrun
      cases hrun
      exact absurd hlate (enterSequence_not_late _)
    | fire =>
      cases hi
      rw [goTo_self] at hrun
      cases hrun
      exact absurd trivial hlate.1
    | @proceed j args' pc₀ pc' o ops io running segment =>
      cases hi
      rw [goTo_self] at hrun
      cases hrun
      by_cases hearly : pc₀.early
      -- The segment that leaves the countdown enters SAVING.
      · obtain ⟨st, hmem, hst⟩ := segment.late hearly hlate
        refine ⟨st, ?_, hst⟩
        rw [goTo_trace, perform_trace]
        exact List.mem_append_right _ (List.mem_map_of_mem hmem)
      · refine (h _ _ _ running ⟨hearly, segment.1, segment.not_final⟩).mono ?_
        rw [goTo_trace, perform_trace]
        exact List.subset_append_left _ _
  · exact (h i args pc ((hm.frame hi).1 ▸ hrun) hlate).mono hm.trace_subset

/-! ## The actions so far -/

theorem Since.snoc {after : List Act} (h : Since i as after) (ha : a.caller ≠ some i) :
    Since i (as ++ [a]) (after ++ [a]) := by
  obtain ⟨before, o, io, rfl, hnone⟩ := h
  refine ⟨before, o, io, by simp, fun o io hmem => ?_⟩
  rcases List.mem_append.mp hmem with hmem | hmem
  · exact hnone o io hmem
  · exact ha (congrArg Act.caller (List.mem_singleton.mp hmem).symm)

theorem StartedSince.snoc (h : StartedSince as i) (ha : a.caller ≠ some i) : StartedSince (as ++ [a]) i := by
  obtain ⟨after, hsince, j, args, now, lockIo, hstart⟩ := h
  exact ⟨after ++ [a], hsince.snoc ha, j, args, now, lockIo, List.mem_append_left _ hstart⟩

theorem Moves.past (hm : Moves cfg e a e') (hi : a.caller = some i) (habsent : e.calls i ≠ .absent) :
    e'.calls i ≠ .absent ∧ ∀ args, e'.calls i ≠ .running args .lifecycleLock := by
  cases hm with
  | cancel | refuse => cases hi
  | claim absent | reject absent =>
    cases hi
    exact absurd absent habsent
  | giveUp | leave | fire =>
    cases hi
    rw [goTo_self]
    exact ⟨Call.noConfusion, fun _ hcall => by cases hcall⟩
  | @enter j args =>
    cases hi
    rw [goTo_self]
    refine ⟨Call.noConfusion, fun args' hcall => ?_⟩
    rcases enterSequence_await args with hpc | hpc <;> rw [hpc] at hcall <;> cases hcall
  | proceed running segment =>
    cases hi
    rw [goTo_self]
    refine ⟨Call.noConfusion, fun args' hcall => ?_⟩
    cases hcall
    exact segment.keeps.2.2 rfl

/-- Call `i` has cleaned up, and may still be at its last broadcast. -/
structure CleanedUp (set : String → Prop) (i : Nat) (as : List Act) (e : PalEngine) : Prop where
  flags : ∀ path, set path → e.updateFlags path = none
  lockFile : e.lockFile = none ∨ StartedSince as i

structure Tracked (set : String → Prop) (i : Nat) (as : List Act) (e : PalEngine) : Prop where
  held : Held e
  saved : SavedLate e
  acquired : ∀ io, .acquire i io ∈ as → e.calls i ≠ .absent ∧ ∀ args, e.calls i ≠ .running args .lifecycleLock
  resumed : ∀ args raised, e.calls i = .running args (.finalWs raised) → ∃ after, Since i as after
  cleaned : ∀ args raised, e.calls i = .running args (.finalWs raised) → ¬ EnteredSaving e i → CleanedUp set i as e

theorem Tracked.acquired_step (h : Tracked set i as e) (hm : Moves cfg e a e') (hmem : .acquire i io ∈ as ++ [a]) :
    e'.calls i ≠ .absent ∧ ∀ args, e'.calls i ≠ .running args .lifecycleLock := by
  rcases List.mem_append.mp hmem with hmem | hmem
  · by_cases hi : a.caller = some i
    · exact hm.past hi (h.acquired io hmem).1
    · rw [(hm.frame hi).1]
      exact h.acquired io hmem
  · cases List.mem_singleton.mp hmem
    refine hm.past rfl ?_
    cases hm with
    | enter waiting =>
      rw [waiting]
      exact Call.noConfusion

theorem Tracked.cleaned_other (h : Tracked set i as e) (hm : Moves cfg e a e') (hi : a.caller ≠ some i)
    (hrun : e.calls i = .running args (.finalWs raised)) (hclean : CleanedUp set i as e) :
    CleanedUp set i (as ++ [a]) e' := by
  obtain ⟨hflags, hlock⟩ := (h.held.owned hrun Await.noConfusion).frame hm hi
  refine ⟨fun path hpath => ?_, ?_⟩
  · rw [hflags]
    exact hclean.flags path hpath
  · rcases hlock with hlock | ⟨j, args', now, lockIo, rfl⟩
    · rw [hlock]
      exact hclean.lockFile.imp_right fun hstarted => hstarted.snoc hi
    -- A new lock file belongs to a call that has just started.
    · obtain ⟨after, hsince⟩ := h.resumed args raised hrun
      exact .inr ⟨_, hsince.snoc hi, j, args', now, lockIo, List.mem_append_right _ (List.mem_singleton_self _)⟩

theorem CleanedUp.of_final (hrun : e.calls i = .running args pc) (hseg : Segment cfg io e args pc o ops (.finalWs raised)) (hearly : pc.early)
    (htidy : Tidy cfg i set e (.resume i o io)) :
    CleanedUp set i (as ++ [.resume i o io]) ((perform cfg io i ops e).goTo i (.running args (.finalWs raised))) := by
  obtain ⟨-, hflags, hio, hunlink⟩ := htidy rfl args pc hrun
  have hrelease : io.unlinkLock = true ∨ e.lockFile = none → (if io.unlinkLock then none else e.lockFile) = none := by
    rintro (h | h) <;> simp [h]
  rcases hseg.final_early hearly with ⟨-, rfl, rfl⟩ | ⟨hraised, rfl⟩
  -- The cancel branch clears the flags, and the `finally` block does not.
  · refine ⟨fun path hpath => ?_, .inl (hrelease (hunlink hearly (.inl rfl)))⟩
    obtain ⟨hreached, hio⟩ := hio rfl path hpath
    exact clearUpdateFlags_mem hreached hio _
  · refine ⟨fun path hpath => ?_, .inl (hrelease (hunlink hearly (.inr hraised)))⟩
    -- After an exception nothing clears them: a tidy call has set none.
    rcases hflags hearly with ⟨value, hvalue⟩ | hnone
    · exact absurd hvalue (hraised value)
    · exact absurd hpath (hnone path)

theorem Moves.to_final (hm : Moves cfg e a e') (hrun : e'.calls i = .running args (.finalWs raised)) :
    (a.caller ≠ some i ∧ e.calls i = .running args (.finalWs raised)) ∨
      ∃ pc o ops io, a = .resume i o io ∧ e.calls i = .running args pc ∧ Segment cfg io e args pc o ops (.finalWs raised) ∧
        e' = (perform cfg io i ops e).goTo i (.running args (.finalWs raised)) := by
  by_cases hi : a.caller = some i
  · right
    cases hm with
    | cancel | refuse => cases hi
    | claim | reject | giveUp | leave | fire =>
      cases hi
      rw [goTo_self] at hrun
      cases hrun
    | @enter j args' =>
      cases hi
      rw [goTo_self] at hrun
      rcases enterSequence_await args' with hpc | hpc <;> rw [hpc] at hrun <;> cases hrun
    | proceed running segment =>
      cases hi
      rw [goTo_self] at hrun
      cases hrun
      exact ⟨_, _, _, _, rfl, running, segment, rfl⟩
  · exact .inl ⟨hi, (hm.frame hi).1 ▸ hrun⟩

theorem Tracked.step (h : Tracked set i as e) (hm : Moves cfg e a e') (htidy : Tidy cfg i set e a) : Tracked set i (as ++ [a]) e' := by
  refine ⟨h.held.step hm, h.saved.step hm, fun io hmem => h.acquired_step hm hmem, fun args raised hrun => ?_,
    fun args raised hrun hsaving => ?_⟩
  · rcases hm.to_final hrun with ⟨hi, hbefore⟩ | ⟨pc, o, ops, io, rfl, -⟩
    · obtain ⟨after, hsince⟩ := h.resumed args raised hbefore
      exact ⟨_, hsince.snoc hi⟩
    · exact ⟨[], as, o, io, rfl, fun _ _ => List.not_mem_nil⟩
  · have hbefore_saving : ¬ EnteredSaving e i := fun hs => hsaving (hs.mono hm.trace_subset)
    rcases hm.to_final hrun with ⟨hi, hbefore⟩ | ⟨pc, o, ops, io, rfl, hbefore, hseg, rfl⟩
    · exact h.cleaned_other hm hi hbefore (h.cleaned args raised hbefore hbefore_saving)
    · refine .of_final hbefore hseg ?_ htidy
      by_contra hlate
      exact hbefore_saving (h.saved i args pc hbefore ⟨hlate, hseg.1, hseg.not_final⟩)

theorem tracked_run (hs : Initial s) (hrun : Run (Only (Step cfg) (Tidy cfg i set)) s as m) : Tracked set i as m := by
  refine hrun.history (P := Tracked set i) ?_ fun as m a t _ h hstep => h.step (step_moves hstep.1) hstep.2
  obtain ⟨lockFile, flags, store, rfl⟩ := hs
  refine ⟨held_new, ?_, ?_, ?_, ?_⟩
  · intro i args pc hcall
    cases hcall
  · intro io hmem
    cases hmem
  · intro args raised hcall
    cases hcall
  · intro args raised hcall
    cases hcall

end Palworld.Engine

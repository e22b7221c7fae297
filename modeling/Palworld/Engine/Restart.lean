import Palworld.Engine.Lock

/-!
# Save, restart, readiness, announcement

What must have happened before a sequence restarts the server, and before it
says that the server is back.
-/

open Lib

namespace Palworld.Engine

variable {cfg : EngineConfig} {e e' : PalEngine} {a : Act} {i j : Nat} {args : RebootArgs} {pc pc' : Await}
  {o : Outcome} {io : HostIo} {ops : List Op} {call : Call}

/-- `restart_service` is requested only after `trigger_save` returned `True` in the same sequence. -/
def SavedFirst (e : PalEngine) : Prop :=
  ∀ i service, Preceded [.op i (.saveReturned true)] (.op i (.restartService service)) e.trace

/-- The reboot-complete notification comes only after the restart call of the same sequence
reported success, and a readiness probe after it reported ready. -/
def RestartedFirst (cfg : EngineConfig) (e : PalEngine) : Prop :=
  ∀ i name, Preceded [.op i (.restartService cfg.serviceName), .op i (.restartReturned true), .op i (.readiness true)]
    (.op i (.notifyRebootComplete name)) e.trace

/-- What call `i` has done by the time it reaches an await. -/
def Await.doneBy (cfg : EngineConfig) (i : Nat) : Await → List Entry
  | .savingSleep | .maintenanceWs => [.op i (.saveReturned true)]
  | .restarting => [.op i (.restartService cfg.serviceName)]
  | .maintenanceSleep | .probingWs | .probing _ | .probingSleep _ =>
    [.op i (.restartService cfg.serviceName), .op i (.restartReturned true)]
  | _ => []

/-- No result that the code drops is a failure: not that of `trigger_save`, nor that of the restart call. -/
def ResultsHold (e : PalEngine) : Act → Prop
  | .resume i o _ => ∀ args pc, e.calls i = .running args pc →
      (pc = .saving → o ≠ .done false) ∧ (pc = .restarting → o ≠ .done false ∧ o ≠ .error)
  | _ => True

/-- An operation that is neither the restart nor the announcement. -/
def Op.ordinary : Op → Prop
  | .restartService _ | .notifyRebootComplete _ => False
  | _ => True

theorem loopHead_ordinary (cfg : EngineConfig) (i : Nat) (e : PalEngine) (args : RebootArgs) (r : Nat) :
    (∀ op ∈ (loopHead e args r).1, op.ordinary) ∧ (loopHead e args r).2.doneBy cfg i = [] := by
  rcases loopHead_cases e args r with hloop | ⟨_, hloop⟩ | hloop <;> rw [hloop]
  · simp [restartHead, enterPhase, Op.ordinary, Await.doneBy]
  · simp [cancelBranch, Op.ordinary, Await.doneBy]
  · constructor
    · intro op hop
      rcases tickHead_ops r hop with ⟨_, rfl, _⟩ | ⟨_, rfl⟩ | ⟨_, rfl⟩ <;> trivial
    · rcases tickHead_await e args r with h | h <;> rw [h] <;> rfl

def Ordinary (cfg : EngineConfig) (i : Nat) (pc : Await) (ops : List Op) (pc' : Await) : Prop :=
  (∀ op ∈ ops, op.ordinary) ∧ (pc'.doneBy cfg i).Sublist (pc.doneBy cfg i ++ ops.map (.op i))

theorem onDone_ordinary {value : Bool} (h : onDone cfg io e args value pc = some (ops, pc'))
    (hrestart : pc ≠ .maintenanceWs) (hprobe : ∀ k, pc = .probing k → value = false)
    (hsave : pc = .saving → value = true) (hsuccess : pc = .restarting → value = true) :
    Ordinary cfg i pc ops pc' := by
  have hloop : ∀ r, loopHead e args r = (ops, pc') → Ordinary cfg i pc ops pc' := by
    intro r hr
    obtain ⟨hops, hdone⟩ := loopHead_ordinary cfg i e args r
    rw [hr] at hops hdone
    exact ⟨hops, hdone ▸ List.nil_sublist _⟩
  cases pc with
  | startWs => exact hloop _ (Option.some.inj h)
  | tickFired r => exact hloop _ (Option.some.inj h)
  | maintenanceWs => exact absurd rfl hrestart
  | saving =>
    cases hsave rfl
    cases h
    simp [Ordinary, Op.ordinary, Await.doneBy]
  | restarting =>
    cases hsuccess rfl
    cases h
    simp [Ordinary, Op.ordinary, Await.doneBy]
  | probing k =>
    cases hprobe k rfl
    cases h
    simp [Ordinary, Op.ordinary, Await.doneBy]
  | _ =>
    simp only [onDone, Option.some.injEq, reduceCtorEq] at h
    all_goals try split at h
    all_goals cases h
    all_goals simp [Ordinary, Op.ordinary, Await.doneBy, enterPhase, finallyBlock]

theorem Segment.restart (h : Segment cfg io e args pc o ops pc') (hposix : cfg.posix = true)
    (hsave : pc = .saving → o ≠ .done false) (hsuccess : pc = .restarting → o ≠ .done false ∧ o ≠ .error) :
    Ordinary cfg i pc ops pc' ∨
      (pc = .maintenanceWs ∧ ops = [.applyStagedConfiguration, .restartService cfg.serviceName] ∧ pc' = .restarting) ∨
      ∃ k name, pc = .probing k ∧ ops = [.readiness true, .notifyRebootComplete name] ∧ pc' = .completeNotify := by
  rcases h.cases with ⟨value, rfl, hdone⟩ | ⟨rfl, rfl, -⟩ | ⟨_, rfl, rfl⟩
  · have htrue : ∀ value, Outcome.done value ≠ .done false → value = true := by simp
    by_cases hpc : pc = .maintenanceWs
    · subst hpc
      simp only [onDone, hposix, if_true, Option.some.injEq] at hdone
      cases hdone
      exact Or.inr (Or.inl ⟨rfl, rfl, rfl⟩)
    by_cases hprobe : ∃ k, pc = .probing k ∧ value = true
    · obtain ⟨k, rfl, rfl⟩ := hprobe
      cases hdone
      exact Or.inr (Or.inr ⟨k, _, rfl, rfl, rfl⟩)
    · refine Or.inl (onDone_ordinary hdone hpc (fun k hk => ?_) (fun hs => htrue _ (hsave hs))
        (fun hr => htrue _ (hsuccess hr).1))
      by_contra hvalue
      exact hprobe ⟨k, hk, by simpa using hvalue⟩
  · exact absurd rfl (hsuccess rfl).2
  · left
    simp [Ordinary, finallyBlock, Op.ordinary, Await.doneBy]

/-! ## The invariant -/

structure Ordered (cfg : EngineConfig) (e : PalEngine) : Prop where
  saved : SavedFirst e
  restarted : RestartedFirst cfg e
  doneBy : ∀ i args pc, e.calls i = .running args pc → (pc.doneBy cfg i).Sublist e.trace

theorem Ordered.extend (h : Ordered cfg e) (more : List Entry) (hmore : ∀ i op, .op i op ∈ more → op.ordinary)
    (htrace : e'.trace = e.trace ++ more) (hcalls : ∀ j, j ≠ i → e'.calls j = e.calls j)
    (hcall : ∀ args pc, e'.calls i = .running args pc → (pc.doneBy cfg i).Sublist e'.trace) : Ordered cfg e' := by
  refine ⟨fun j service => ?_, fun j name => ?_, fun j args pc hrun => ?_⟩
  · rw [htrace]
    exact (h.saved j service).append fun hmem => hmore j _ hmem
  · rw [htrace]
    exact (h.restarted j name).append fun hmem => hmore j _ hmem
  · by_cases hj : j = i
    · exact hj ▸ hcall args pc (hj ▸ hrun)
    · rw [htrace]
      exact (h.doneBy j args pc (hcalls j hj ▸ hrun)).trans (List.sublist_append_left _ _)

theorem Ordered.proceed (h : Ordered cfg e) (hrun : e.calls i = .running args pc)
    (hseg : Segment cfg io e args pc o ops pc') (hposix : cfg.posix = true)
    (hsave : pc = .saving → o ≠ .done false) (hsuccess : pc = .restarting → o ≠ .done false ∧ o ≠ .error) :
    Ordered cfg ((perform cfg io i ops e).goTo i (.running args pc')) := by
  have hdone := h.doneBy i args pc hrun
  have hother : ∀ j, j ≠ i → ((perform cfg io i ops e).goTo i (.running args pc')).calls j = e.calls j := by
    intro j hj
    rw [goTo_calls, Function.update_of_ne hj, perform_calls]
  have hself : ∀ args' pc'', ((perform cfg io i ops e).goTo i (.running args pc')).calls i = .running args' pc'' →
      pc'' = pc' := by
    intro args' pc'' hcall
    rw [goTo_self] at hcall
    cases hcall
    rfl
  rcases hseg.restart (i := i) hposix hsave hsuccess with ⟨hord, hnext⟩ | ⟨rfl, rfl, rfl⟩ | ⟨k, name, rfl, rfl, rfl⟩
  -- Neither the restart nor the announcement is among the operations.
  · refine h.extend (ops.map (.op i)) ?_ perform_trace hother fun args' pc'' hcall => ?_
    · intro j op hmem
      obtain ⟨op', hop', heq⟩ := List.mem_map.mp hmem
      cases heq
      exact hord op hop'
    · cases hself _ _ hcall
      exact perform_trace ▸ hnext.trans (hdone.append (List.Sublist.refl _))
  · -- The restart request: the save has returned.
    refine ⟨fun j service => ?_, fun j name => ?_, fun j args' pc'' hcall => ?_⟩
    · rw [goTo_trace, perform_trace, List.map_cons, List.append_cons]
      refine ((h.saved j service).snoc fun heq => by cases heq).snoc fun heq => ?_
      cases heq
      exact hdone.trans (List.sublist_append_left _ _)
    · rw [goTo_trace, perform_trace]
      exact (h.restarted j name).append (by simp)
    · rw [goTo_trace, perform_trace]
      by_cases hj : j = i
      · subst hj
        cases hself _ _ hcall
        exact (List.singleton_sublist.mpr (by simp)).trans (List.sublist_append_right _ _)
      · exact (h.doneBy j args' pc'' (hother j hj ▸ hcall)).trans (List.sublist_append_left _ _)
  · -- The announcement: the restart has succeeded, and the probe before it was ready.
    refine ⟨fun j service => ?_, fun j name' => ?_, fun j args' pc'' hcall => ?_⟩
    · rw [goTo_trace, perform_trace]
      exact (h.saved j service).append (by simp)
    · rw [goTo_trace, perform_trace, List.map_cons, List.append_cons]
      refine ((h.restarted j name').snoc fun heq => by cases heq).snoc fun heq => ?_
      cases heq
      exact hdone.append (List.Sublist.refl [_])
    · rw [goTo_trace, perform_trace]
      by_cases hj : j = i
      · subst hj
        cases hself _ _ hcall
        exact List.nil_sublist _
      · exact (h.doneBy j args' pc'' (hother j hj ▸ hcall)).trans (List.sublist_append_left _ _)

theorem enterSequence_ordinary (cfg : EngineConfig) (i : Nat) (args : RebootArgs) :
    (∀ op ∈ (enterSequence args).1, op.ordinary) ∧ (enterSequence args).2.doneBy cfg i = [] := by
  simp only [enterSequence]
  split_ifs <;> simp [Op.ordinary, Await.doneBy]

/-- A step that performs nothing of note, and leads call `i` to no await that needs anything. -/
theorem Ordered.goTo (h : Ordered cfg e) (htrace : e'.trace = e.trace)
    (hcalls : e'.calls = Function.update e.calls i call)
    (hcall : ∀ args pc, call = .running args pc → pc.doneBy cfg i = []) : Ordered cfg e' := by
  refine h.extend (i := i) [] (by simp) (by rw [htrace, List.append_nil]) (fun j hj => ?_) fun args pc hrun => ?_
  · rw [hcalls, Function.update_of_ne hj]
  · rw [hcalls, Function.update_self] at hrun
    rw [hcall args pc hrun]
    exact List.nil_sublist _

theorem Ordered.step (h : Ordered cfg e) (hposix : cfg.posix = true) (hm : Moves cfg e a e') (hcond : ResultsHold e a) :
    Ordered cfg e' := by
  cases hm with
  | claim => exact h.goTo rfl rfl fun _ _ hrun => by cases hrun; rfl
  | reject => exact h.goTo rfl rfl fun _ _ hrun => by cases hrun
  | @enter i args io waiting free =>
    obtain ⟨hord, hnone⟩ := enterSequence_ordinary cfg i args
    refine h.extend (i := i) ((enterSequence args).1.map (.op i)) ?_ perform_trace (fun j hj => ?_) fun args' pc hrun => ?_
    · intro j op hmem
      obtain ⟨op', hop', heq⟩ := List.mem_map.mp hmem
      cases heq
      exact hord op hop'
    · rw [goTo_calls, Function.update_of_ne hj, perform_calls]
    · rw [goTo_self] at hrun
      cases hrun
      rw [hnone]
      exact List.nil_sublist _
  | giveUp => exact h.goTo rfl rfl fun _ _ hrun => by cases hrun
  | proceed running segment =>
    obtain ⟨hsave, hsuccess⟩ := hcond _ _ running
    exact h.proceed running segment hposix hsave hsuccess
  | leave => exact h.goTo rfl rfl fun _ _ hrun => by cases hrun
  | fire => exact h.goTo rfl rfl fun _ _ hrun => by cases hrun; rfl
  | cancel => exact h.extend (i := 0) [.cancelReturned true] (by simp) rfl (fun _ _ => rfl) fun args pc hrun =>
      (h.doneBy 0 args pc hrun).trans (List.sublist_append_left _ _)
  | refuse => exact h.extend (i := 0) [.cancelReturned false] (by simp) rfl (fun _ _ => rfl) fun args pc hrun =>
      (h.doneBy 0 args pc hrun).trans (List.sublist_append_left _ _)

theorem ordered_new {lockFile : Option ℚ} {flags : String → Option String} {store : Settings.Store} :
    Ordered cfg (.new lockFile flags store) :=
  ⟨fun _ _ => preceded_nil, fun _ _ => preceded_nil, fun _ _ _ hrun => by cases hrun⟩

/-- **Save before restart, success before announcement.** As long as no save and no restart call fails. -/
theorem saved_and_restarted_first (hposix : cfg.posix = true)
    (h : Reachable Initial (Only (Step cfg) ResultsHold) e) : SavedFirst e ∧ RestartedFirst cfg e := by
  have hord : Ordered cfg e := by
    refine h.invariant (I := Ordered cfg) ?_ ?_
    · rintro s ⟨lockFile, flags, store, rfl⟩
      exact ordered_new
    · rintro s a t hord ⟨hstep, hcond⟩
      exact hord.step hposix (step_moves hstep) hcond
  exact ⟨hord.saved, hord.restarted⟩

def wholeRestart : List Act := sampleCall 0 0 (List.replicate 14 (.done true))

theorem wholeRestart_holds : ∀ a ∈ wholeRestart, ∀ e, ResultsHold e a := by
  intro a ha e
  simp only [wholeRestart, sampleCall, List.mem_cons, List.mem_map, List.mem_replicate] at ha
  rcases ha with rfl | rfl | ⟨o, ⟨_, rfl⟩, rfl⟩
  · trivial
  · trivial
  · intro args pc _
    simp

theorem saved_and_restarted_first_whole : ∃ e, exec (step sampleConfig) sampleEngine wholeRestart = some e ∧
    .op 0 (.notifyRebootComplete "Palworld Server") ∈ e.trace ∧ SavedFirst e ∧ RestartedFirst sampleConfig e := by
  have hexec : (exec (step sampleConfig) sampleEngine wholeRestart).map
      (fun e => decide (.op 0 (.notifyRebootComplete "Palworld Server") ∈ e.trace)) = some true := by decide +kernel
  obtain ⟨e, he, hmem⟩ := Option.map_eq_some_iff.mp hexec
  have hrun := (Run.of_exec he).only wholeRestart_holds
  exact ⟨e, he, of_decide_eq_true hmem,
    saved_and_restarted_first rfl ⟨sampleEngine, _, ⟨_, _, _, rfl⟩, hrun⟩⟩

def failedAt (k : Nat) : List Act :=
  sampleCall 0 0 (List.replicate (k - 1) (.done true) ++ .done false :: List.replicate (14 - k) (.done true))

/-- A save that failed is followed by the restart, and a restart that failed by the announcement. -/
theorem failures_dropped : (∃ e, Reached sampleConfig e ∧ ¬ SavedFirst e) ∧
    ∃ e, Reached sampleConfig e ∧ ¬ RestartedFirst sampleConfig e := by
  constructor
  · have hexec : (exec (step sampleConfig) sampleEngine (failedAt 6)).map (fun e =>
        decide (.op 0 (.restartService "palworld.service") ∈ e.trace ∧ .op 0 (.saveReturned true) ∉ e.trace)) =
        some true := by decide +kernel
    obtain ⟨e, he, hmem⟩ := Option.map_eq_some_iff.mp hexec
    obtain ⟨hrestart, hsave⟩ := of_decide_eq_true hmem
    refine ⟨e, reached_of_exec he, fun hsaved => hsave ?_⟩
    exact ((hsaved 0 _).sublist hrestart).subset (by simp)
  · have hexec : (exec (step sampleConfig) sampleEngine (failedAt 9)).map (fun e =>
        decide (.op 0 (.notifyRebootComplete "Palworld Server") ∈ e.trace ∧ .op 0 (.restartReturned true) ∉ e.trace)) =
        some true := by decide +kernel
    obtain ⟨e, he, hmem⟩ := Option.map_eq_some_iff.mp hexec
    obtain ⟨hnotify, hrestart⟩ := of_decide_eq_true hmem
    refine ⟨e, reached_of_exec he, fun hrestarted => hrestart ?_⟩
    exact ((hrestarted 0 _).sublist hnotify).subset (by simp)

end Palworld.Engine

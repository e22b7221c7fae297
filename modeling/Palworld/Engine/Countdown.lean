import Palworld.Engine.Cancel

/-!
# What a countdown announces

Each broadcast and each Discord notice of a call, with the remaining seconds that the lifecycle
state shows at it, against the ticks that are over.
-/

open Lib

namespace Palworld.Engine

variable {cfg : EngineConfig} {s e e' m t : PalEngine} {a : Act} {as bs : List Act} {i : Nat} {args : RebootArgs}
  {pc pc' : Await} {o : Outcome} {io : HostIo} {ops more : List Op} {kind : Op → Bool} {n k r : Nat}

/-! ## What a call did -/

/-- The operations of call `i`, in order. -/
def opsOf (i : Nat) (trace : List Entry) : List Op :=
  trace.filterMap fun
    | .op j op => if j = i then some op else none
    | .cancelReturned _ => none

/-- The ticks of call `i` that are over: how often its `wait_for` timed out. -/
def ticks (i : Nat) (as : List Act) : Nat :=
  as.countP fun
    | .fire j => j == i
    | _ => false

def Op.isBroadcast : Op → Bool
  | .sendBroadcast _ => true
  | _ => false

def Op.isNotice : Op → Bool
  | .notifyRebootCountdown .. => true
  | _ => false

/-- The remaining seconds that the lifecycle state shows after an operation. -/
def Op.shows (shown : Nat) : Op → Nat
  | .setLifecycle st => st.remainingSeconds
  | _ => shown

/-- The operations of one kind, each with the remaining seconds that the lifecycle state shows at it. -/
def announced (kind : Op → Bool) (shown : Nat) : List Op → List (Nat × Op)
  | [] => []
  | op :: ops => (if kind op then [(shown, op)] else []) ++ announced kind (op.shows shown) ops

theorem opsOf_append (i : Nat) (before after : List Entry) : opsOf i (before ++ after) = opsOf i before ++ opsOf i after :=
  List.filterMap_append

theorem opsOf_self (i : Nat) (ops : List Op) : opsOf i (ops.map (.op i)) = ops := by
  simp [opsOf, List.filterMap_map]

theorem opsOf_of_ne {j : Nat} (hij : j ≠ i) (ops : List Op) : opsOf i (ops.map (.op j)) = [] := by
  simp [opsOf, List.filterMap_map, hij]

theorem announced_append (shown : Nat) :
    announced kind shown (ops ++ more) = announced kind shown ops ++ announced kind (ops.foldl Op.shows shown) more := by
  induction ops generalizing shown with
  | nil => rfl
  | cons op ops ih => simp only [List.cons_append, announced, ih, List.foldl_cons, List.append_assoc]

theorem announced_silent (h : ∀ op ∈ ops, kind op = false) (shown : Nat) : announced kind shown ops = [] := by
  induction ops generalizing shown with
  | nil => rfl
  | cons op ops ih =>
    rw [List.forall_mem_cons] at h
    rw [announced, h.1, ih h.2]
    rfl

/-! ## Counting down -/

/-- The remaining seconds that `p` holds of, from `n` down over `k` seconds. -/
def countedDown (p : Nat → Bool) (n k : Nat) : List Nat := ((List.range k).map (n - ·)).filter p

theorem countedDown_succ (p : Nat → Bool) (h : r + k = n) :
    countedDown p n (k + 1) = countedDown p n k ++ if p r then [r] else [] := by
  have hr : n - k = r := by omega
  rw [countedDown, List.range_succ, List.map_append, List.filter_append, List.map_singleton, hr, List.filter_singleton,
    Bool.cond_eq_ite]
  rfl

theorem mem_countedDown {p : Nat → Bool} {x : Nat} (hk : k ≤ n) : x ∈ countedDown p n k ↔ p x = true ∧ n - k < x ∧ x ≤ n := by
  simp only [countedDown, List.mem_filter, List.mem_map, List.mem_range]
  constructor
  · rintro ⟨⟨j, hj, rfl⟩, hp⟩
    exact ⟨hp, by omega, by omega⟩
  · rintro ⟨hp, hlow, hhigh⟩
    exact ⟨⟨n - x, by omega, by omega⟩, hp⟩

theorem countedDown_descends (p : Nat → Bool) (hk : k ≤ n) : (countedDown p n k).Pairwise (· > ·) := by
  apply List.Pairwise.filter
  rw [List.pairwise_map]
  refine List.pairwise_lt_range.imp_of_mem ?_
  intro a b ha hb hab
  rw [List.mem_range] at hb
  omega

/-! ## What a countdown has told -/

def broadcastAt (args : RebootArgs) (r : Nat) : Nat × Op := (r, .sendBroadcast (countdownMessage args r))

def noticeAt (args : RebootArgs) (r : Nat) : Nat × Op :=
  (r, .notifyRebootCountdown (formatCountdownString r) args.triggerUpdate args.updateVersionTag args.customMessage)

/-- Broadcasts and notices were made at their milestones over so many seconds from the start, and no others. -/
structure Told (args : RebootArgs) (ops : List Op) (said noted : Nat) : Prop where
  broadcasts : announced Op.isBroadcast 0 ops =
    (countedDown (announces args) args.countdownSeconds said).map (broadcastAt args)
  notices : announced Op.isNotice 0 ops =
    (countedDown (announcesDiscord args) args.countdownSeconds noted).map (noticeAt args)

/-- What a call has told at an await, when `k` ticks are over. -/
def Progress (args : RebootArgs) (ops : List Op) (k : Nat) : Await → Prop
  | .lifecycleLock => ops = [] ∧ k = 0
  | .startWs => 0 < args.countdownSeconds ∧ Told args ops 0 0 ∧ k = 0
  | .tickAnnounce r => 0 < r ∧ r + k = args.countdownSeconds ∧ ops.foldl Op.shows 0 = r ∧ Told args ops (k + 1) k
  | .tickNotify r | .tickWs r | .tickWait r =>
    0 < r ∧ r + k = args.countdownSeconds ∧ Told args ops (k + 1) (k + 1)
  | .tickFired r => 0 < r ∧ r + k = args.countdownSeconds + 1 ∧ 0 < k ∧ Told args ops k k
  | .instantAnnounce | .instantNotify => args.countdownSeconds = 0
  | .savingWs => 0 < args.countdownSeconds →
    k = args.countdownSeconds ∧ Told args ops args.countdownSeconds args.countdownSeconds
  | _ => True

theorem announces_of_discord (h : announces args r = false) : announcesDiscord args r = false := by
  simp only [announces, announcesDiscord, countdownAllIntervals, countdownDiscordIntervals, Bool.or_eq_false_iff,
    decide_eq_false_iff_not, List.mem_cons, List.not_mem_nil, or_false, not_or] at h ⊢
  exact ⟨⟨h.1.1, h.1.2.1, h.1.2.2.2.2.1⟩, h.2⟩

/-- What is neither a broadcast nor a notice tells nothing. -/
theorem Told.silent {said noted : Nat} (h : Told args ops said noted)
    (hmore : ∀ op ∈ more, op.isBroadcast = false ∧ op.isNotice = false) : Told args (ops ++ more) said noted := by
  constructor
  · rw [announced_append, announced_silent fun op hop => (hmore op hop).1, List.append_nil, h.broadcasts]
  · rw [announced_append, announced_silent fun op hop => (hmore op hop).2, List.append_nil, h.notices]

/-- A second whose remaining seconds are no milestone is passed over. -/
theorem Told.skip (h : Told args ops k k) (hr : r + k = args.countdownSeconds) (hskip : announces args r = false) :
    Told args ops (k + 1) (k + 1) := by
  constructor
  · rw [h.broadcasts, countedDown_succ _ hr, hskip, if_neg Bool.false_ne_true, List.append_nil]
  · rw [h.notices, countedDown_succ _ hr, announces_of_discord hskip, if_neg Bool.false_ne_true, List.append_nil]

theorem Told.say {st : LifecycleState} (h : Told args ops k k) (hr : r + k = args.countdownSeconds)
    (hsay : announces args r = true) (hst : st.remainingSeconds = r) :
    Told args (ops ++ [.setLifecycle st, .sendBroadcast (countdownMessage args r)]) (k + 1) k := by
  constructor
  · rw [announced_append, h.broadcasts, countedDown_succ _ hr, if_pos hsay, List.map_append]
    simp only [announced, Op.isBroadcast, Op.shows, hst]
    rfl
  · rw [announced_append, h.notices]
    simp [announced, Op.isNotice]

theorem Told.note (h : Told args ops (k + 1) k) (hr : r + k = args.countdownSeconds)
    (hnote : announcesDiscord args r = true) (hshown : ops.foldl Op.shows 0 = r) :
    Told args (ops ++ [(noticeAt args r).2]) (k + 1) (k + 1) := by
  constructor
  · rw [announced_append, h.broadcasts]
    simp [announced, noticeAt, Op.isBroadcast]
  · rw [announced_append, h.notices, countedDown_succ _ hr, if_pos hnote, List.map_append, hshown]
    rfl

theorem Told.unnoted (h : Told args ops (k + 1) k) (hr : r + k = args.countdownSeconds)
    (hnote : announcesDiscord args r = false) : Told args ops (k + 1) (k + 1) := by
  refine ⟨h.broadcasts, ?_⟩
  rw [h.notices, countedDown_succ _ hr, hnote, if_neg Bool.false_ne_true, List.append_nil]

/-! ## Step by step -/

/-- The head of the loop, with `r` seconds to go. -/
theorem Progress.loop (e : PalEngine) (hr : r + k = args.countdownSeconds) (h : Told args ops k k) :
    Progress args (ops ++ (loopHead e args r).1) k (loopHead e args r).2 := by
  unfold loopHead
  split
  · rename_i hzero
    have hk : k = args.countdownSeconds := by omega
    intro _
    refine ⟨hk, ?_⟩
    rw [hk] at h
    exact h.silent (by simp [restartHead, enterPhase, Op.isBroadcast, Op.isNotice])
  split
  · trivial
  · rename_i hzero _
    unfold tickHead
    cases hsay : announces args r with
    | true => exact ⟨by omega, hr, by simp [Op.shows], h.say hr hsay rfl⟩
    | false => exact ⟨by omega, hr, (h.skip hr hsay).silent (by simp [Op.isBroadcast, Op.isNotice])⟩

theorem Progress.enter (args : RebootArgs) : Progress args (enterSequence args).1 0 (enterSequence args).2 := by
  unfold enterSequence
  by_cases hstart : args.countdownSeconds > 0
  · simp only [if_pos hstart]
    have hnone : Told args [] 0 0 := ⟨rfl, rfl⟩
    refine ⟨hstart, hnone.silent ?_, rfl⟩
    split <;> simp [Op.isBroadcast, Op.isNotice]
  · simp only [if_neg hstart]
    exact Nat.eq_zero_of_not_pos hstart

theorem Progress.segment (h : Progress args ops k pc) (hseg : Segment cfg io e args pc o more pc') :
    Progress args (ops ++ more) k pc' := by
  rcases hseg.cases with ⟨value, _, hdone⟩ | ⟨_, _, _, rfl⟩ | ⟨_, _, rfl⟩
  · cases pc with
    | startWs =>
      obtain ⟨-, htold, rfl⟩ := h
      have hloop := Progress.loop e (Nat.add_zero args.countdownSeconds) htold
      rwa [Option.some.inj hdone] at hloop
    | tickAnnounce r =>
      obtain ⟨hpos, hr, hshown, htold⟩ := h
      simp only [onDone] at hdone
      split at hdone <;> cases hdone
      · rename_i hnote
        exact ⟨hpos, hr, htold.note hr hnote hshown⟩
      · rename_i hnote
        have htold := htold.unnoted hr (Bool.eq_false_iff.mpr hnote)
        exact ⟨hpos, hr, htold.silent (by simp [Op.isBroadcast, Op.isNotice])⟩
    | tickNotify r =>
      obtain ⟨hpos, hr, htold⟩ := h
      cases hdone
      exact ⟨hpos, hr, htold.silent (by simp [Op.isBroadcast, Op.isNotice])⟩
    | tickWs r =>
      simp only [onDone, Option.some.injEq] at hdone
      split at hdone <;> cases hdone
      · trivial
      · rwa [List.append_nil]
    | tickFired r =>
      obtain ⟨hpos, hr, _, htold⟩ := h
      have hleft : r - 1 + k = args.countdownSeconds := by omega
      have hloop := Progress.loop e hleft htold
      rwa [Option.some.inj hdone] at hloop
    | instantNotify =>
      cases hdone
      intro hstart
      exact absurd h (Nat.ne_of_gt hstart)
    | instantAnnounce =>
      cases hdone
      exact h
    | tickWait r | maintenanceWs | probing _ | probingSleep _ =>
      simp only [onDone, Option.some.injEq] at hdone
      split at hdone <;> cases hdone <;> trivial
    | _ => cases hdone <;> trivial
  · trivial
  · trivial

/-! ## Over a run -/

theorem Moves.opsOf_other (hm : Moves cfg e a e') (ha : a.caller ≠ some i) : opsOf i e'.trace = opsOf i e.trace := by
  have hne : ∀ j, some j ≠ some i → j ≠ i := fun j h hj => h (congrArg some hj)
  have happend : ∀ j, j ≠ i → ∀ ops : List Op, opsOf i (e.trace ++ ops.map (.op j)) = opsOf i e.trace := by
    intro j hj ops
    rw [opsOf_append, opsOf_of_ne hj, List.append_nil]
  cases hm with
  | claim | reject | giveUp | leave | fire => rfl
  | enter | proceed => exact (congrArg (opsOf i) perform_trace).trans (happend _ (hne _ ha) _)
  | cancel | refuse => simp [opsOf]

theorem ticks_fire (i : Nat) (as : List Act) : ticks i (as ++ [.fire i]) = ticks i as + 1 := by
  simp [ticks]

theorem ticks_same (h : a ≠ .fire i) : ticks i (as ++ [a]) = ticks i as := by
  cases a with
  | fire j =>
    have hj : j ≠ i := fun hj => h (congrArg Act.fire hj)
    simp [ticks, hj]
  | _ => simp [ticks]

/-- At every await, call `i` has told what that await says, with the ticks that the actions hold. -/
structure Tells (i : Nat) (as : List Act) (e : PalEngine) : Prop where
  absent : e.calls i = .absent → opsOf i e.trace = [] ∧ ticks i as = 0
  running : ∀ args pc, e.calls i = .running args pc → Progress args (opsOf i e.trace) (ticks i as) pc

theorem Tells.other (h : Tells i as e) (hm : Moves cfg e a e') (ha : a.caller ≠ some i) : Tells i (as ++ [a]) e' := by
  have hcalls := (hm.frame ha).1
  have hops := hm.opsOf_other ha
  have hticks : ticks i (as ++ [a]) = ticks i as := by
    apply ticks_same
    rintro rfl
    exact ha rfl
  constructor
  · intro habsent
    rw [hops, hticks]
    exact h.absent (hcalls.symm.trans habsent)
  · intro args pc hrun
    rw [hops, hticks]
    exact h.running args pc (hcalls.symm.trans hrun)

/-- After a step of its own, call `i` is where the step leads. -/
theorem Tells.goTo {call : Call} (habsent : call ≠ .absent)
    (h : ∀ args pc, call = .running args pc → Progress args (opsOf i e.trace) (ticks i as) pc) :
    Tells i as (e.goTo i call) := by
  constructor
  · intro hcall
    rw [goTo_self] at hcall
    exact absurd hcall habsent
  · intro args pc hrun
    rw [goTo_self] at hrun
    exact h args pc hrun

theorem Tells.own (h : Tells i as e) (hm : Moves cfg e a e') (ha : a.caller = some i) : Tells i (as ++ [a]) e' := by
  cases hm with
  | claim absent =>
    cases ha
    refine Tells.goTo Call.noConfusion ?_
    intro args pc hcall
    cases hcall
    rw [ticks_same Act.noConfusion]
    exact h.absent absent
  | reject | giveUp | leave =>
    cases ha
    exact Tells.goTo Call.noConfusion nofun
  | @enter _ args io waiting _ =>
    cases ha
    refine Tells.goTo Call.noConfusion ?_
    intro args' pc hcall
    cases hcall
    obtain ⟨hops, hticks⟩ := h.running _ _ waiting
    have htrace : opsOf i (perform cfg io i (enterSequence args).1 e).trace = (enterSequence args).1 := by
      rw [perform_trace, opsOf_append, hops, opsOf_self, List.nil_append]
    have henter := Progress.enter args
    rwa [ticks_same Act.noConfusion, hticks, htrace]
  | @proceed _ args pc pc' o ops io running segment =>
    cases ha
    refine Tells.goTo Call.noConfusion ?_
    intro args' pc'' hcall
    cases hcall
    rw [ticks_same Act.noConfusion, perform_trace, opsOf_append, opsOf_self]
    exact (h.running _ _ running).segment segment
  | fire running =>
    cases ha
    refine Tells.goTo Call.noConfusion ?_
    intro args' pc hcall
    cases hcall
    obtain ⟨hpos, hr, htold⟩ := h.running _ _ running
    rw [ticks_fire]
    exact ⟨hpos, by omega, Nat.succ_pos _, htold⟩
  | cancel | refuse => cases ha

theorem tells_run (hs : Initial s) (hrun : Run (Step cfg) s as e) : Tells i as e := by
  refine hrun.history (P := Tells i) ?_ ?_
  · obtain ⟨lockFile, flags, store, rfl⟩ := hs
    exact ⟨fun _ => ⟨rfl, rfl⟩, nofun⟩
  · intro bs m a t _ htells hstep
    have hm := step_moves hstep
    by_cases ha : a.caller = some i
    · exact htells.own hm ha
    · exact htells.other hm ha

/-! ## Uncancelled runs -/

/-- No cancellation is confirmed while call `i` counts down. -/
def Uncancelled (i : Nat) (e : PalEngine) : Act → Prop
  | .cancelCountdown _ => ∀ args pc, e.calls i = .running args pc → pc.phase ≠ .countdown
  | _ => True

/-- While call `i` counts down the event is not set, and its loop has not returned `False`. -/
def CountsOn (i : Nat) (e : PalEngine) : Prop :=
  ∀ args pc, e.calls i = .running args pc → pc.phase = .countdown →
    e.cancelEvent = false ∧ pc ≠ .cancelAnnounce ∧ pc ≠ .cancelNotify

theorem perform_cancelEvent_unset (h : e.cancelEvent = false) : (perform cfg io i ops e).cancelEvent = false := by
  induction ops generalizing e with
  | nil => exact h
  | cons op ops ih =>
    rw [perform_cons]
    apply ih
    cases op with
    | clearCancelState => rfl
    | _ => exact h

theorem CountsOn.other (h : CountsOn i e) (hm : Moves cfg e a e') (hcond : Uncancelled i e a) (ha : a.caller ≠ some i) :
    CountsOn i e' := by
  intro args pc hrun hphase
  rw [(hm.frame ha).1] at hrun
  obtain ⟨hevent, hpc⟩ := h args pc hrun hphase
  refine ⟨?_, hpc⟩
  cases hm with
  | claim | reject | giveUp | leave | fire | refuse => exact hevent
  | enter | proceed => exact perform_cancelEvent_unset hevent
  | cancel => exact absurd hphase (hcond args pc hrun)

theorem CountsOn.goTo {call : Call} (h : ∀ args pc, call = .running args pc → pc.phase = .countdown →
    e.cancelEvent = false ∧ pc ≠ .cancelAnnounce ∧ pc ≠ .cancelNotify) : CountsOn i (e.goTo i call) := by
  intro args pc hrun
  rw [goTo_self] at hrun
  exact h args pc hrun

theorem CountsOn.own (h : CountsOn i e) (hm : Moves cfg e a e') (ha : a.caller = some i) : CountsOn i e' := by
  cases hm with
  | claim =>
    cases ha
    refine CountsOn.goTo ?_
    rintro args pc hcall hphase
    cases hcall
    cases hphase
  | reject | giveUp | leave =>
    cases ha
    exact CountsOn.goTo nofun
  | @enter _ args io =>
    cases ha
    refine CountsOn.goTo ?_
    intro args' pc hcall hphase
    cases hcall
    refine ⟨enterSequence_clears .., ?_⟩
    simp only [enterSequence]
    split_ifs <;> exact ⟨Await.noConfusion, Await.noConfusion⟩
  | proceed running segment =>
    cases ha
    refine CountsOn.goTo ?_
    intro args' pc'' hcall hphase
    cases hcall
    obtain ⟨hbefore, hcancel, hnotify⟩ := segment.countdown hphase
    obtain ⟨hevent, hannounce, _⟩ := h _ _ running hbefore
    refine ⟨perform_cancelEvent_unset hevent, fun hpc => ?_, fun hpc => hannounce (hnotify hpc)⟩
    rw [hcancel hpc] at hevent
    cases hevent
  | fire running =>
    cases ha
    refine CountsOn.goTo ?_
    intro args' pc'' hcall hphase
    cases hcall
    exact ⟨(h _ _ running rfl).1, Await.noConfusion, Await.noConfusion⟩
  | cancel | refuse => cases ha

theorem countsOn_run (hs : Initial s) (hrun : Run (Only (Step cfg) (Uncancelled i)) s as e) : CountsOn i e := by
  refine hrun.invariant (I := CountsOn i) ?_ ?_
  · rintro m a t hcounts ⟨hstep, hcond⟩
    have hm := step_moves hstep
    by_cases ha : a.caller = some i
    · exact hcounts.own hm ha
    · exact hcounts.other hm hcond ha
  · obtain ⟨lockFile, flags, store, rfl⟩ := hs
    exact nofun

/-! ## How the loop goes on -/

/-- What the steps of call `i` are when nothing cancels it and none of its awaits raises. -/
def Undisturbed (i : Nat) (e : PalEngine) (a : Act) : Prop :=
  Uncancelled i e a ∧ ∀ o io, a = .resume i o io → ∃ value, o = .done value

/-- How many steps of its own a countdown of `n` seconds has left, at most. -/
def Await.stepsLeft (n : Nat) : Await → Nat
  | .startWs => 5 * n + 1
  | .tickAnnounce r => 5 * r
  | .tickNotify r => 5 * r - 1
  | .tickWs r => 5 * r - 2
  | .tickWait r => 5 * r - 3
  | .tickFired r => 5 * r - 4
  | _ => 0

theorem loopHead_stepsLeft (args : RebootArgs) (r : Nat) (hevent : e.cancelEvent = false) :
    (loopHead e args r).2 = .savingWs ∨
      (loopHead e args r).2.phase = .countdown ∧ (loopHead e args r).2.stepsLeft n ≤ 5 * r := by
  rcases loopHead_cases e args r with hloop | ⟨hset, _⟩ | hloop
  · exact Or.inl (congrArg Prod.snd hloop)
  · rw [hset] at hevent
    cases hevent
  · right
    rw [hloop]
    rcases tickHead_await e args r with htick | htick
    · rw [htick]
      exact ⟨rfl, Nat.le_refl _⟩
    · rw [htick]
      exact ⟨rfl, Nat.sub_le _ _⟩

/-- An await that returns brings the loop closer to its end, or ends it. -/
theorem onDone_stepsLeft {value : Bool} (hphase : pc.phase = .countdown) (hevent : e.cancelEvent = false)
    (hloop : pc ≠ .cancelAnnounce ∧ pc ≠ .cancelNotify) (hprogress : Progress args ops k pc)
    (h : onDone cfg io e args value pc = some (more, pc')) :
    pc' = .savingWs ∨ pc'.phase = .countdown ∧
      pc'.stepsLeft args.countdownSeconds < pc.stepsLeft args.countdownSeconds := by
  cases pc with
  | startWs =>
    have hhead := @loopHead_stepsLeft e args.countdownSeconds args args.countdownSeconds hevent
    rw [Option.some.inj h] at hhead
    exact hhead.imp_right fun hleft => ⟨hleft.1, Nat.lt_succ_of_le hleft.2⟩
  | tickAnnounce r =>
    have hpos : 0 < r := hprogress.1
    simp only [onDone] at h
    split at h <;> cases h <;> refine Or.inr ⟨rfl, ?_⟩ <;> simp only [Await.stepsLeft] <;> omega
  | tickNotify r =>
    have hpos : 0 < r := hprogress.1
    cases h
    refine Or.inr ⟨rfl, ?_⟩
    simp only [Await.stepsLeft]
    omega
  | tickWs r =>
    have hpos : 0 < r := hprogress.1
    simp only [onDone, hevent] at h
    cases h
    refine Or.inr ⟨rfl, ?_⟩
    simp only [Await.stepsLeft]
    omega
  | tickWait r =>
    simp only [onDone, hevent] at h
    cases h
  | tickFired r =>
    have hpos : 0 < r := hprogress.1
    have hhead := @loopHead_stepsLeft e args.countdownSeconds args (r - 1) hevent
    rw [Option.some.inj h] at hhead
    refine hhead.imp_right fun hleft => ⟨hleft.1, Nat.lt_of_le_of_lt hleft.2 ?_⟩
    simp only [Await.stepsLeft]
    omega
  | cancelAnnounce => exact absurd rfl hloop.1
  | cancelNotify => exact absurd rfl hloop.2
  | _ => cases hphase

/-- Call `i` is inside its countdown loop, which nothing has cancelled. -/
structure Counting (i : Nat) (as : List Act) (e : PalEngine) (args : RebootArgs) (pc : Await) : Prop where
  running : e.calls i = .running args pc
  phase : pc.phase = .countdown
  tells : Tells i as e
  countsOn : CountsOn i e

theorem Counting.event (h : Counting i as e args pc) :
    e.cancelEvent = false ∧ pc ≠ .cancelAnnounce ∧ pc ≠ .cancelNotify := h.countsOn args pc h.running h.phase

theorem Counting.progress (h : Counting i as e args pc) : Progress args (opsOf i e.trace) (ticks i as) pc :=
  h.tells.running args pc h.running

theorem Counting.stepsLeft (h : Counting i as e args pc) : 0 < pc.stepsLeft args.countdownSeconds := by
  obtain ⟨_, hannounce, hnotify⟩ := h.event
  have hprogress := h.progress
  cases pc with
  | startWs => simp [Await.stepsLeft]
  | tickAnnounce r | tickNotify r | tickWs r | tickWait r | tickFired r =>
    obtain ⟨hpos, hr, _⟩ := hprogress
    simp only [Await.stepsLeft]
    omega
  | cancelAnnounce => exact absurd rfl hannounce
  | cancelNotify => exact absurd rfl hnotify
  | _ => cases h.phase

theorem Counting.inside (h : Counting i as e args pc) : pc ≠ .lifecycleLock ∧ ∀ raised, pc ≠ .finalWs raised := by
  constructor
  · rintro rfl
    cases h.phase
  · rintro raised rfl
    cases h.phase

theorem Counting.other (h : Counting i as e args pc) (hm : Moves cfg e a e') (hcond : Uncancelled i e a)
    (ha : a.caller ≠ some i) : Counting i (as ++ [a]) e' args pc :=
  ⟨(hm.frame ha).1.trans h.running, h.phase, h.tells.other hm ha, h.countsOn.other hm hcond ha⟩

theorem Counting.own (h : Counting i as e args pc) (hm : Moves cfg e a e') (hcond : Undisturbed i e a)
    (ha : a.caller = some i) :
    ∃ pc', e'.calls i = .running args pc' ∧ (pc' = .savingWs ∨
      Counting i (as ++ [a]) e' args pc' ∧ pc'.stepsLeft args.countdownSeconds < pc.stepsLeft args.countdownSeconds) := by
  have htells := h.tells.own hm ha
  have hcounts := h.countsOn.own hm ha
  rcases hm.own ha h.running h.inside.1 with ⟨o, more, pc', io, rfl, hseg, rfl⟩ | ⟨raised, _, rfl, _⟩ | ⟨r, rfl, rfl, rfl⟩
  · refine ⟨pc', goTo_self, ?_⟩
    obtain ⟨value, rfl⟩ := hcond.2 o io rfl
    rcases hseg.cases with ⟨value', _, hdone⟩ | ⟨rfl, _⟩ | ⟨hraised, _⟩
    · rcases onDone_stepsLeft h.phase h.event.1 h.event.2 h.progress hdone with hsaving | ⟨hphase, hless⟩
      · exact Or.inl hsaving
      · exact Or.inr ⟨⟨goTo_self, hphase, htells, hcounts⟩, hless⟩
    · cases h.phase
    · exact absurd rfl (hraised value)
  · exact absurd rfl (h.inside.2 raised)
  · refine ⟨.tickFired r, goTo_self, Or.inr ⟨⟨goTo_self, rfl, htells, hcounts⟩, ?_⟩⟩
    have hpos : 0 < r := h.progress.1
    simp only [Await.stepsLeft]
    omega

theorem Counting.enabled (cfg : EngineConfig) (io : HostIo) (h : Counting i as e args pc) :
    ∃ a t, a.caller = some i ∧ Only (Step cfg) (Undisturbed i) e a t := by
  by_cases hwait : ∃ r, pc = .tickWait r
  · obtain ⟨r, rfl⟩ := hwait
    have hstep : ∃ t, Step cfg e (.fire i) t := Option.isSome_iff_exists.mp (by simp [step, h.running])
    obtain ⟨t, ht⟩ := hstep
    exact ⟨.fire i, t, rfl, ht, trivial, by simp⟩
  · have hdone : ∃ r, onDone cfg io e args true pc = some r := by
      cases pc with
      | tickWait r => exact absurd ⟨r, rfl⟩ hwait
      | tickAnnounce r =>
        simp only [onDone]
        split <;> exact ⟨_, rfl⟩
      | startWs | tickNotify r | tickWs r | tickFired r | cancelAnnounce | cancelNotify => exact ⟨_, rfl⟩
      | _ => cases h.phase
    obtain ⟨⟨more, pc'⟩, hdone⟩ := hdone
    obtain ⟨hlock, hfinal⟩ := h.inside
    have hresume : resume cfg io e args pc (.done true) = some (more, .running args pc') := by
      unfold resume
      split <;> simp_all
    obtain ⟨t, ht⟩ := resume_enabled io h.running hresume
    exact ⟨.resume i (.done true) io, t, rfl, ht, trivial, fun o _ heq => ⟨true, by cases heq; rfl⟩⟩

/-- Whatever the other calls do meanwhile, the call is still in its loop, each step of its own counted off, or the loop has
returned `True`. -/
theorem Counting.returns (h : Counting i as e args pc) (hrun : Run (Only (Step cfg) (Undisturbed i)) e bs t) :
    (∃ pc', Counting i (as ++ bs) t args pc' ∧
      pc'.stepsLeft args.countdownSeconds + bs.countP (fun a => a.caller == some i) ≤ pc.stepsLeft args.countdownSeconds) ∨
    ∃ cs ds m, bs = cs ++ ds ∧ Run (Step cfg) e cs m ∧ m.calls i = .running args .savingWs := by
  induction hrun generalizing as pc with
  | nil => exact Or.inl ⟨pc, by rwa [List.append_nil], Nat.le_refl _⟩
  | @cons e m t a bs head tail ih =>
    have hm := step_moves head.1
    rw [List.countP_cons, List.append_cons]
    by_cases ha : a.caller = some i
    · obtain ⟨pc', hnext, hsaving | ⟨hcounting, hless⟩⟩ := h.own hm head.2 ha
      · exact Or.inr ⟨[a], bs, m, rfl, .one head.1, hsaving ▸ hnext⟩
      · rw [if_pos (by simpa using ha)]
        rcases ih hcounting with ⟨pc'', hlater, hleft⟩ | ⟨cs, ds, w, rfl, hcs, hw⟩
        · exact Or.inl ⟨pc'', hlater, by omega⟩
        · exact Or.inr ⟨a :: cs, ds, w, rfl, .cons head.1 hcs, hw⟩
    · rw [if_neg (by simpa using ha), Nat.add_zero]
      rcases ih (h.other hm head.2.1 ha) with ⟨pc'', hlater, hleft⟩ | ⟨cs, ds, w, rfl, hcs, hw⟩
      · exact Or.inl ⟨pc'', hlater, hleft⟩
      · exact Or.inr ⟨a :: cs, ds, w, rfl, .cons head.1 hcs, hw⟩

/-- The loop can be led to its end. -/
theorem Counting.finishes (cfg : EngineConfig) (h : Counting i as e args pc) :
    ∃ bs t, Run (Only (Step cfg) (Undisturbed i)) e bs t ∧ t.calls i = .running args .savingWs := by
  induction hleft : pc.stepsLeft args.countdownSeconds using Nat.strong_induction_on generalizing as e pc with
  | _ left ih =>
    obtain ⟨a, m, ha, hstep⟩ := h.enabled cfg sampleHostIo
    obtain ⟨pc', hnext, hsaving | ⟨hcounting, hless⟩⟩ := h.own (step_moves hstep.1) hstep.2 ha
    · exact ⟨[a], m, .one hstep, hsaving ▸ hnext⟩
    · obtain ⟨bs, t, hbs, ht⟩ := ih _ (hleft ▸ hless) hcounting rfl
      exact ⟨a :: bs, t, .cons hstep hbs, ht⟩

/-! ## Exactly the milestones -/

/-- The start of a countdown and the intervals within it, in descending order and once each. -/
def Milestones (intervals : List Nat) (n : Nat) (times : List Nat) : Prop :=
  times.Pairwise (· > ·) ∧ ∀ r, r ∈ times ↔ r = n ∨ r ∈ intervals ∧ 1 ≤ r ∧ r ≤ n

theorem milestones_countedDown {intervals : List Nat} {p : Nat → Bool} (hn : 0 < n)
    (hp : ∀ r, p r = true ↔ r ∈ intervals ∨ r = n) : Milestones intervals n (countedDown p n n) := by
  refine ⟨countedDown_descends p (Nat.le_refl n), fun r => ?_⟩
  rw [mem_countedDown (Nat.le_refl n), hp]
  constructor
  · rintro ⟨hmem | rfl, hlow, hhigh⟩
    · exact Or.inr ⟨hmem, by omega, hhigh⟩
    · exact Or.inl rfl
  · rintro (rfl | ⟨hmem, hlow, hhigh⟩)
    · exact ⟨Or.inr rfl, by omega, Nat.le_refl r⟩
    · exact ⟨Or.inl hmem, by omega, hhigh⟩

/-- What call `i` has announced, over as many ticks as its countdown has seconds. -/
structure AnnouncedExactly (i : Nat) (args : RebootArgs) (as : List Act) (e : PalEngine) : Prop where
  broadcasts : ∃ times, Milestones countdownAllIntervals args.countdownSeconds times ∧
    announced Op.isBroadcast 0 (opsOf i e.trace) = times.map (broadcastAt args)
  notices : ∃ times, Milestones countdownDiscordIntervals args.countdownSeconds times ∧
    announced Op.isNotice 0 (opsOf i e.trace) = times.map (noticeAt args)
  ticks : ticks i as = args.countdownSeconds

/-- Call `i` is in its countdown loop, outside the branch that returns `False`. -/
def InLoop (i : Nat) (args : RebootArgs) (pc : Await) (e : PalEngine) : Prop :=
  e.calls i = .running args pc ∧ pc.phase = .countdown ∧ pc ≠ .cancelAnnounce ∧ pc ≠ .cancelNotify

/-- The loop of call `i` can go on and can be led to its end. Whatever is interleaved with it, it ends in no other way than by
returning `True`, and it ends before the steps that are left at its await are used up. -/
structure ReturnsTrue (cfg : EngineConfig) (i : Nat) (args : RebootArgs) (pc : Await) (as : List Act) (e : PalEngine) :
    Prop where
  inLoop : InLoop i args pc e
  enabled : ∃ a t, a.caller = some i ∧ Only (Step cfg) (Undisturbed i) e a t
  finishes : ∃ bs t, Run (Only (Step cfg) (Undisturbed i)) e bs t ∧ t.calls i = .running args .savingWs
  returns : ∀ bs t, Run (Only (Step cfg) (Undisturbed i)) e bs t →
    (bs.countP (fun a => a.caller == some i) < pc.stepsLeft args.countdownSeconds ∧ ∃ pc', InLoop i args pc' t) ∨
    ∃ cs ds m, bs = cs ++ ds ∧ Run (Step cfg) e cs m ∧ m.calls i = .running args .savingWs ∧
      AnnouncedExactly i args (as ++ cs) m

theorem announced_of_saving (hs : Initial s) (hrun : Run (Step cfg) s as e) (hcall : e.calls i = .running args .savingWs)
    (hstart : 0 < args.countdownSeconds) : AnnouncedExactly i args as e := by
  obtain ⟨hticks, htold⟩ := (tells_run hs hrun).running args .savingWs hcall hstart
  refine ⟨⟨_, milestones_countedDown hstart ?_, htold.broadcasts⟩, ⟨_, milestones_countedDown hstart ?_, htold.notices⟩,
    hticks⟩
  · simp [announces]
  · simp [announcesDiscord]

theorem Counting.start (h : Counting i as e args pc) : 0 < args.countdownSeconds := by
  obtain ⟨_, hannounce, hnotify⟩ := h.event
  have hprogress := h.progress
  cases pc with
  | startWs => exact hprogress.1
  | tickAnnounce r | tickNotify r | tickWs r | tickWait r =>
    obtain ⟨hpos, hr, _⟩ := hprogress
    omega
  | tickFired r =>
    obtain ⟨hpos, hr, hk, _⟩ := hprogress
    omega
  | cancelAnnounce => exact absurd rfl hannounce
  | cancelNotify => exact absurd rfl hnotify
  | _ => cases h.phase

/-- **The countdown announces exactly its milestones.** When its loop returns `True`, after one tick for
each second, a call has broadcast and noted the start and the intervals below it and nothing else. The
announcements of `r` seconds are made while `r` ticks are still to come. In an uncancelled run the
loop cannot end otherwise, unless an await raises. -/
theorem countdown_announces (hs : Initial s) (hrun : Run (Step cfg) s as e) :
    (e.calls i = .running args .savingWs → 0 < args.countdownSeconds → AnnouncedExactly i args as e) ∧
    (∀ r, e.calls i = .running args (.tickAnnounce r) ∨ e.calls i = .running args (.tickNotify r) →
      r + ticks i as = args.countdownSeconds) ∧
    (Run (Only (Step cfg) (Uncancelled i)) s as e → ∀ pc, e.calls i = .running args pc → pc.phase = .countdown →
      ReturnsTrue cfg i args pc as e) := by
  refine ⟨announced_of_saving hs hrun, ?_, ?_⟩
  · rintro r (hcall | hcall)
    · exact ((tells_run hs hrun).running args _ hcall).2.1
    · exact ((tells_run hs hrun).running args _ hcall).2.1
  · intro huncancelled pc hcall hphase
    have hcounting : Counting i as e args pc := ⟨hcall, hphase, tells_run hs hrun, countsOn_run hs huncancelled⟩
    refine ⟨⟨hcall, hphase, hcounting.event.2⟩, hcounting.enabled cfg sampleHostIo, hcounting.finishes cfg, ?_⟩
    intro bs t hbs
    rcases hcounting.returns hbs with ⟨pc', hlater, hleft⟩ | ⟨cs, ds, m, hsplit, hcs, hm⟩
    · have hpos := hlater.stepsLeft
      exact Or.inl ⟨by omega, pc', hlater.running, hlater.phase, hlater.event.2⟩
    · exact Or.inr ⟨cs, ds, m, hsplit, hcs, hm, announced_of_saving hs (hrun.append hcs) hm hcounting.start⟩

/-- A countdown of one second, up to its only tick. -/
def oneSecond : List Act := sampleCall 0 1 (List.replicate 3 (.done true))

/-- The same, through its tick to the end of the loop. -/
def oneSecondOver : List Act :=
  oneSecond ++ [.resume 0 (.done true) sampleHostIo, .fire 0, .resume 0 (.done true) sampleHostIo]

theorem countdown_announces_sample : ∃ m e, Run (Step sampleConfig) sampleEngine oneSecond m ∧
    ReturnsTrue sampleConfig 0 (sampleArgs 1) (.tickWs 1) oneSecond m ∧
    Run (Step sampleConfig) sampleEngine oneSecondOver e ∧ AnnouncedExactly 0 (sampleArgs 1) oneSecondOver e := by
  have hinit : Initial sampleEngine := ⟨_, _, _, rfl⟩
  have hfirst : (exec (step sampleConfig) sampleEngine oneSecond).map (·.calls 0) =
      some (.running (sampleArgs 1) (.tickWs 1)) := by decide +kernel
  have hover : (exec (step sampleConfig) sampleEngine oneSecondOver).map (·.calls 0) =
      some (.running (sampleArgs 1) .savingWs) := by decide +kernel
  obtain ⟨m, hm, hwaits⟩ := Option.map_eq_some_iff.mp hfirst
  obtain ⟨e, he, hsaves⟩ := Option.map_eq_some_iff.mp hover
  have huncancelled : Run (Only (Step sampleConfig) (Uncancelled 0)) sampleEngine oneSecond m := by
    apply (Run.of_exec hm).only
    simp [oneSecond, sampleCall, Uncancelled]
  exact ⟨m, e, Run.of_exec hm, (countdown_announces hinit (Run.of_exec hm)).2.2 huncancelled _ hwaits rfl,
    Run.of_exec he, (countdown_announces hinit (Run.of_exec he)).1 hsaves Nat.one_pos⟩

end Palworld.Engine

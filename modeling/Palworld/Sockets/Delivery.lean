import Palworld.Sockets.Broadcast

/-!
# What a broadcast delivers

One inversion lemma says what a step does, and in particular what the loop of a broadcast
does next. The rest follows from it.
-/

open Lib

namespace Palworld.Sockets

variable {α : Type*} [DecidableEq α] {hub hub' : Hub α} {a : Act α} {c call pos used : Nat} {dead : List α}
  {layout : SlotSet α} {ws : α}

/-! ## One step -/

inductive GoesOn (hub : Hub α) (call pos used : Nat) (dead : List α) (layout : SlotSet α) : Hub α → Prop
  | raise (hused : hub.activeSockets.used ≠ used) :
    GoesOn hub call pos used dead layout { hub with broadcasts := hub.broadcasts.set call .raised }
  | send (ws : α) (p : Nat) (hnext : hub.activeSockets.next pos = some (ws, p)) :
    GoesOn hub call pos used dead layout { hub with
      broadcasts := hub.broadcasts.set call (.sending p used ws dead), sent := hub.sent ++ [⟨call, ws⟩] }
  | finish (hnext : hub.activeSockets.next pos = none)
      (hperm : layout.members.Perm (hub.activeSockets.remove dead).members) :
    GoesOn hub call pos used dead layout { hub with
      broadcasts := hub.broadcasts.set call .returned, activeSockets := layout }

theorem goOn_cases (h : goOn hub call pos used dead layout = some hub') :
    GoesOn hub call pos used dead layout hub' := by
  unfold goOn at h
  split at h
  · cases h
    exact .raise ‹_›
  · cases hnext : hub.activeSockets.next pos with
    | some found =>
      obtain ⟨ws, p⟩ := found
      simp only [hnext, Option.some.injEq] at h
      subst h
      exact .send ws p hnext
    | none =>
      simp only [hnext] at h
      split at h
      · cases h
        exact .finish hnext ‹_›
      · cases h

def Hub.starting (hub : Hub α) : Hub α := { hub with broadcasts := hub.broadcasts ++ [.starting] }

def Hub.noteFailed (hub : Hub α) (call : Nat) (ws : α) : Hub α := { hub with failed := hub.failed ++ [⟨call, ws⟩] }

/-- What a step does: the set changes from outside, or a broadcast starts its loop or goes on with it. -/
inductive Moves (hub : Hub α) : Act α → Hub α → Prop
  | outside {a : Act α} (u : SlotSet α) (hcall : a.call hub = none)
      (hkeeps : Steady hub a → hub.Suspended none → hub.activeSockets.KeepsPlaces u) :
    Moves hub a { hub with activeSockets := u }
  | start (layout : SlotSet α) {hub' : Hub α}
      (hloop : GoesOn hub.starting hub.broadcasts.length 0 hub.activeSockets.used [] layout hub') :
    Moves hub (.startBroadcast layout) hub'
  | sendOk (call pos used : Nat) (ws : α) (dead : List α) (layout : SlotSet α) {hub' : Hub α}
      (hsending : hub.broadcasts[call]? = some (.sending pos used ws dead))
      (hloop : GoesOn hub call pos used dead layout hub') :
    Moves hub (.sendDone call false layout) hub'
  | sendFailed (call pos used : Nat) (ws : α) (dead : List α) (layout : SlotSet α) {hub' : Hub α}
      (hsending : hub.broadcasts[call]? = some (.sending pos used ws dead))
      (hloop : GoesOn (hub.noteFailed call ws) call pos used (ws :: dead) layout hub') :
    Moves hub (.sendDone call true layout) hub'

theorem step_moves (h : Step hub a hub') : Moves hub a hub' := by
  unfold Step at h
  cases a with
  | registerSocket ws layout =>
    simp only [step] at h
    split at h
    · cases h
      exact .outside hub.activeSockets rfl fun _ _ _ _ ha _ => ha
    · split at h
      · cases h
        exact .outside layout rfl fun hsteady => hsteady
      · cases h
  | unregisterSocket ws =>
    cases h
    exact .outside _ rfl fun _ _ => hub.activeSockets.keepsPlaces_remove [ws]
  | startBroadcast layout => exact .start layout (goOn_cases h)
  | sendDone call error layout =>
    simp only [step] at h
    split at h
    · rename_i pos used ws dead hsending
      cases error with
      | false => exact .sendOk call pos used ws dead layout hsending (goOn_cases h)
      | true => exact .sendFailed call pos used ws dead layout hsending (goOn_cases h)
    · cases h

theorem step_det (hub : Hub α) (a : Act α) (t t' : Hub α) (h : Step hub a t) (h' : Step hub a t') : t = t' :=
  Option.some.inj (h.symm.trans h')

/-! ## Books -/

/-- The logs are about calls that were made, and a broadcast knows which of its sends failed. -/
structure Booked (hub : Hub α) : Prop where
  sent_lt : ∀ send ∈ hub.sent, send.call < hub.broadcasts.length
  failed_lt : ∀ send ∈ hub.failed, send.call < hub.broadcasts.length
  dead_iff : ∀ c pos used w dead, hub.broadcasts[c]? = some (.sending pos used w dead) →
    ∀ ws, ws ∈ dead ↔ ⟨c, ws⟩ ∈ hub.failed

/-- The books as a broadcast goes on: its own sockets are in `dead`, the others have theirs. -/
structure BookedBut (hub : Hub α) (call : Nat) (dead : List α) : Prop where
  call_lt : call < hub.broadcasts.length
  sent_lt : ∀ send ∈ hub.sent, send.call < hub.broadcasts.length
  failed_lt : ∀ send ∈ hub.failed, send.call < hub.broadcasts.length
  own_iff : ∀ ws, ws ∈ dead ↔ ⟨call, ws⟩ ∈ hub.failed
  dead_iff : ∀ c pos used w dead, c ≠ call → hub.broadcasts[c]? = some (.sending pos used w dead) →
    ∀ ws, ws ∈ dead ↔ ⟨c, ws⟩ ∈ hub.failed

omit [DecidableEq α] in
theorem Booked.starting (h : Booked hub) : BookedBut hub.starting hub.broadcasts.length [] := by
  have hlength : hub.starting.broadcasts.length = hub.broadcasts.length + 1 := List.length_append
  refine ⟨by omega, fun send hsend => ?_, fun send hsend => ?_, fun ws => ?_, fun c pos used w dead hc hsending => ?_⟩
  · have := h.sent_lt send hsend
    omega
  · have := h.failed_lt send hsend
    omega
  · refine ⟨fun hmem => (List.not_mem_nil hmem).elim, fun hfailed => ?_⟩
    exact absurd (h.failed_lt _ hfailed) (Nat.lt_irrefl _)
  · rw [Hub.starting, List.getElem?_append] at hsending
    split at hsending
    · exact h.dead_iff c pos used w dead hsending
    · rw [List.getElem?_singleton] at hsending
      split at hsending <;> simp at hsending

omit [DecidableEq α] in
theorem Booked.but (h : Booked hub) {w : α} (hsending : hub.broadcasts[call]? = some (.sending pos used w dead)) :
    BookedBut hub call dead :=
  ⟨(List.getElem?_eq_some_iff.mp hsending).1, h.sent_lt, h.failed_lt, h.dead_iff _ _ _ _ _ hsending,
    fun c pos used w dead _ => h.dead_iff c pos used w dead⟩

omit [DecidableEq α] in
theorem BookedBut.noteFailed (h : BookedBut hub call dead) (ws : α) :
    BookedBut (hub.noteFailed call ws) call (ws :: dead) := by
  refine ⟨h.call_lt, h.sent_lt, fun send hsend => ?_, fun w => ?_, fun c pos used w' dead' hc hsending w => ?_⟩
  · rcases List.mem_append.mp hsend with hin | hlast
    · exact h.failed_lt send hin
    · rw [List.mem_singleton.mp hlast]
      exact h.call_lt
  · rw [List.mem_cons, h.own_iff, or_comm]
    simp [Hub.noteFailed]
  · simp only [Hub.noteFailed, List.mem_append, List.mem_singleton, Send.mk.injEq, hc, false_and, or_false,
      h.dead_iff c pos used w' dead' hc hsending]

theorem BookedBut.goesOn (h : BookedBut hub call dead) (hloop : GoesOn hub call pos used dead layout hub') :
    Booked hub' := by
  have others {b : Broadcast α} (hb : ∀ pos used w dead', b = .sending pos used w dead' → dead' = dead) :
      ∀ c pos used w dead', (hub.broadcasts.set call b)[c]? = some (.sending pos used w dead') →
        ∀ ws, ws ∈ dead' ↔ ⟨c, ws⟩ ∈ hub.failed := by
    intro c pos used w dead' hsending
    rw [List.getElem?_set] at hsending
    split at hsending
    · rename_i hc
      subst hc
      rw [if_pos h.call_lt] at hsending
      rw [hb _ _ _ _ (Option.some.inj hsending)]
      exact h.own_iff
    · rename_i hc
      exact h.dead_iff c pos used w dead' (Ne.symm hc) hsending
  cases hloop with
  | raise hused =>
    refine ⟨fun send hsend => ?_, fun send hsend => ?_, others (by rintro _ _ _ _ ⟨⟩)⟩
    · simpa using h.sent_lt send hsend
    · simpa using h.failed_lt send hsend
  | send ws p hnext =>
    refine ⟨fun send hsend => ?_, fun send hsend => ?_, others (by rintro _ _ _ _ ⟨⟩; rfl)⟩
    · rcases List.mem_append.mp hsend with hin | hlast
      · simpa using h.sent_lt send hin
      · rw [List.mem_singleton.mp hlast]
        simpa using h.call_lt
    · simpa using h.failed_lt send hsend
  | finish hnext hperm =>
    refine ⟨fun send hsend => ?_, fun send hsend => ?_, others (by rintro _ _ _ _ ⟨⟩)⟩
    · simpa using h.sent_lt send hsend
    · simpa using h.failed_lt send hsend

theorem booked_step (hb : Booked hub) (h : Step hub a hub') : Booked hub' := by
  cases step_moves h with
  | outside u hcall hkeeps => exact ⟨hb.sent_lt, hb.failed_lt, hb.dead_iff⟩
  | start layout hloop => exact hb.starting.goesOn hloop
  | sendOk call pos used ws dead layout hsending hloop => exact (hb.but hsending).goesOn hloop
  | sendFailed call pos used ws dead layout hsending hloop => exact ((hb.but hsending).noteFailed ws).goesOn hloop

theorem booked_run {s t : Hub α} {as : List (Act α)} (hs : Initial s) (h : Run Step s as t) : Booked t := by
  refine h.invariant (fun s a t hb hstep => booked_step hb hstep) ⟨?_, ?_, ?_⟩
  · simp [hs.2.1]
  · simp [hs.2.2]
  · simp [hs.1]

/-! ## What a broadcast removes -/

theorem removed_of_goesOn (h : BookedBut hub call dead) (hloop : GoesOn hub call pos used dead layout hub') :
    ∀ ws ∈ hub.activeSockets.members,
      ws ∉ hub'.activeSockets.members ↔ hub'.broadcasts[call]? = some .returned ∧ ⟨call, ws⟩ ∈ hub'.failed := by
  intro ws hws
  cases hloop with
  | raise hused => simp [hws, h.call_lt]
  | send w p hnext => simp [hws, h.call_lt]
  | finish hnext hperm =>
    simp only [hperm.mem_iff, SlotSet.mem_remove, hws, true_and, not_not, h.own_iff, List.getElem?_set_self h.call_lt]

theorem removed_step (hb : Booked hub) (h : Step hub a hub') (hcall : a.call hub = some call) :
    ∀ ws ∈ hub.activeSockets.members,
      ws ∉ hub'.activeSockets.members ↔ hub'.broadcasts[call]? = some .returned ∧ ⟨call, ws⟩ ∈ hub'.failed := by
  cases step_moves h with
  | outside u hnone hkeeps => exact absurd (hnone.symm.trans hcall) (by simp)
  | start layout hloop =>
    cases hcall
    have hremoved := removed_of_goesOn hb.starting hloop
    exact hremoved
  | sendOk call pos used ws dead layout hsending hloop =>
    cases hcall
    exact removed_of_goesOn (hb.but hsending) hloop
  | sendFailed call pos used ws dead layout hsending hloop =>
    cases hcall
    have hremoved := removed_of_goesOn ((hb.but hsending).noteFailed ws) hloop
    exact hremoved

/-! ## No broadcast raises -/

theorem not_raised_of_goesOn (hraised : .raised ∉ hub.broadcasts) (hused : hub.activeSockets.used = used)
    (hloop : GoesOn hub call pos used dead layout hub') : .raised ∉ hub'.broadcasts := by
  have set_other {b : Broadcast α} (hb : b ≠ .raised) : .raised ∉ hub.broadcasts.set call b := fun hmem =>
    (List.mem_or_eq_of_mem_set hmem).elim hraised fun heq => hb heq.symm
  cases hloop with
  | raise hne => exact absurd hused hne
  | send ws p hnext => exact set_other (by simp)
  | finish hnext hperm => exact set_other (by simp)

theorem not_raised_step (hraised : .raised ∉ hub.broadcasts) (hsteady : Steady hub a) (h : Step hub a hub') :
    .raised ∉ hub'.broadcasts := by
  cases step_moves h with
  | outside u hcall hkeeps => exact hraised
  | start layout hloop =>
    refine not_raised_of_goesOn ?_ rfl hloop
    simpa [Hub.starting] using hraised
  | sendOk call pos used ws dead layout hsending hloop =>
    exact not_raised_of_goesOn hraised (hsteady.2 _ _ _ _ hsending) hloop
  | sendFailed call pos used ws dead layout hsending hloop =>
    have hused : (hub.noteFailed call ws).activeSockets.used = used := hsteady.2 _ _ _ _ hsending
    have hnoted : .raised ∉ (hub.noteFailed call ws).broadcasts := hraised
    exact not_raised_of_goesOn hnoted hused hloop

/-! ## Sent once -/

/-- How often broadcast `c` has sent to `ws`. While it is under way, this is whether it has passed the
slot of `ws`. -/
structure Tracked (c : Nat) (ws : α) (hub : Hub α) : Prop where
  call_lt : c < hub.broadcasts.length
  returned : hub.broadcasts[c]? = some .returned → hub.sent.count ⟨c, ws⟩ = 1
  sending : ∀ pos used w dead, hub.broadcasts[c]? = some (.sending pos used w dead) → ws ∈ hub.activeSockets.members →
    ∃ i, hub.activeSockets.At i ws ∧ hub.sent.count ⟨c, ws⟩ = if i < pos then 1 else 0

theorem tracked_of_goesOn {i : Nat} (hcall : call < hub.broadcasts.length) (hslot : hub.activeSockets.At i ws)
    (hcount : hub.sent.count ⟨call, ws⟩ = if i < pos then 1 else 0)
    (hloop : GoesOn hub call pos used dead layout hub') : Tracked call ws hub' := by
  cases hloop with
  | raise hused => exact ⟨by simpa using hcall, by simp [hcall], by simp [hcall]⟩
  | send w p hnext =>
    refine ⟨by simpa using hcall, by simp [hcall], fun pos' used' w' dead' hsending _ => ⟨i, hslot, ?_⟩⟩
    rw [List.getElem?_set_self hcall] at hsending
    cases hsending
    have hpassed := SlotSet.passed_iff hslot hnext
    rw [List.count_append, hcount]
    by_cases hi : i < pos
    -- Its slot is behind the loop, so the next socket is another one.
    · have hne : ws ≠ w := SlotSet.ne_of_passed hslot hnext hi
      have hp : i < p := hpassed.mpr (.inl hi)
      simp [hi, hp, Ne.symm hne]
    · by_cases hw : ws = w
      · have hp : i < p := hpassed.mpr (.inr hw)
        simp [hi, hp, hw]
      · have hp : ¬ i < p := fun h => (hpassed.mp h).elim hi hw
        simp [hi, hp, Ne.symm hw]
  -- The loop has come to the end of the table, and so past every slot.
  | finish hnext hperm =>
    have hpassed : i < pos := SlotSet.next_none hnext hslot
    refine ⟨by simpa using hcall, fun _ => by rw [hcount, if_pos hpassed], ?_⟩
    simp [hcall]

theorem Tracked.goesOn (h : Tracked c ws hub) (hc : c ≠ call) (hws : ws ∈ hub.activeSockets.members)
    (hkeeps : (∃ pos used w dead, hub.broadcasts[c]? = some (.sending pos used w dead)) →
      hub.activeSockets.KeepsPlaces layout)
    (hloop : GoesOn hub call pos used dead layout hub') : Tracked c ws hub' := by
  have others (b : Broadcast α) : (hub.broadcasts.set call b)[c]? = hub.broadcasts[c]? :=
    List.getElem?_set_ne (Ne.symm hc)
  cases hloop with
  | raise hused =>
    refine ⟨by simpa using h.call_lt, ?_, ?_⟩
    · simpa [others] using h.returned
    · simpa [others] using h.sending
  | send w p hnext =>
    have hnone : (⟨c, ws⟩ : Send α) ∉ [(⟨call, w⟩ : Send α)] := by simp [hc]
    have hcount : (hub.sent ++ [(⟨call, w⟩ : Send α)]).count ⟨c, ws⟩ = hub.sent.count ⟨c, ws⟩ := by
      rw [List.count_append, List.count_eq_zero.mpr hnone, Nat.add_zero]
    refine ⟨by simpa using h.call_lt, ?_, ?_⟩
    · rw [others, hcount]
      exact h.returned
    · rw [others, hcount]
      exact h.sending
  | finish hnext hperm =>
    refine ⟨by simpa using h.call_lt, ?_, fun pos' used' w' dead' hsending hin => ?_⟩
    · simpa [others] using h.returned
    · rw [others] at hsending
      obtain ⟨i, hslot, hcount⟩ := h.sending _ _ _ _ hsending hws
      exact ⟨i, hkeeps ⟨_, _, _, _, hsending⟩ i ws hslot hin, hcount⟩

theorem tracked_step (h : Tracked c ws hub) (hws : ws ∈ hub.activeSockets.members) (hsteady : Steady hub a)
    (hstep : Step hub a hub') : Tracked c ws hub' := by
  cases step_moves hstep with
  | outside u hcall hkeeps =>
    refine ⟨h.call_lt, h.returned, fun pos used w dead hsending hin => ?_⟩
    obtain ⟨i, hslot, hcount⟩ := h.sending _ _ _ _ hsending hws
    exact ⟨i, hkeeps hsteady ⟨c, _, _, _, _, by simp, hsending⟩ i ws hslot hin, hcount⟩
  | start layout hloop =>
    have hstarting : Tracked c ws hub.starting := by
      have hsame : hub.starting.broadcasts[c]? = hub.broadcasts[c]? := List.getElem?_append_left h.call_lt
      refine ⟨Nat.lt_of_lt_of_le h.call_lt (by simp [Hub.starting]), ?_, ?_⟩
      · rw [hsame]
        exact h.returned
      · rw [hsame]
        exact h.sending
    refine hstarting.goesOn (Nat.ne_of_lt h.call_lt) hws ?_ hloop
    rintro ⟨pos, used, w, dead, hsending⟩
    have hsame : hub.starting.broadcasts[c]? = hub.broadcasts[c]? := List.getElem?_append_left h.call_lt
    exact hsteady ⟨c, pos, used, w, dead, by simp, hsame ▸ hsending⟩
  | sendOk call pos used w dead layout hsending hloop =>
    by_cases hc : c = call
    · subst hc
      obtain ⟨i, hslot, hcount⟩ := h.sending _ _ _ _ hsending hws
      exact tracked_of_goesOn h.call_lt hslot hcount hloop
    · refine h.goesOn hc hws ?_ hloop
      rintro ⟨pos', used', w', dead', hother⟩
      exact hsteady.1 ⟨c, pos', used', w', dead', by simpa using hc, hother⟩
  | sendFailed call pos used w dead layout hsending hloop =>
    have hnoted : Tracked c ws (hub.noteFailed call w) := ⟨h.call_lt, h.returned, h.sending⟩
    by_cases hc : c = call
    · subst hc
      obtain ⟨i, hslot, hcount⟩ := hnoted.sending _ _ _ _ hsending hws
      exact tracked_of_goesOn hnoted.call_lt hslot hcount hloop
    · refine hnoted.goesOn hc hws ?_ hloop
      rintro ⟨pos', used', w', dead', hother⟩
      exact hsteady.1 ⟨c, pos', used', w', dead', by simpa using hc, hother⟩

theorem tracked_start (hb : Booked hub) (hws : ws ∈ hub.activeSockets.members)
    (hstep : Step hub (.startBroadcast layout) hub') : Tracked hub.broadcasts.length ws hub' := by
  cases step_moves hstep with
  | outside u hcall hkeeps => cases hcall
  | start layout hloop =>
    obtain ⟨i, hslot⟩ := SlotSet.mem_members.mp hws
    have hnone : hub.starting.sent.count ⟨hub.broadcasts.length, ws⟩ = 0 := by
      rw [List.count_eq_zero]
      exact fun hmem => absurd (hb.sent_lt _ hmem) (Nat.lt_irrefl _)
    have hslot' : hub.starting.activeSockets.At i ws := hslot
    exact tracked_of_goesOn hb.starting.call_lt hslot' (by rw [hnone, if_neg (Nat.not_lt_zero i)]) hloop

theorem tracked_run {s t : Hub α} {as : List (Act α)} (hb : Booked s)
    (h : Run (Only (Only Step Steady) (Registered ws)) s (.startBroadcast layout :: as) t) :
    Tracked s.broadcasts.length ws t := by
  cases h with
  | cons head tail =>
    refine tail.invariant (fun s a t htracked hstep => ?_) (tracked_start hb head.2 head.1.1)
    exact tracked_step htracked hstep.2 hstep.1.2 hstep.1.1

/-- **When a broadcast delivers.** In a run in which no socket that stays gets another slot during a
broadcast, and in which a broadcast always goes on with as many sockets as it began with, none raises,
each reaches every socket that stays exactly once, and removes the sockets whose send failed. -/
theorem broadcasts_deliver {s t : Hub α} {as : List (Act α)} (hs : Initial s)
    (h : Run (Only Step Steady) s as t) : Delivered s as t := by
  refine ⟨?_, ?_, ?_⟩
  · refine h.invariant (I := fun hub => .raised ∉ hub.broadcasts) ?_ (by simp [hs.1])
    exact fun s a t hraised hstep => not_raised_step hraised hstep.2 hstep.1
  · rintro pre layout post m ws rfl hpre hpost hreturned
    obtain ⟨m', hpre', hpost'⟩ := h.split
    obtain rfl : m = m' := hpre.det step_det hpre'.of_only
    exact (tracked_run (booked_run hs hpre) (hpost'.both step_det hpost)).returned hreturned
  · rintro pre a m c rfl hpre hcall
    obtain ⟨m', hpre', hlast⟩ := h.of_only.split
    obtain rfl : m = m' := hpre.det step_det hpre'
    cases hlast with
    | cons head tail =>
      cases tail
      exact removed_step (booked_run hs hpre) head hcall

/-! ## Two runs -/

def twoSockets : Hub Nat := ⟨⟨[some 1, some 2], by decide⟩, [], [], []⟩

def threeSlots : SlotSet Nat := ⟨[some 1, some 2, some 3], by decide⟩

/-- The table without the first socket, and the third gone again. -/
def lastSlot : SlotSet Nat := ⟨[none, some 2, none], by decide⟩

theorem not_suspended {b : Broadcast Nat} {t : SlotSet Nat} {sent failed : List (Send Nat)} :
    ¬ Hub.Suspended ⟨t, [b], sent, failed⟩ (some 0) := by
  rintro ⟨c, pos, used, w, dead, hc, hsending⟩
  have hlt := (List.getElem?_eq_some_iff.mp hsending).1
  have : c ≠ 0 := fun h => hc (congrArg some h)
  simp only [List.length_singleton] at hlt
  omega

/-- A socket comes and goes during a broadcast, and the first send fails. -/
def steadyActs : List (Act Nat) :=
  [.startBroadcast threeSlots, .registerSocket 3 threeSlots, .unregisterSocket 3, .sendDone 0 true lastSlot,
    .sendDone 0 false lastSlot]

theorem steady_run : Run (Only Step Steady) twoSockets steadyActs
    ⟨lastSlot, [.returned], [⟨0, 1⟩, ⟨0, 2⟩], [⟨0, 1⟩]⟩ := by
  refine .cons ⟨rfl, ?_⟩ (.cons ⟨rfl, ?_⟩ (.cons ⟨rfl, ?_⟩ (.cons ⟨rfl, ?_⟩ (.cons ⟨rfl, ?_⟩ (.nil _)))))
  · exact fun _ => SlotSet.keepsPlaces_of_prefix ⟨[some 3], rfl⟩
  · exact fun _ => SlotSet.keepsPlaces_of_prefix ⟨[some 3], rfl⟩
  · trivial
  · refine ⟨fun h => absurd h not_suspended, fun pos used w dead hsending => ?_⟩
    cases hsending
    rfl
  · refine ⟨fun h => absurd h not_suspended, fun pos used w dead hsending => ?_⟩
    cases hsending
    rfl

theorem steady_run_delivers :
    Delivered twoSockets steadyActs ⟨lastSlot, [.returned], [⟨0, 1⟩, ⟨0, 2⟩], [⟨0, 1⟩]⟩ :=
  broadcasts_deliver ⟨rfl, rfl, rfl⟩ steady_run

/-- A socket that joins during a send makes the broadcast raise. -/
theorem join_aborts_broadcast : ¬ ∀ (s : Hub Nat) (as : List (Act Nat)) (t : Hub Nat), Initial s → Run Step s as t →
    Delivered s as t := by
  intro h
  have hrun : Run Step twoSockets
      [.startBroadcast threeSlots, .registerSocket 3 threeSlots, .sendDone 0 false threeSlots]
      ⟨threeSlots, [.raised], [⟨0, 1⟩], []⟩ := Run.of_exec rfl
  exact (h _ _ _ ⟨rfl, rfl, rfl⟩ hrun).not_raised List.mem_cons_self

end Palworld.Sockets

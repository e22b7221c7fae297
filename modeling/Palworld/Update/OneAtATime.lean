import Palworld.Update.Dispatch
import Palworld.Lib.Run
import Mathlib.Tactic.Linarith

/-!
# One deployment at a time

Requests, the deployments they start and looks at the lock file, in any order. The lock
file does not say whose it is: it is purged when it is old, and whoever removes it
removes the one that is there.
-/

open Lib Palworld.Supervisor

namespace Palworld.Update

/-! ## The system -/

inductive Call
  | absent
  | acquired (since : ℚ)    -- it has written the lock file, and its thread runs
  | handed (host : Host) -- the thread has returned
  | over

def Call.waits : Call → Bool
  | .absent | .acquired _ => true
  | .handed _ | .over => false

structure System where
  now : ℚ
  lock : Option LockFile
  holder : Option Nat           -- the call that wrote the lock file, which the file does not say
  call : Nat → Call
  deployment : Nat → Option ℚ   -- the unfinished deployments, with the time their call got the lock

inductive Act
  | wait (seconds : ℚ)
  | request (i : Nat) (io : AcquireIo)
  | inspect (io : InspectIo)           -- `get_status` and `get_deployment_progress`
  | dispatch (i : Nat) (host : Host)
  | answer (i : Nat)
  | finish (i : Nat) (removes : Bool)  -- the end of `deploy.sh`, and whether its `rm -f` got the lock file

/-! ## Whose lock file it is -/

/-- Nothing has been asked for yet. There may be a lock file. -/
def Initial (s : System) : Prop := (∀ i, s.call i = .absent) ∧ ∀ i, s.deployment i = none

def System.Holds (s : System) (i : Nat) : Prop := s.lock.isSome = true ∧ s.holder = some i

/-- The lock file can be read unless it is old. -/
def System.Readable (s : System) (io : InspectIo) : Prop :=
  ∀ lock, s.lock = some lock → s.now - lock.mtime ≤ staleLockTimeoutSeconds → io.stat = true

/-- The call has got the lock file at that time, and its deployment is under way or about to be. -/
def System.Active (s : System) (i : Nat) (since : ℚ) : Prop := s.call i = .acquired since ∨ s.deployment i = some since

/-- A young deployment has the lock file. -/
structure Inv (s : System) : Prop where
  holds : ∀ i since, s.Active i since → s.now - since ≤ staleLockTimeoutSeconds → s.lock = some ⟨since⟩ ∧ s.holder = some i
  waiting : ∀ i, (s.call i).waits = true → s.deployment i = none

variable {s t : System} {a : Act} {i : Nat}

theorem inv_initial (h : Initial s) : Inv s := by
  refine ⟨?_, fun i _ => h.2 i⟩
  rintro i since (hcall | hdeployment)
  · rw [h.1 i] at hcall; cases hcall
  · rw [h.2 i] at hdeployment; cases hdeployment

theorem isUpdateInProgress_young {io : InspectIo} {lock : LockFile} (hread : s.Readable io)
    (hlock : s.lock = some lock) (hyoung : s.now - lock.mtime ≤ staleLockTimeoutSeconds) :
    isUpdateInProgress io s.now s.lock = (true, some lock) := by
  have hstat := hread lock hlock hyoung
  simp [isUpdateInProgress, hlock, hstat, hyoung]

theorem acquire_young {io : AcquireIo} {lock : LockFile} (hread : s.Readable io.inspect)
    (hlock : s.lock = some lock) (hyoung : s.now - lock.mtime ≤ staleLockTimeoutSeconds) :
    acquire io s.now s.lock = (.error (.http 409 "An update deployment is already in progress."), some lock) := by
  simp only [acquire, isUpdateInProgress_young hread hlock hyoung]

theorem active_of_update {call : Call} {since : ℚ} {j : Nat} (hji : j ≠ i)
    (h : Function.update s.call i call j = .acquired since ∨ s.deployment j = some since) : s.Active j since := by
  rwa [Function.update_of_ne hji] at h

theorem waiting_of_update {call : Call} (hs : Inv s) (hnone : s.deployment i = none) (j : Nat)
    (h : (Function.update s.call i call j).waits = true) : s.deployment j = none := by
  by_cases hji : j = i
  · exact hji ▸ hnone
  · exact hs.waiting j (by rwa [Function.update_of_ne hji] at h)

theorem holds_of_removed {since : ℚ} {j : Nat} (hs : Inv s) (hown : s.lock = none ∨ s.Holds i) (hji : j ≠ i)
    (hactive : s.Active j since) : ¬ s.now - since ≤ staleLockTimeoutSeconds := by
  intro hyoung
  obtain ⟨hlock, hholder⟩ := hs.holds j since hactive hyoung
  rcases hown with hnone | ⟨-, hown⟩
  · rw [hnone] at hlock; cases hlock
  · rw [hown] at hholder
    exact hji (Option.some.inj hholder).symm

/-! ## Steps -/

section Run

variable [Pydantic]

def step (s : System) : Act → Option System
  | .wait seconds => if 0 ≤ seconds then some { s with now := s.now + seconds } else none
  | .request i io =>
    match s.call i with
    | .absent =>
      match acquire io s.now s.lock with
      | (.ok (), lock) =>
        some { s with lock, holder := some i, call := Function.update s.call i (.acquired s.now) }
      | (.error _, lock) => some { s with lock, call := Function.update s.call i .over }
    | .acquired _ | .handed _ | .over => none
  | .inspect io => some { s with lock := (isUpdateInProgress io s.now s.lock).2 }
  | .dispatch i host =>
    match s.call i with
    | .acquired since =>
      some { s with
        call := Function.update s.call i (.handed host)
        deployment := if host.handsOver then Function.update s.deployment i (some since) else s.deployment }
    | .absent | .handed _ | .over => none
  | .answer i =>
    match s.call i with
    | .handed host => some { s with lock := (host.settle s.lock).2, call := Function.update s.call i .over }
    | .absent | .acquired _ | .over => none
  | .finish i removes =>
    match s.deployment i with
    | some _ =>
      some { s with
        lock := if removes then none else s.lock
        deployment := Function.update s.deployment i none }
    | none => none

def Step (s : System) (a : Act) (t : System) : Prop := step s a = some t

/-- No deployment is dispatched beside an unfinished one whose call got the lock file less than half an
hour ago. -/
def OneAtATime (s : System) : Act → Prop
  | .dispatch j host => host.handsOver = true →
      ∀ i since, i ≠ j → s.deployment i = some since → ¬ s.now - since < staleLockTimeoutSeconds
  | .wait _ | .request _ _ | .inspect _ | .answer _ | .finish _ _ => True

/-- Whoever removes a lock file removes its own, a deployment is handed over under the own lock file,
and no look at a young lock file fails. -/
def Orderly (s : System) : Act → Prop
  | .wait _ => True
  | .request _ io => s.Readable io.inspect
  | .inspect io => s.Readable io
  | .dispatch i host => host.handsOver = true → s.Holds i
  | .answer i => ∀ host error, s.call i = .handed host → host.ending = .failed error →
      host.unlinks = true → s.lock = none ∨ s.Holds i ∧ s.deployment i = none
  | .finish i removes => removes = true → s.lock = none ∨ s.Holds i

/-! ## What a step keeps -/

theorem inv_wait {seconds : ℚ} (hs : Inv s) (h : Step s (.wait seconds) t) : Inv t := by
  simp only [Step, step] at h
  split at h
  · obtain rfl := Option.some.inj h
    refine ⟨fun i since hactive hyoung => ?_, hs.waiting⟩
    apply hs.holds i since hactive
    have : s.now + seconds - since ≤ staleLockTimeoutSeconds := hyoung
    linarith
  · cases h

theorem inv_request {io : AcquireIo} (hs : Inv s) (hread : s.Readable io.inspect)
    (h : Step s (.request i io) t) : Inv t := by
  simp only [Step, step] at h
  split at h
  · rename_i hcall
    have hnone := hs.waiting i (by rw [hcall]; rfl)
    split at h
    · -- the lock file was absent or old, so no other call is active and young
      rename_i lock hacquire
      obtain rfl := Option.some.inj h
      obtain rfl := acquire_ok hacquire
      refine ⟨fun j since hactive hyoung => ?_, waiting_of_update hs hnone⟩
      by_cases hji : j = i
      · subst hji
        simp [System.Active, hnone] at hactive
        simp [hactive]
      · obtain ⟨hlock, -⟩ := hs.holds j since (active_of_update hji hactive) hyoung
        rw [acquire_young hread hlock hyoung] at hacquire
        cases hacquire
    · rename_i lock hacquire
      obtain rfl := Option.some.inj h
      refine ⟨fun j since hactive hyoung => ?_, waiting_of_update hs hnone⟩
      have hji : j ≠ i := by
        rintro rfl
        simp [System.Active, hnone] at hactive
      obtain ⟨hlock, hholder⟩ := hs.holds j since (active_of_update hji hactive) hyoung
      rw [acquire_young hread hlock hyoung] at hacquire
      exact ⟨(congrArg Prod.snd hacquire).symm, hholder⟩
  all_goals cases h

theorem inv_inspect {io : InspectIo} (hs : Inv s) (hread : s.Readable io) (h : Step s (.inspect io) t) : Inv t := by
  obtain rfl := Option.some.inj h
  refine ⟨fun i since hactive hyoung => ?_, hs.waiting⟩
  obtain ⟨hlock, hholder⟩ := hs.holds i since hactive hyoung
  exact ⟨congrArg Prod.snd (isUpdateInProgress_young hread hlock hyoung), hholder⟩

theorem inv_dispatch {host : Host} (hs : Inv s) (h : Step s (.dispatch i host) t) : Inv t := by
  simp only [Step, step] at h
  split at h
  · rename_i since hcall
    obtain rfl := Option.some.inj h
    have hkeeps : ∀ j, j ≠ i →
        (if host.handsOver = true then Function.update s.deployment i (some since) else s.deployment) j =
          s.deployment j := by
      intro j hji
      split
      · exact Function.update_of_ne hji ..
      · rfl
    refine ⟨fun j other hactive hyoung => ?_, fun j hj => ?_⟩
    · apply hs.holds j other _ hyoung
      by_cases hji : j = i
      · subst hji
        simp only [System.Active, Function.update_self, reduceCtorEq, false_or] at hactive
        split at hactive
        · left
          rw [Function.update_self] at hactive
          rw [hcall, Option.some.inj hactive]
        · exact Or.inr hactive
      · simp only [System.Active, hkeeps j hji, Function.update_of_ne hji] at hactive
        exact hactive
    · have hji : j ≠ i := by
        rintro rfl
        simp [Call.waits] at hj
      simp only [Function.update_of_ne hji] at hj
      exact (hkeeps j hji).trans (hs.waiting j hj)
  all_goals cases h

theorem inv_answer (hs : Inv s) (horderly : Orderly s (.answer i)) (h : Step s (.answer i) t) : Inv t := by
  simp only [Step, step] at h
  split at h
  · rename_i host hcall
    obtain rfl := Option.some.inj h
    refine ⟨fun j since hactive hyoung => ?_, fun j hj => ?_⟩
    · have hbefore : s.Active j since := by
        by_cases hji : j = i
        · subst hji
          simp only [System.Active, Function.update_self, reduceCtorEq, false_or] at hactive
          exact Or.inr hactive
        · exact active_of_update hji hactive
      obtain ⟨hlock, hholder⟩ := hs.holds j since hbefore hyoung
      refine ⟨?_, hholder⟩
      rcases settle_lock host s.lock with hsame | ⟨⟨error, hfailed⟩, hunlinks⟩
      · exact hsame.trans hlock
      · -- the lock file that the call removes is its own, and it has no deployment
        exfalso
        rcases horderly host error hcall hfailed hunlinks with hnone | ⟨hholds, hidle⟩
        · rw [hnone] at hlock; cases hlock
        · by_cases hji : j = i
          · subst hji
            simp [System.Active, hcall, hidle] at hbefore
          · exact holds_of_removed hs (Or.inr hholds) hji hbefore hyoung
    · have hji : j ≠ i := by
        rintro rfl
        simp [Call.waits] at hj
      simp only [Function.update_of_ne hji] at hj
      exact hs.waiting j hj
  all_goals cases h

theorem inv_finish {removes : Bool} (hs : Inv s) (horderly : Orderly s (.finish i removes))
    (h : Step s (.finish i removes) t) : Inv t := by
  simp only [Step, step] at h
  split at h
  · rename_i since hdeployment
    obtain rfl := Option.some.inj h
    have hwaits : (s.call i).waits = false := by
      rw [Bool.eq_false_iff]
      intro hwaits
      rw [hs.waiting i hwaits] at hdeployment
      cases hdeployment
    refine ⟨fun j other hactive (hyoung : s.now - other ≤ _) => ?_, fun j hj => ?_⟩
    · have hji : j ≠ i := by
        rintro rfl
        simp only [System.Active, Function.update_self, reduceCtorEq, or_false] at hactive
        rw [hactive] at hwaits
        cases hwaits
      have hbefore : s.Active j other := by
        simpa only [System.Active, Function.update_of_ne hji] using hactive
      refine ⟨?_, (hs.holds j other hbefore hyoung).2⟩
      cases removes with
      | false => exact (hs.holds j other hbefore hyoung).1
      | true => exact absurd hyoung (holds_of_removed hs (horderly rfl) hji hbefore)
    · show Function.update s.deployment i none j = none
      by_cases hji : j = i
      · rw [hji, Function.update_self]
      · rw [Function.update_of_ne hji]
        exact hs.waiting j hj
  · cases h

theorem inv_step (hs : Inv s) (h : Only Step Orderly s a t) : Inv t := by
  obtain ⟨hstep, horderly⟩ := h
  cases a with
  | wait seconds => exact inv_wait hs hstep
  | request i io => exact inv_request hs horderly hstep
  | inspect io => exact inv_inspect hs horderly hstep
  | dispatch i host => exact inv_dispatch hs hstep
  | answer i => exact inv_answer hs horderly hstep
  | finish i removes => exact inv_finish hs horderly hstep

/-! ## Runs -/

theorem inv_reachable (h : Reachable Initial (Only Step Orderly) s) : Inv s :=
  h.invariant (fun _ => inv_initial) fun _ _ _ => inv_step

/-- In a run whose steps are orderly, no deployment is dispatched beside a young unfinished one. -/
theorem one_deployment_at_a_time (hreach : Reachable Initial (Only Step Orderly) s)
    (hstep : Only Step Orderly s a t) : OneAtATime s a := by
  have hs := inv_reachable hreach
  obtain ⟨-, horderly⟩ := hstep
  cases a with
  | dispatch j host =>
    intro hhands i since hij hdeployment hyoung
    obtain ⟨-, hholder⟩ := hs.holds i since (Or.inr hdeployment) hyoung.le
    obtain ⟨-, hown⟩ := horderly hhands
    rw [hown] at hholder
    exact hij (Option.some.inj hholder).symm
  | wait | request | inspect | answer | finish => trivial

end Run

/-! ## Two runs -/

def idleSystem : System := ⟨0, none, none, fun _ => .absent, fun _ => none⟩

theorem initial_idleSystem : Initial idleSystem := ⟨fun _ => rfl, fun _ => rfl⟩

/-- A runner is injected and takes the deployment. -/
def runnerHost : Host := { willingUpdateHost .absent with commandRunner := some (.ok ()) }

def firstAcquired : System := { idleSystem with
  lock := some ⟨0⟩, holder := some 0, call := Function.update idleSystem.call 0 (.acquired 0) }

def firstDeployed : System := { firstAcquired with
  call := Function.update firstAcquired.call 0 (.handed runnerHost)
  deployment := Function.update firstAcquired.deployment 0 (some 0) }

/-- The second call is refused, and the third finds an old lock file. -/
def laterRequests : List Act := [.wait 60, .request 1 freeAcquire, .wait 1801, .request 2 freeAcquire]

theorem orderly_laterRequests [Pydantic] : ∀ a ∈ laterRequests, ∀ s, Orderly s a := by
  have hrequest : ∀ i s, Orderly s (.request i freeAcquire) := fun _ _ _ _ _ => rfl
  simp only [laterRequests, List.forall_mem_cons]
  exact ⟨fun _ => trivial, hrequest 1, fun _ => trivial, hrequest 2, fun _ h => by cases h⟩

/-- The third deployment starts beside the first one, which is old. -/
theorem one_deployment_at_a_time_later :
    let _ := pydanticOf answerLine answerDocument
    ∃ s t, Reachable Initial (Only Step Orderly) s ∧ Step s (.dispatch 2 runnerHost) t ∧ s.deployment 0 = some 0 ∧
      OneAtATime s (.dispatch 2 runnerHost) := by
  intro _
  have hrequest : Only Step Orderly idleSystem (.request 0 freeAcquire) firstAcquired := by
    refine ⟨rfl, ?_⟩
    rintro lock ⟨⟩
  have hdispatch : Only Step Orderly firstAcquired (.dispatch 0 runnerHost) firstDeployed := ⟨rfl, fun _ => ⟨rfl, rfl⟩⟩
  have hlater : (exec step firstDeployed laterRequests).bind (fun s => (step s (.dispatch 2 runnerHost)).map fun _ =>
      (s.lock.isSome, s.holder, s.deployment 0)) = some (true, some 2, some 0) := by decide +kernel
  obtain ⟨s, hs, hrest⟩ := Option.bind_eq_some_iff.mp hlater
  obtain ⟨t, ht, hlooks⟩ := Option.map_eq_some_iff.mp hrest
  simp only [Prod.mk.injEq] at hlooks
  obtain ⟨hlock, hholder, hdeployment⟩ := hlooks
  obtain ⟨_, as, hinit, hrun⟩ := ((Reachable.of_init initial_idleSystem).step hrequest).step hdispatch
  have hreach : Reachable Initial (Only Step Orderly) s :=
    ⟨_, _, hinit, hrun.append ((Run.of_exec hs).only orderly_laterRequests)⟩
  exact ⟨s, t, hreach, ht, hdeployment, one_deployment_at_a_time hreach ⟨ht, fun _ => ⟨hlock, hholder⟩⟩⟩

/-- The first deployment outlives its lock file and then removes that of the second. -/
def lateFinish : List Act :=
  [.request 0 freeAcquire, .dispatch 0 runnerHost, .answer 0, .wait 1801, .request 1 freeAcquire, .dispatch 1 runnerHost,
    .answer 1, .finish 0 true, .request 2 freeAcquire]

theorem late_finish_frees_lock : ¬ ∀ (_ : Pydantic) (s t : System) (a : Act),
    Reachable Initial Step s → Step s a t → OneAtATime s a := by
  intro h
  let _ := pydanticOf answerLine answerDocument
  have hrun : (exec step idleSystem lateFinish).isSome = true := by decide +kernel
  obtain ⟨s, hs⟩ := Option.isSome_iff_exists.mp hrun
  have hlooks : (exec step idleSystem lateFinish).map (fun s => (s.now, s.deployment 1)) = some (1801, some 1801) := by
    decide +kernel
  have hdispatch : ((exec step idleSystem lateFinish).bind fun s => step s (.dispatch 2 runnerHost)).isSome = true := by
    decide +kernel
  rw [hs] at hlooks hdispatch
  obtain ⟨t, ht⟩ := Option.isSome_iff_exists.mp hdispatch
  obtain ⟨hnow, hdeployment⟩ := Prod.mk.inj (Option.some.inj hlooks)
  have hreach : Reachable Initial Step s := ⟨idleSystem, lateFinish, initial_idleSystem, Run.of_exec hs⟩
  have hstep : Step s (.dispatch 2 runnerHost) t := ht
  have hone := h _ s t _ hreach hstep (by decide +kernel) 1 1801 (by decide) hdeployment
  exact hone (by rw [hnow]; decide +kernel)

end Palworld.Update

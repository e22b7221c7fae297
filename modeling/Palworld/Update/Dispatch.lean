import Palworld.Update.Watcher
import Palworld.Supervisor.Server

/-!
# When a dispatch settles

A call of `apply_update` that has the lock file either hands the deployment over and
answers "applying", or raises and leaves no lock file. The handler in
`_spawn_detached_deployer` swallows what the supervisor's client raises, so a third end
is there: "applying" with nobody deploying.
-/

open Lib Palworld.Supervisor

namespace Palworld.Update

section Settles

variable [Pydantic] {host : Host} {lock : Option LockFile}

/-- "applying" with the deployment handed over, or an exception and no lock file. -/
def Settled (host : Host) (outcome : Except Raised UpdateApplyResponse × Option LockFile) : Prop :=
  match outcome.1 with
  | .ok response => response.status = "applying" ∧ host.handsOver = true
  | .error _ => outcome.2 = none

/-! ## The thread -/

def ScriptFiles.script (files : ScriptFiles) : Probe :=
  match resolveDeployScript files with
  | .error _ => .osError
  | .ok script => files.isFile script

def Host.logs (host : Host) : Bool := host.logOpens.isOk && host.logCloses.isOk

theorem spawnDetachedDeployer_posix (h : host.posix = true) :
    spawnDetachedDeployer host = host.logOpens.bind fun _ => host.logCloses := by
  unfold spawnDetachedDeployer
  cases host.logOpens with
  | error => rfl
  | ok => simp only [h]; cases dispatchViaSupervisor host.loop host.peer <;> rfl

theorem isOk_spawnDetachedDeployer (h : host.posix = true) : (spawnDetachedDeployer host).isOk = host.logs := by
  rw [spawnDetachedDeployer_posix h]
  unfold Host.logs
  cases host.logOpens <;> rfl

/-! ## The ending -/

/-- The call fails before or beside the hand-over, and its lock file can be removed. -/
def Host.CleansUp (host : Host) : Prop :=
  (host.files.script = .no ∨ host.files.script = .yes ∧ host.logs = false ∧ host.cancelled = false) ∧
    host.unlinks = true

/-- Nothing goes wrong around the hand-over, the thread finds an event loop, and the supervisor has the
request and does not refuse it. -/
def Host.Delivers (host : Host) : Prop :=
  host.files.script = .yes ∧ host.logs = true ∧ host.cancelled = false ∧ host.loop ≠ .absent ∧
    host.peer.takes = true

theorem handsOver_posix (hposix : host.posix = true) (hrunner : host.commandRunner = none)
    (hlogs : host.logOpens.isOk = true) :
    host.handsOver = true ↔ host.files.script = .yes ∧ host.loop ≠ .absent ∧ host.peer.takes = true := by
  unfold Host.handsOver ScriptFiles.script
  cases resolveDeployScript host.files with
  | error => simp
  | ok script => simp [hposix, hrunner, hlogs]

theorem ending_posix (hposix : host.posix = true) (hrunner : host.commandRunner = none) :
    (host.ending = .returned ↔ host.files.script = .yes ∧ host.logs = true ∧ host.cancelled = false) ∧
      ((∃ error, host.ending = .failed error) ↔
        host.files.script = .no ∨ host.files.script = .yes ∧ host.logs = false ∧ host.cancelled = false) := by
  have hthread := isOk_spawnDetachedDeployer hposix
  unfold Host.ending ScriptFiles.script
  cases resolveDeployScript host.files with
  | error => simp
  | ok script =>
    simp only [hrunner]
    cases host.files.isFile script with
    | osError => simp
    | no => simp
    | yes =>
      rw [← hthread]
      cases spawnDetachedDeployer host <;> cases host.cancelled <;> simp [awaitThread, Except.isOk, Except.toBool]

theorem settle_returned (h : host.ending = .returned) : host.settle lock = (.ok (), lock) := by
  simp only [Host.settle, h]

theorem settle_raised {error : Raised} (h : host.ending = .raised error) :
    host.settle lock = (.error error, lock) := by
  simp only [Host.settle, h]

theorem settle_failed {error : Raised} (lock : Option LockFile) (h : host.ending = .failed error) :
    ∃ raised, host.settle lock = (.error raised, if host.unlinks then none else lock) := by
  simp only [Host.settle, h, unlinkLock]
  cases lock <;> cases host.unlinks <;> simp

theorem settle_lock (host : Host) (lock : Option LockFile) :
    (host.settle lock).2 = lock ∨ (∃ error, host.ending = .failed error) ∧ host.unlinks = true := by
  cases hending : host.ending with
  | returned => left; rw [settle_returned hending]
  | raised error => left; rw [settle_raised hending]
  | failed error =>
    obtain ⟨raised, hsettle⟩ := settle_failed lock hending
    cases hunlinks : host.unlinks with
    | true => right; simp
    | false => left; simp [hsettle, hunlinks]

/-- On POSIX and without an injected runner, a call that has the lock file settles exactly when it
fails with the lock file removed or the supervisor gets the request and does not refuse it. -/
theorem dispatch_settles_iff {watcher : Watcher} {io : AcquireIo} {now later : ℚ} {branch : Option Text}
    {held : Option LockFile} (hposix : host.posix = true) (hrunner : host.commandRunner = none)
    (htarget : targetPattern (watcher.target branch) = true) (hheld : acquire io now lock = (.ok (), held)) :
    Settled host (watcher.applyUpdate io host now later branch lock) ↔ host.CleansUp ∨ host.Delivers := by
  obtain ⟨hreturned, hfailed⟩ := ending_posix hposix hrunner
  obtain rfl := acquire_ok hheld
  simp only [Watcher.applyUpdate, htarget, hheld, Bool.not_true, Bool.false_eq_true, if_false]
  cases hending : host.ending with
  | returned =>
    -- the answer is "applying", whatever became of the request
    obtain ⟨hscript, hlogs, hcancelled⟩ := hreturned.mp hending
    have hopens : host.logOpens.isOk = true := (Bool.and_eq_true_iff.mp hlogs).1
    simp only [settle_returned hending, Settled, applying, true_and]
    rw [handsOver_posix hposix hrunner hopens]
    simp [Host.CleansUp, Host.Delivers, hscript, hlogs, hcancelled]
  | failed error =>
    have hends := hfailed.mp ⟨error, hending⟩
    obtain ⟨raised, hsettle⟩ := settle_failed (some ⟨now⟩) hending
    have hnot : ¬ host.Delivers := by
      rintro ⟨hscript, hlogs, hcancelled, -⟩
      cases (hreturned.mpr ⟨hscript, hlogs, hcancelled⟩).symm.trans hending
    simp [hsettle, Settled, Host.CleansUp, hends, hnot]
  | raised error =>
    have hnot : ¬ host.CleansUp := by
      rintro ⟨hends, -⟩
      obtain ⟨other, hother⟩ := hfailed.mpr hends
      cases hother.symm.trans hending
    have hnot' : ¬ host.Delivers := by
      rintro ⟨hscript, hlogs, hcancelled, -⟩
      cases (hreturned.mpr ⟨hscript, hlogs, hcancelled⟩).symm.trans hending
    simp [settle_raised hending, Settled, hnot, hnot']

end Settles

/-! ## Two hosts -/

def answerLine : List UInt8 := lineBytes "\x7b\"id\":\"7\",\"result\":\x7b\x7d\x7d"

def answerDocument : Json := .object [(lit "id", .str (lit "7")), (lit "result", .object [])]

/-- The supervisor takes the deployment, and every file can be read and written. -/
def willingUpdateHost (loop : ThreadLoop) : Host where
  posix := true
  files := ⟨false, .no, fun _ => .yes, fun _ => "deploy.sh"⟩
  commandRunner := none
  logOpens := .ok ()
  logCloses := .ok ()
  loop := loop
  peer := ⟨true, .connected, true, true, .line answerLine⟩
  popen := .ok ()
  cancelled := false
  unlinks := true

def mainWatcher : Watcher := ⟨lit "main"⟩

def freeAcquire : AcquireIo := ⟨⟨true, true⟩, true⟩

theorem dispatch_settles_idle :
    let _ := pydanticOf answerLine answerDocument
    Settled (willingUpdateHost .idle) (mainWatcher.applyUpdate freeAcquire (willingUpdateHost .idle) 0 1 none none) := by
  intro _
  have htakes : (willingUpdateHost .idle).peer.takes = true := by decide +kernel
  exact (dispatch_settles_iff rfl rfl (by decide +kernel) rfl).mpr (Or.inr ⟨rfl, rfl, rfl, by decide, htakes⟩)

/-- A worker thread has no event loop, and the request goes nowhere. -/
theorem thread_without_loop_wedges : ¬ ∀ (_ : Pydantic) (watcher : Watcher) (io : AcquireIo) (host : Host)
    (now later : ℚ) (branch : Option Text) (lock held : Option LockFile), host.posix = true →
      host.commandRunner = none → targetPattern (watcher.target branch) = true →
      acquire io now lock = (.ok (), held) →
      Settled host (watcher.applyUpdate io host now later branch lock) := by
  intro h
  have hsettled := h (pydanticOf answerLine answerDocument) mainWatcher freeAcquire (willingUpdateHost .absent)
    0 1 none none (some ⟨0⟩) rfl rfl (by decide +kernel) rfl
  have hhanded : (@Host.handsOver (pydanticOf answerLine answerDocument) (willingUpdateHost .absent)) = true :=
    hsettled.2
  exact absurd hhanded (by decide +kernel)

end Palworld.Update

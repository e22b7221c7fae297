import Palworld.Engine.Lifecycle
import Mathlib.Data.Rat.Defs

/-!
# The steps of the engine

Any number of calls of `execute_countdown_and_reboot` and `cancel_countdown` on
one `PalEngine`, interleaved at their awaits.
-/

open Lib Palworld.Settings

namespace Palworld.Engine

/-- What happened, in order: an operation of a call, or the result of a `cancel_countdown`. -/
inductive Entry
  | op (call : Nat) (op : Op)
  | cancelReturned (ok : Bool)
  deriving DecidableEq, Repr

/-- A `PalEngine`, the files it touches, its calls and what they did. -/
structure PalEngine where
  lifecycleState : LifecycleState
  cancelEvent : Bool
  cancelReason : String
  lifecycleLock : Option Nat              -- the call that holds the asyncio lock
  lockFile : Option ℚ                     -- the modification time of the lock file
  updateFlags : String → Option String    -- the flag files, by path
  store : Store
  calls : Nat → Call
  trace : List Entry

def PalEngine.new (lockFile : Option ℚ) (updateFlags : String → Option String) (store : Store) : PalEngine where
  lifecycleState := .idle
  cancelEvent := false
  cancelReason := ""
  lifecycleLock := none
  lockFile := lockFile
  updateFlags := updateFlags
  store := store
  calls := fun _ => .absent
  trace := []

/-! ## The lock file -/

/-- Which operations on the lock file raise an `OSError`. -/
structure LockIo where
  statFails : Bool
  unlinkFails : Bool
  touchFails : Bool

/-- `touch` of the lock file, and the `OSError` that nothing catches. -/
def touchLock (io : LockIo) (now : ℚ) (lockFile : Option ℚ) : Option ℚ × Option Ending :=
  if io.touchFails then (lockFile, some .raised) else (some now, none)

/-- `_check_and_acquire_lock`: the lock file after it, and how it raises, if it does. -/
def checkAndAcquireLock (io : LockIo) (now : ℚ) (lockFile : Option ℚ) : Option ℚ × Option Ending :=
  match lockFile with
  | none => touchLock io now none
  | some mtime =>
    if io.statFails then (lockFile, some .runtimeError)
    else if now - mtime > 900 then
      if io.unlinkFails then (lockFile, some .runtimeError) else touchLock io now none
    else touchLock io now lockFile

/-! ## The update flags -/

/-- What the host lets the engine do between two awaits. -/
structure HostIo where
  ini : IniIo
  searchFlag : String → Bool    -- `exists` of a flag raises where its directory cannot be searched
  writeFlag : String → Bool
  unlinkFlag : String → Bool
  unlinkLock : Bool
  searched : ∀ path, writeFlag path = true → searchFlag path = true

def candidateFlags (cfg : EngineConfig) : List String :=
  [cfg.updateFlag, "/var/lib/palmanager/update_requested", "/home/steam/.update_requested"]

def setUpdateFlag (io : HostIo) (flags : String → Option String) (path : String) : String → Option String :=
  if io.writeFlag path then Function.update flags path (some "1\n") else flags

def clearUpdateFlag (io : HostIo) (flags : String → Option String) (path : String) : String → Option String :=
  match flags path with
  | none => flags
  | some _ =>
    if io.writeFlag path then
      if io.unlinkFlag path then Function.update flags path none else Function.update flags path (some "")
    else flags

/-- The flags that `_clear_update_flags` gets to. The error of an `exists` is not caught and ends it. -/
def reachedFlags (cfg : EngineConfig) (io : HostIo) : List String := (candidateFlags cfg).takeWhile io.searchFlag

def clearRaises (cfg : EngineConfig) (io : HostIo) : Bool := (candidateFlags cfg).any fun path => !io.searchFlag path

/-! ## The operations -/

def Op.apply (cfg : EngineConfig) (io : HostIo) (e : PalEngine) : Op → PalEngine
  | .clearCancelState => { e with cancelEvent := false, cancelReason := "" }
  | .setUpdateFlags => { e with updateFlags := (candidateFlags cfg).foldl (setUpdateFlag io) e.updateFlags }
  | .clearUpdateFlags => { e with updateFlags := (reachedFlags cfg io).foldl (clearUpdateFlag io) e.updateFlags }
  | .setLifecycle st => { e with lifecycleState := st }
  | .releaseLockFile => { e with lockFile := if io.unlinkLock then none else e.lockFile }
  | .applyStagedConfiguration => { e with store := Settings.applyStagedConfiguration io.ini e.store }
  | _ => e

/-- The operations of call `i`, in order, each with its entry in the trace. -/
def perform (cfg : EngineConfig) (io : HostIo) (i : Nat) (ops : List Op) (e : PalEngine) : PalEngine :=
  ops.foldl (fun e op => { op.apply cfg io e with trace := e.trace ++ [.op i op] }) e

/-! ## From one await to the next -/

/-- The `finally` block, up to its `broadcast_ws`. -/
def finallyBlock (raised : Bool) : List Op × Await :=
  ([.releaseLockFile, .setLifecycle .idle, .broadcastWs .idle], .finalWs raised)

/-- The branch of a countdown loop that returned `False`. -/
def cancelBranch (e : PalEngine) : List Op × Await :=
  ([.sendBroadcast (cancelMessage e.cancelReason)], .cancelAnnounce)

/-- An assignment to the phase and the broadcast of the lifecycle state, and its `broadcast_ws`. -/
def enterPhase (e : PalEngine) (phase : Phase) (broadcast : String) : List Op :=
  let st := { e.lifecycleState with phase := phase, currentBroadcast := broadcast }
  [.setLifecycle st, .broadcastWs st]

/-- The start of `_restart_and_await_readiness`. -/
def restartHead (e : PalEngine) : List Op × Await :=
  (enterPhase e .saving "Saving world state to disk...", .savingWs)

def tickHead (e : PalEngine) (args : RebootArgs) (remaining : Nat) : List Op × Await :=
  let st := { e.lifecycleState with remainingSeconds := remaining }
  if announces args remaining then
    let message := countdownMessage args remaining
    ([.setLifecycle { st with currentBroadcast := message }, .sendBroadcast message], .tickAnnounce remaining)
  else ([.setLifecycle st, .broadcastWs st], .tickWs remaining)

/-- The head of the loop in `_run_countdown_loop`. -/
def loopHead (e : PalEngine) (args : RebootArgs) (remaining : Nat) : List Op × Await :=
  if remaining = 0 then restartHead e
  else if e.cancelEvent then cancelBranch e
  else tickHead e args remaining

def enterSequence (args : RebootArgs) : List Op × Await :=
  let prologue := .clearCancelState :: if args.triggerUpdate then [.setUpdateFlags] else []
  if args.countdownSeconds > 0 then
    let st : LifecycleState :=
      { phase := .countdown
        remainingSeconds := args.countdownSeconds
        totalSeconds := args.countdownSeconds
        currentBroadcast := orDefault args.customMessage "Initiating countdown sequence..."
        isUpdating := args.triggerUpdate }
    (prologue ++ [.setLifecycle st, .broadcastWs st], .startWs)
  else (prologue ++ [.sendBroadcast (instantMessage args)], .instantAnnounce)

/-- What follows an await that ended normally with a value. -/
def onDone (cfg : EngineConfig) (io : HostIo) (e : PalEngine) (args : RebootArgs) (value : Bool) :
    Await → Option (List Op × Await)
  | .lifecycleLock | .finalWs _ => none
  | .startWs => some (loopHead e args args.countdownSeconds)
  | .tickAnnounce r =>
    if announcesDiscord args r then
      some ([.notifyRebootCountdown (formatCountdownString r) args.triggerUpdate args.updateVersionTag
        args.customMessage], .tickNotify r)
    else some ([.broadcastWs e.lifecycleState], .tickWs r)
  | .tickNotify r => some ([.broadcastWs e.lifecycleState], .tickWs r)
  -- `event.wait()` returns at once when the event is already set.
  | .tickWs r => some (if e.cancelEvent then cancelBranch e else ([], .tickWait r))
  | .tickWait _ => if e.cancelEvent then some (cancelBranch e) else none
  -- `TimeoutError`, whether or not the event has been set since the timeout fired.
  | .tickFired r => some (loopHead e args (r - 1))
  | .cancelAnnounce => some ([.notifyRebootCancelled
      (orDefault cfg.serverName "Palworld Dedicated Server") e.cancelReason], .cancelNotify)
  | .cancelNotify =>
    some (.clearUpdateFlags :: (finallyBlock (clearRaises cfg io)).1, (finallyBlock (clearRaises cfg io)).2)
  | .instantAnnounce => some ([.notifyRebootCountdown "immediately" args.triggerUpdate args.updateVersionTag
      args.customMessage], .instantNotify)
  | .instantNotify => some (restartHead e)
  | .savingWs => some ([.sendBroadcast "Server restarting NOW. Saving progress."], .savingAnnounce)
  | .savingAnnounce => some ([.notifyAdminBroadcast (orDefault cfg.serverName "Palworld Server")
      "Server restarting NOW. Saving progress."], .savingMirror)
  | .savingMirror => some ([.triggerSave], .saving)
  -- The result of `trigger_save` is dropped.
  | .saving => some ([.saveReturned value], .savingSleep)
  | .savingSleep =>
    some (enterPhase e .maintenance "Executing systemctl restart & backup hooks...", .maintenanceWs)
  | .maintenanceWs =>
    some (if cfg.posix then ([.applyStagedConfiguration, .restartService cfg.serviceName], .restarting)
      else ([.applyStagedConfiguration], .maintenanceSleep))
  -- A result without "success" is only logged.
  | .restarting => some ([.restartReturned value], .maintenanceSleep)
  | .maintenanceSleep =>
    some (enterPhase e .probing "Probing engine initialization and readiness...", .probingWs)
  | .probingWs => some ([], .probing 90)
  | .probing k =>
    if value then some ([.readiness true, .notifyRebootComplete (orDefault cfg.serverName "Palworld Server")],
      .completeNotify)
    else some ([.readiness false], .probingSleep k)
  | .probingSleep k => some (if k ≤ 1 then finallyBlock false else ([], .probing (k - 1)))
  | .completeNotify => some (finallyBlock false)

/-- What follows an await that raised. Only the restart call has a handler of its own. -/
def onRaise (pc : Await) (o : Outcome) : List Op × Await :=
  if pc = .restarting ∧ o = .error then ([.restartReturned false], .maintenanceSleep) else finallyBlock true

def resume (cfg : EngineConfig) (io : HostIo) (e : PalEngine) (args : RebootArgs) (pc : Await) (o : Outcome) :
    Option (List Op × Call) :=
  match pc, o with
  -- A call that gives up in the queue never entered the `try` block.
  | .lifecycleLock, .cancelled => some ([], .finished .raised)
  | .lifecycleLock, _ => none
  | .finalWs raised, .done _ => some ([], .finished (if raised then .raised else .returned))
  | .finalWs _, _ => some ([], .finished .raised)
  | pc, .done value => (onDone cfg io e args value pc).map fun r => (r.1, .running args r.2)
  | pc, o => some ((onRaise pc o).1, .running args (onRaise pc o).2)

/-! ## The steps -/

inductive Act
  | start (i : Nat) (args : RebootArgs) (now : ℚ) (io : LockIo)
  | acquire (i : Nat) (io : HostIo)
  | resume (i : Nat) (o : Outcome) (io : HostIo)
  | fire (i : Nat)
  | cancelCountdown (reason : String)

def PalEngine.goTo (e : PalEngine) (i : Nat) (call : Call) : PalEngine :=
  { e with calls := Function.update e.calls i call }

/-- Leaving the `async with` block releases the lifecycle lock. -/
def releasedBy (pc : Await) (call : Call) (lock : Option Nat) : Option Nat :=
  match pc, call with
  | .lifecycleLock, _ => lock
  | _, .finished _ => none
  | _, _ => lock

def step (cfg : EngineConfig) (e : PalEngine) : Act → Option PalEngine
  | .start i args now io =>
    if e.calls i = .absent then
      let r := checkAndAcquireLock io now e.lockFile
      some ({ e with lockFile := r.1 }.goTo i
        (match r.2 with
        | none => .running args .lifecycleLock
        | some ending => .finished ending))
    else none
  | .acquire i io =>
    match e.calls i, e.lifecycleLock with
    | .running args .lifecycleLock, none =>
      let r := enterSequence args
      some ({ perform cfg io i r.1 e with lifecycleLock := some i }.goTo i (.running args r.2))
    | _, _ => none
  | .resume i o io =>
    match e.calls i with
    | .running args pc =>
      (resume cfg io e args pc o).map fun r =>
        { perform cfg io i r.1 e with lifecycleLock := releasedBy pc r.2 e.lifecycleLock }.goTo i r.2
    | _ => none
  | .fire i =>
    match e.calls i with
    | .running args (.tickWait r) => some (e.goTo i (.running args (.tickFired r)))
    | _ => none
  | .cancelCountdown reason =>
    if e.lifecycleState.phase = .countdown then
      some { e with cancelReason := reason, cancelEvent := true, trace := e.trace ++ [.cancelReturned true] }
    else some { e with trace := e.trace ++ [.cancelReturned false] }

def Step (cfg : EngineConfig) (e : PalEngine) (a : Act) (e' : PalEngine) : Prop := step cfg e a = some e'

def Initial (e : PalEngine) : Prop := ∃ lockFile flags store, e = .new lockFile flags store

/-- The engines that any calls, in any order and with any outcomes, can lead to. -/
def Reached (cfg : EngineConfig) : PalEngine → Prop := Reachable Initial (Step cfg)

/-! ## A sample engine -/

def sampleConfig : EngineConfig := ⟨"", "palworld.service", "update_requested", true⟩

def sampleLockIo : LockIo := ⟨false, false, false⟩

def sampleHostIo : HostIo := ⟨fun _ => true, fun _ => true, fun _ => true, fun _ => true, true, fun _ _ => rfl⟩

def sampleArgs (countdownSeconds : Nat) : RebootArgs := ⟨countdownSeconds, false, "", ""⟩

def sampleEngine : PalEngine := .new none (fun _ => none) ⟨fun _ => none, none⟩

/-- Call `i` starts at once, enters its sequence and resumes with these outcomes. -/
def sampleCall (i seconds : Nat) (outcomes : List Outcome) : List Act :=
  .start i (sampleArgs seconds) 0 sampleLockIo :: .acquire i sampleHostIo ::
    outcomes.map fun o => .resume i o sampleHostIo

end Palworld.Engine

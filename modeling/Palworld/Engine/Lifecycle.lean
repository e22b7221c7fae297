import Palworld.Settings.Staging
import Mathlib.Logic.Function.Basic

/-!
# What a reboot sequence does

`execute_countdown_and_reboot`, `_run_countdown_loop` and
`_restart_and_await_readiness` of `service.py`, cut at every `await`: between two
of them the sequence performs a list of operations in one go.
-/

open Lib Palworld.Settings

namespace Palworld.Engine

/-! ## The lifecycle state -/

inductive Phase
  | idle | countdown | saving | maintenance | probing
  deriving DecidableEq, Repr

structure LifecycleState where
  phase : Phase
  remainingSeconds : Nat
  totalSeconds : Nat
  currentBroadcast : String
  isUpdating : Bool
  deriving DecidableEq, Repr

/-- The state that `_release_reboot_lock` resets to. -/
def LifecycleState.idle : LifecycleState := ⟨.idle, 0, 0, "", false⟩

structure RebootArgs where
  countdownSeconds : Nat
  triggerUpdate : Bool
  updateVersionTag : String
  customMessage : String
  deriving DecidableEq, Repr

/-- What a sequence reads of `EngineConfig`, `EnginePaths` and `os.name`. -/
structure EngineConfig where
  serverName : String
  serviceName : String
  updateFlag : String
  posix : Bool

/-! ## The texts -/

def countdownDiscordIntervals : List Nat := [600, 300, 60]

def countdownAllIntervals : List Nat := [600, 300, 180, 120, 60, 30, 15, 10, 5, 4, 3, 2, 1]

/-- Python's `s or default`. -/
def orDefault (s fallback : String) : String := if s = "" then fallback else s

def formatCountdownString (remaining : Nat) : String :=
  if remaining ≥ 60 then
    let mins := remaining / 60
    toString mins ++ " minute" ++ (if mins > 1 then "s" else "")
  else toString remaining ++ " seconds"

/-- `f"{custom_message} - {text}" if custom_message else text`. -/
def withCustomMessage (customMessage text : String) : String :=
  if customMessage = "" then text else customMessage ++ " - " ++ text

def countdownMessage (args : RebootArgs) (remaining : Nat) : String :=
  let timeStr := formatCountdownString remaining
  let targetInfo := if args.updateVersionTag = "" then "" else " to " ++ args.updateVersionTag
  withCustomMessage args.customMessage <|
    if args.triggerUpdate then "Server updating" ++ targetInfo ++ " and restarting in " ++ timeStr ++ "."
    else "Server maintenance restart in " ++ timeStr ++ "."

def instantMessage (args : RebootArgs) : String :=
  withCustomMessage args.customMessage <|
    if args.triggerUpdate then "Server updating and restarting immediately."
    else "Server restarting immediately."

def cancelMessage (reason : String) : String :=
  if reason = "" then "Server restart CANCELLED." else "Server restart CANCELLED: " ++ reason

def announces (args : RebootArgs) (remaining : Nat) : Bool :=
  remaining ∈ countdownAllIntervals || remaining == args.countdownSeconds

def announcesDiscord (args : RebootArgs) (remaining : Nat) : Bool :=
  remaining ∈ countdownDiscordIntervals || remaining == args.countdownSeconds

/-! ## Operations and awaits -/

/-- One thing that a sequence does to the engine, to the host or to the outside. -/
inductive Op
  | clearCancelState
  | setUpdateFlags
  | clearUpdateFlags
  | setLifecycle (state : LifecycleState)
  | releaseLockFile
  | applyStagedConfiguration
  | broadcastWs (state : LifecycleState)
  | sendBroadcast (message : String)
  | notifyAdminBroadcast (serverName message : String)
  | notifyRebootCountdown (timeStr : String) (isUpdating : Bool) (updateTag customMessage : String)
  | notifyRebootCancelled (serverName reason : String)
  | notifyRebootComplete (serverName : String)
  | triggerSave
  | saveReturned (ok : Bool)
  | restartService (serviceName : String)
  | restartReturned (success : Bool)
  | readiness (ready : Bool)
  deriving DecidableEq, Repr

/-- The `await` that a call is suspended at. -/
inductive Await
  | lifecycleLock                    -- `async with self._lifecycle_lock`
  | startWs                          -- the first `broadcast_ws` of a countdown
  | tickAnnounce (remaining : Nat)   -- `send_broadcast` of a tick
  | tickNotify (remaining : Nat)     -- `notify_reboot_countdown` of a tick
  | tickWs (remaining : Nat)         -- `broadcast_ws` of a tick
  | tickWait (remaining : Nat)       -- `wait_for(event.wait(), timeout=1.0)`
  | tickFired (remaining : Nat)      -- the same, its timeout fired and the coroutine not yet resumed
  | cancelAnnounce
  | cancelNotify
  | instantAnnounce
  | instantNotify
  | savingWs
  | savingAnnounce
  | savingMirror                     -- the Discord mirror inside `send_broadcast`
  | saving                           -- `trigger_save`
  | savingSleep
  | maintenanceWs
  | restarting                       -- `client.restart_service`
  | maintenanceSleep
  | probingWs
  | probing (attempts : Nat)         -- `check_readiness`, with this many attempts left
  | probingSleep (attempts : Nat)
  | completeNotify
  | finalWs (raised : Bool)          -- the `broadcast_ws` of the `finally` block
  deriving DecidableEq, Repr

/-- How an awaited operation ends. `cancelled` is the cancellation of the task. -/
inductive Outcome
  | done (value : Bool)
  | error
  | cancelled
  deriving DecidableEq, Repr

inductive Ending
  | returned
  | raised
  | runtimeError  -- "Reboot countdown sequence is already active."
  deriving DecidableEq, Repr

/-- One call of `execute_countdown_and_reboot`. -/
inductive Call
  | absent
  | running (args : RebootArgs) (pc : Await)
  | finished (ending : Ending)
  deriving DecidableEq, Repr

end Palworld.Engine

import Palworld.Supervisor.Protocol
import Mathlib.Data.List.Infix
import Mathlib.Data.Rat.Defs
import Mathlib.Algebra.Order.Ring.Rat

/-!
# The update watcher

`apply_update` of `updater.py` takes the lock file and hands the deployment to the
supervisor. The hand-over runs in a worker thread, and the lock file stays behind for
`deploy.sh` to remove.
-/

open Lib Palworld.Supervisor

namespace Palworld.Update

/-! ## Errors -/

inductive Raised
  | http (status : Nat) (detail : String)
  | osError
  | cancelled
  deriving DecidableEq

/-! ## The lock file -/

def staleLockTimeoutSeconds : ℚ := 1800

structure LockFile where
  mtime : ℚ
  deriving DecidableEq

/-- Which calls of an inspection the host lets through. The others raise `OSError`. -/
structure InspectIo where
  stat : Bool
  unlink : Bool

/-- `is_update_in_progress`. An `OSError` is logged and read as "not in progress". -/
def isUpdateInProgress (io : InspectIo) (now : ℚ) : Option LockFile → Bool × Option LockFile
  | none => (false, none)
  | some lock =>
    if !io.stat then (false, some lock)
    else if now - lock.mtime > staleLockTimeoutSeconds then (false, if io.unlink then none else some lock)
    else (true, some lock)

def unlinkLock (unlinks : Bool) (lock : Option LockFile) : Except Raised Unit × Option LockFile :=
  if lock.isNone || unlinks then (.ok (), none) else (.error .osError, lock)

structure AcquireIo where
  inspect : InspectIo
  written : Bool

/-- The block of `apply_update` under `_async_lock`. -/
def acquire (io : AcquireIo) (now : ℚ) (lock : Option LockFile) : Except Raised Unit × Option LockFile :=
  match isUpdateInProgress io.inspect now lock with
  | (true, lock) => (.error (.http 409 "An update deployment is already in progress."), lock)
  | (false, lock) =>
    if io.written then (.ok (), some ⟨now⟩)
    else (.error (.http 500 "Failed to initialize deployment concurrency lock."), lock)

theorem acquire_ok {io : AcquireIo} {now : ℚ} {lock held : Option LockFile}
    (h : acquire io now lock = (.ok (), held)) : held = some ⟨now⟩ := by
  unfold acquire at h
  split at h
  · cases h
  · split at h
    · exact (congrArg Prod.snd h).symm
    · cases h

/-! ## The deploy script -/

inductive DeployScript
  | configured  -- `self.deploy_script`
  | installed   -- `/opt/palworld-web-manager/scripts/deploy.sh`
  | repository  -- `self.repo_dir / "scripts" / "deploy.sh"`

inductive Probe
  | yes | no | osError
  deriving DecidableEq

structure ScriptFiles where
  configured : Bool
  configuredExists : Probe
  isFile : DeployScript → Probe
  path : DeployScript → String

def Probe.read : Probe → Except Raised Bool
  | .yes => .ok true
  | .no => .ok false
  | .osError => .error .osError

def resolveDeployScript (files : ScriptFiles) : Except Raised DeployScript := do
  if files.configured then
    if ← files.configuredExists.read then return .configured
  if ← (files.isFile .installed).read then return .installed
  if ← (files.isFile .repository).read then return .repository
  return .installed

/-! ## The supervisor's client -/

inductive Connect
  | connected | fileNotFound | refused | timedOut | osError
  deriving DecidableEq

inductive Reply
  | line (bytes : List UInt8)
  | closed
  | timedOut
  | failed
  deriving DecidableEq

structure Peer where
  unixSockets : Bool
  connect : Connect
  drains : Bool
  received : Bool  -- the supervisor has read the whole request line
  reply : Reply

/-- What `_send_request` raises. `other` is an exception that it does not translate. -/
inductive SendError
  | client (message : String)
  | rpc (code : Int) (message : Text)
  | other

section Client

variable [Pydantic]

/-- `"error" in response_data`. Of a number, of a truth value and of `None` it is a `TypeError`. -/
def namesError : Json → Option Bool
  | .object fields => some (field fields "error").isSome
  | .str s => some (decide (lit "error" <:+: s))
  | .array items => some (items.any fun item => item.asStr == some (lit "error"))
  | .null | .bool _ | .int _ | .float _ => none

def isDataField : Json → Option Unit
  | .null | .object _ => some ()
  | .bool _ | .int _ | .float _ | .str _ | .array _ => none

def isIdOrNull : Json → Option Unit
  | .null | .str _ => some ()
  | .bool _ | .int _ | .float _ | .array _ | .object _ => none

/-- `JSONRPCErrorResponse.model_validate(response_data).error`. -/
def validateErrorResponse (data : Json) : Option JsonRpcErrorDetail := do
  let fields ← data.asObject
  let version ← fieldOr fields "jsonrpc" (lit "2.0") Json.asStr
  isIdOrNull (← field fields "id")
  let error ← (← field fields "error").asObject
  let code ← Pydantic.int (← field error "code")
  let message ← (← field error "message").asStr
  fieldOr error "data" () isDataField
  if version = lit "2.0" then some ⟨code, message⟩ else none

/-- `JSONRPCResult.model_validate(response_data).result`. -/
def validateResult (data : Json) : Option (List (Text × Json)) := do
  let fields ← data.asObject
  let version ← fieldOr fields "jsonrpc" (lit "2.0") Json.asStr
  let _ ← (← field fields "id").asStr
  let result ← (← field fields "result").asObject
  if version = lit "2.0" then some result else none

def readResponse (line : List UInt8) : Except SendError (List (Text × Json)) :=
  match Pydantic.parseJson line with
  | none => .error .other
  | some data =>
    match namesError data with
    | none => .error .other
    | some true =>
      match validateErrorResponse data with
      | none => .error .other
      | some detail => .error (.rpc detail.code detail.message)
    | some false =>
      match validateResult data with
      | none => .error .other
      | some result => .ok result

def sendRequest (peer : Peer) : Except SendError (List (Text × Json)) :=
  if !peer.unixSockets then .error (.client "Unix domain sockets not supported on platform")
  else match peer.connect with
  | .fileNotFound => .error (.client "Supervisor socket not found")
  | .refused => .error (.client "Connection refused")
  | .timedOut => .error (.client "Timeout connecting to supervisor")
  | .osError => .error (.client "OS error connecting to supervisor")
  | .connected =>
    if !peer.drains then .error .other
    else match peer.reply with
    | .line bytes => readResponse bytes
    | .closed => .error (.client "Supervisor closed connection without responding")
    | .timedOut => .error (.client "Timeout waiting for supervisor response")
    | .failed => .error .other

def Peer.refuses (peer : Peer) : Bool :=
  match peer.reply with
  | .line bytes => (Pydantic.parseJson bytes).any fun data => namesError data == some true
  | .closed | .timedOut | .failed => false

def Peer.takes (peer : Peer) : Bool :=
  peer.unixSockets && peer.connect == .connected && peer.received && !peer.refuses

end Client

/-! ## The hand-over -/

/-- What `asyncio.get_event_loop()` finds in the worker thread. Without a loop it raises `RuntimeError`. -/
inductive ThreadLoop
  | absent | idle | running
  deriving DecidableEq

/-- The host under one hand-over. A text is that of the exception. -/
structure Host where
  posix : Bool
  files : ScriptFiles
  commandRunner : Option (Except String Unit)
  logOpens : Except String Unit   -- the path is made out, the file opened and the heading written
  logCloses : Except String Unit
  loop : ThreadLoop
  peer : Peer
  popen : Except String Unit
  cancelled : Bool                -- the request is cancelled at `await asyncio.to_thread`
  unlinks : Bool

section Dispatch

variable [Pydantic]

/-- The `try` of `_spawn_detached_deployer` on POSIX. Its handler logs every exception and goes on. -/
def dispatchViaSupervisor (loop : ThreadLoop) (peer : Peer) : Except SendError Unit :=
  match loop with
  | .absent => .error .other
  | .running => .ok ()  -- the request is a task, and what it raises goes to nobody
  | .idle => (sendRequest peer).map fun _ => ()

def spawnDetachedDeployer (host : Host) : Except String Unit := do
  host.logOpens
  if host.posix then
    match dispatchViaSupervisor host.loop host.peer with
    | .ok () => pure ()
    | .error _ => pure ()  -- "Failed to dispatch deployment via supervisor" is logged
  else host.popen
  host.logCloses

/-- The supervisor, the script's own process or the injected runner has the deployment. -/
def Host.handsOver (host : Host) : Bool :=
  match resolveDeployScript host.files, host.commandRunner with
  | .error _, _ => false
  | .ok _, some runner => runner.isOk
  | .ok script, none =>
    host.files.isFile script == .yes && host.logOpens.isOk &&
      if host.posix then host.loop != .absent && host.peer.takes else host.popen.isOk

/-- How the hand-over ends. `failed` goes on to remove the lock file and to raise. -/
inductive Ending
  | returned
  | failed (error : Raised)
  | raised (error : Raised)
  deriving DecidableEq

/-- `await asyncio.to_thread(…)` and the handler around it. -/
def awaitThread (cancelled : Bool) (detail : String) : Except String Unit → Ending
  | .ok () => if cancelled then .raised .cancelled else .returned
  | .error text => if cancelled then .raised .cancelled else .failed (.http 500 (detail ++ text))

/-- What follows the acquisition in `apply_update`, up to the removal of the lock file. -/
def Host.ending (host : Host) : Ending :=
  match resolveDeployScript host.files with
  | .error error => .raised error
  | .ok script =>
    match host.commandRunner with
    | some runner => awaitThread host.cancelled "Deployer execution failed: " runner
    | none =>
      match host.files.isFile script with
      | .osError => .raised .osError
      | .no => .failed (.http 500 ("Host deploy script not found at " ++ host.files.path script ++ "."))
      | .yes => awaitThread host.cancelled "Failed to spawn deployment subprocess: " (spawnDetachedDeployer host)

/-- What `apply_update` answers with, and the lock file that it leaves. -/
def Host.settle (host : Host) (lock : Option LockFile) : Except Raised Unit × Option LockFile :=
  match host.ending with
  | .returned => (.ok (), lock)
  | .raised error => (.error error, lock)
  | .failed error =>
    match unlinkLock host.unlinks lock with
    | (.ok (), lock) => (.error error, lock)
    | (.error unlinkError, lock) => (.error unlinkError, lock)

end Dispatch

/-! ## The request -/

def isTargetChar (c : Char) : Bool := c.isAlphanum || c == '_' || c == '.' || c == '-'

def isTarget (v : Text) : Bool := !v.isEmpty && v.all isTargetChar

/-- `re.match(r"^[a-zA-Z0-9_.-]+$", target_branch)`. The `$` also stands before a newline at the end. -/
def targetPattern (v : Text) : Bool := isTarget v || (v.getLast? == some '\n' && isTarget v.dropLast)

structure Watcher where
  branch : Text

def Watcher.target (watcher : Watcher) : Option Text → Text
  | none | some [] => watcher.branch
  | some branch => branch

structure UpdateApplyResponse where
  status : String
  message : String
  targetBranch : Text
  triggeredAt : ℚ

def applying (target : Text) (now : ℚ) : UpdateApplyResponse :=
  ⟨"applying", "Update process initiated. System service will reload momentarily.", target, now⟩

/-- `UpdateWatcher.apply_update`. `now` is the time at the lock file, `later` the time of the answer. -/
def Watcher.applyUpdate [Pydantic] (watcher : Watcher) (io : AcquireIo) (host : Host) (now later : ℚ)
    (branch : Option Text) (lock : Option LockFile) : Except Raised UpdateApplyResponse × Option LockFile :=
  if !targetPattern (watcher.target branch) then (.error (.http 400 "Invalid target branch name."), lock)
  else match acquire io now lock with
  | (.error error, lock) => (.error error, lock)
  | (.ok (), lock) =>
    match host.settle lock with
    | (.error error, lock) => (.error error, lock)
    | (.ok (), lock) => (.ok (applying (watcher.target branch) later), lock)

end Palworld.Update

import Palworld.Lib.Str
import Palworld.Supervisor.Protocol

/-!
# The supervisor's server

A connection is checked once, by the credentials of its peer. After that each line of it is
a request, which a handler answers by running at most one command of the host.
-/

open Lib

namespace Palworld.Supervisor

/-! ## Commands -/

/-- A process that was started, and what `communicate` makes of it. The outputs are decoded. -/
structure Process where
  pid : Int
  timedOut : Bool  -- `communicate` takes longer than the timeout of the request
  returncode : Int
  stdout : Text
  stderr : Text

/-- How the host answers an argument vector. `none` is an `OSError`. -/
abbrev Host := List Text → Option Process

inductive Event
  | dispatched (params : Params)
  | started (argv : List Text)
  | wrote (response : Response)

/-- A handler. It leaves events and may raise. -/
abbrev Handler := ExceptT Unit (StateM (List Event))

/-- `asyncio.create_subprocess_exec`. An argument with a NUL is a `ValueError`. -/
def createSubprocessExec (host : Host) (argv : List Text) : Handler Process :=
  if argv.any fun arg => arg.contains '\x00' then throw ()
  else
    match host argv with
    | none => throw ()
    | some process => do
      modify fun events => events ++ [.started argv]
      return process

abbrev Result := List (Text × Json)

def text (s : String) : Json := .str (lit s)

def skipped : Result := [(lit "status", text "skipped"), (lit "reason", text "non-posix")]

section Handlers

variable (posix : Bool) (host : Host)

def handleServiceRestart (params : ServiceRestartParams) : Handler Result := do
  if !posix then return skipped
  let process ← createSubprocessExec host [lit "/bin/systemctl", lit "restart", params.serviceName]
  if process.timedOut then
    return [(lit "status", text "error"), (lit "service", .str params.serviceName), (lit "reason", text "timeout")]
  if process.returncode ≠ 0 then
    return [(lit "status", text "error"), (lit "service", .str params.serviceName),
      (lit "returncode", .int process.returncode), (lit "stderr", .str (strip process.stderr))]
  return [(lit "status", text "success"), (lit "service", .str params.serviceName), (lit "action", text "restart")]

def handleServiceStatus (params : ServiceStatusParams) : Handler Result := do
  if !posix then return skipped
  let process ← createSubprocessExec host [lit "/bin/systemctl", lit "is-active", params.serviceName]
  return [(lit "service", .str params.serviceName), (lit "active_state", .str (strip process.stdout))]

def handleServiceReload (params : ServiceReloadParams) : Handler Result := do
  if !posix then return skipped
  if params.daemonReload then
    let _ ← createSubprocessExec host [lit "/bin/systemctl", lit "daemon-reload"]
    return [(lit "status", text "success"), (lit "action", text "daemon-reload")]
  return [(lit "status", text "success"), (lit "action", text "none")]

/-- The time that `shutdown` gets: `+minutes` or `now`. -/
def shutdownTime (delaySeconds : Int) : Text :=
  if delaySeconds > 0 then '+' :: Nat.toDigits 10 (max 1 (delaySeconds / 60)).toNat else lit "now"

def handleSystemReboot (params : SystemRebootParams) : Handler Result := do
  if !posix then return skipped
  let _ ← createSubprocessExec host
    [lit "/sbin/shutdown", lit "-r", shutdownTime params.delaySeconds, params.reason]
  return [(lit "status", text "scheduled"), (lit "delay_seconds", .int params.delaySeconds),
    (lit "reason", .str params.reason)]

def handleSystemDeploy (params : SystemDeployParams) : Handler Result := do
  if !posix then return skipped
  let process ← createSubprocessExec host [lit "/var/lib/palmanager/deploy-runner.sh", params.targetBranch]
  return [(lit "status", text "dispatched"), (lit "target_branch", .str params.targetBranch),
    (lit "pid", .int process.pid)]

/-- `METHOD_DISPATCH[method](params)`. -/
def methodDispatch : Params → Handler Result
  | .serviceRestart params => handleServiceRestart posix host params
  | .serviceStatus params => handleServiceStatus posix host params
  | .serviceReload params => handleServiceReload posix host params
  | .systemReboot params => handleSystemReboot posix host params
  | .systemDeploy params => handleSystemDeploy posix host params

end Handlers

/-! ## One line -/

def lineTooLong : Response := .error none ⟨-32600, lit "Invalid Request: line too long"⟩

def invalidRequest : Response := .error none ⟨-32600, lit "Invalid Request"⟩

def internalError (id : Text) : Response := .error (some id) ⟨-32603, lit "Internal Error"⟩

section Serve

variable [Pydantic] (posix : Bool)

/-- The request of a line and its parameters, when all checks pass. -/
def requestOf (line : List UInt8) : Option (JsonRpcRequest × Params) :=
  if line.length > 65536 then none
  else do
    let request ← JsonRpcRequest.validateJson line
    let params ← paramModels request.method request.params
    return (request, params)

/-- The body of the `try` around a dispatch. A `drain` that fails there is an `Internal Error` too. -/
def serveRequest (host : Host) (drains : Bool) (request : JsonRpcRequest) (params : Params) : List Event :=
  let (result, events) := (methodDispatch posix host params).run.run [.dispatched params]
  match result with
  | .error () => events ++ [.wrote (internalError request.id)]
  | .ok result =>
    if drains then events ++ [.wrote (.result request.id result)]
    else events ++ [.wrote (.result request.id result), .wrote (internalError request.id)]

def serveLine (host : Host) (drains : Bool) (line : List UInt8) : List Event :=
  if line.length > 65536 then [.wrote lineTooLong]
  else
    match JsonRpcRequest.validateJson line with
    | none => [.wrote invalidRequest]
    | some request =>
      match paramModels request.method request.params with
      | none => [.wrote (internalError request.id)]
      | some params => serveRequest posix host drains request params

/-! ## A connection -/

/-- What `reader.readline` does. A line without bytes is the end of the stream. -/
inductive Readline
  | line (bytes : List UInt8)
  | overrun  -- the `ValueError` of a line over the limit of the stream

structure Turn where
  read : Readline
  host : Host
  drains : Bool  -- the client still takes what is written

/-- The `while` loop of `_handle_client`. -/
def serve : List Turn → List Event
  | [] => []
  | turn :: rest =>
    match turn.read with
    | .overrun => []
    | .line [] => []
    | .line (byte :: bytes) =>
      serveLine posix turn.host turn.drains (byte :: bytes) ++ if turn.drains then serve rest else []

/-- How the kernel answers `SO_PEERCRED`. -/
inductive PeerQuery
  | credentials (pid uid gid : Int)
  | osError

inductive PeerError
  | permissionError
  | osError

/-- `get_peer_credentials`. It makes an `OSError` of every failure. -/
def getPeerCredentials (query : PeerQuery) : Except PeerError (Int × Int × Int) :=
  if !posix then .error .osError
  else
    match query with
    | .credentials pid uid gid => .ok (pid, uid, gid)
    | .osError => .error .osError

def validatePeerCredentials (query : PeerQuery) (allowedUid : Int) : Except PeerError (Int × Int × Int) := do
  let (pid, uid, gid) ← getPeerCredentials posix query
  if uid ∉ [allowedUid, 0] then throw .permissionError
  return (pid, uid, gid)

def permissionDenied : Response := .error none ⟨-32000, lit "Permission denied"⟩

def handleClient (allowedUid : Int) (query : PeerQuery) (turns : List Turn) : List Event :=
  match validatePeerCredentials posix query allowedUid with
  | .error .permissionError => [.wrote permissionDenied]
  | .error .osError => serve posix turns  -- "Skipping SO_PEERCRED auth on non-POSIX platform"
  | .ok _ => serve posix turns

end Serve

/-! ## What a handler starts -/

def spawn (host : Host) (argv : List Text) : Option Process :=
  if argv.any fun arg => arg.contains '\x00' then none else host argv

def Params.argv : Params → Option (List Text)
  | .serviceRestart params => some [lit "/bin/systemctl", lit "restart", params.serviceName]
  | .serviceStatus params => some [lit "/bin/systemctl", lit "is-active", params.serviceName]
  | .serviceReload params => if params.daemonReload then some [lit "/bin/systemctl", lit "daemon-reload"] else none
  | .systemReboot params => some [lit "/sbin/shutdown", lit "-r", shutdownTime params.delaySeconds, params.reason]
  | .systemDeploy params => some [lit "/var/lib/palmanager/deploy-runner.sh", params.targetBranch]

/-- The one command that a request starts, if any. -/
def Params.child (posix : Bool) (host : Host) (params : Params) : Option (List Text) :=
  if posix then params.argv.filter fun argv => (spawn host argv).isSome else none

def Leaves (handler : Handler Result) (child : Option (List Text)) : Prop :=
  ∀ events, (handler.run.run events).2 = events ++ child.toList.map .started

variable {posix : Bool} {host : Host}

theorem leaves_pure (result : Result) : Leaves (pure result) none := by
  intro events
  exact (List.append_nil events).symm

theorem createSubprocessExec_run (argv : List Text) (events : List Event) :
    (createSubprocessExec host argv).run.run events =
      match spawn host argv with
      | none => (.error (), events)
      | some process => (.ok process, events ++ [.started argv]) := by
  unfold createSubprocessExec spawn
  split
  · rfl
  · cases host argv with
    | none => rfl
    | some process => rfl

theorem handler_bind {α β : Type} (x : Handler α) (f : α → Handler β) (events : List Event) :
    (x >>= f).run.run events =
      match x.run.run events with
      | (.ok a, next) => (f a).run.run next
      | (.error err, next) => (.error err, next) := by
  simp only [bind, ExceptT.bind, ExceptT.mk, ExceptT.run, StateT.bind, StateT.run, ExceptT.bindCont]
  rcases x events with ⟨result, next⟩
  cases result <;> rfl

theorem leaves_exec {argv : List Text} {rest : Process → Handler Result} (hrest : ∀ process, Leaves (rest process) none) :
    Leaves (createSubprocessExec host argv >>= rest) ((some argv).filter fun argv => (spawn host argv).isSome) := by
  intro events
  rw [handler_bind, createSubprocessExec_run]
  cases hspawn : spawn host argv with
  | none => simp [Option.filter, hspawn]
  | some process =>
    have hafter := hrest process (events ++ [.started argv])
    simpa [Option.filter, hspawn] using hafter

theorem methodDispatch_leaves (params : Params) : Leaves (methodDispatch posix host params) (params.child posix host) := by
  cases posix with
  | false => cases params <;> exact leaves_pure skipped
  | true =>
    cases params with
    | serviceRestart params =>
      refine leaves_exec fun process => ?_
      split
      · exact leaves_pure _
      · split
        · exact leaves_pure _
        · exact leaves_pure _
    | serviceStatus params => exact leaves_exec fun process => leaves_pure _
    | serviceReload params =>
      obtain ⟨reload⟩ := params
      cases reload with
      | true => exact leaves_exec fun process => leaves_pure _
      | false => exact leaves_pure _
    | systemReboot params => exact leaves_exec fun process => leaves_pure _
    | systemDeploy params => exact leaves_exec fun process => leaves_pure _

/-! ## One line and one host -/

/-- A validator that has seen one line only. -/
@[reducible]
def pydanticOf (line : List UInt8) (document : Json) : Pydantic where
  parseJson bytes := if bytes = line then some document else none
  int
    | .int n => some n
    | _ => none
  bool
    | .bool b => some b
    | _ => none
  int_int _ := rfl
  bool_bool _ := rfl

def lineBytes (s : String) : List UInt8 := s.toByteArray.data.toList

def willingHost : Host := fun _ => some ⟨1, false, 0, [], []⟩

end Palworld.Supervisor

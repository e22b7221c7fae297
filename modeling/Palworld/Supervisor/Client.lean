import Palworld.Supervisor.Commands
import Palworld.Supervisor.Framing
import Palworld.Supervisor.Peer

/-!
# The supervisor's client

A call opens a connection of its own, sends one line and takes the first line that comes back. Either direction may be
cut off at any byte, and the client may have gone before the command is done.
-/

open Lib

namespace Palworld.Supervisor

/-! ## JSON of the two sides -/

/-- `model_dump_json().encode()`, and the `json.loads` of the client, where `none` is a `JSONDecodeError`. -/
class Wire extends Pydantic where
  dump : List (Text × Json) → List UInt8
  loads : List UInt8 → Option Json

def requestDocument (id method : Text) (params : List (Text × Json)) : List (Text × Json) :=
  [(lit "jsonrpc", text "2.0"), (lit "id", .str id), (lit "method", .str method), (lit "params", .object params)]

def Response.document : Response → List (Text × Json)
  | .result id fields => [(lit "jsonrpc", text "2.0"), (lit "id", .str id), (lit "result", .object fields)]
  | .error id detail =>
    [(lit "jsonrpc", text "2.0"), (lit "id", (id.map Json.str).getD .null),
      (lit "error", .object [(lit "code", .int detail.code), (lit "message", .str detail.message), (lit "data", .null)])]

/-! ## Calls -/

inductive Call
  | restartService (serviceName : Text) (timeoutSeconds : Int)
  | getServiceStatus (serviceName : Text)
  | reloadSystemd (daemonReload : Bool)
  | scheduleReboot (delaySeconds : Int) (reason : Text)
  | triggerDeploy (targetBranch : Text)

def Call.method : Call → Method
  | .restartService .. => .serviceRestart
  | .getServiceStatus .. => .serviceStatus
  | .reloadSystemd .. => .serviceReload
  | .scheduleReboot .. => .systemReboot
  | .triggerDeploy .. => .systemDeploy

def Call.params : Call → List (Text × Json)
  | .restartService serviceName timeoutSeconds =>
    [(lit "service_name", .str serviceName), (lit "timeout_seconds", .int timeoutSeconds)]
  | .getServiceStatus serviceName => [(lit "service_name", .str serviceName)]
  | .reloadSystemd daemonReload => [(lit "daemon_reload", .bool daemonReload)]
  | .scheduleReboot delaySeconds reason =>
    (lit "delay_seconds", .int delaySeconds) :: if reason = [] then [] else [(lit "reason", .str reason)]
  | .triggerDeploy targetBranch => [(lit "target_branch", .str targetBranch)]

/-- The server has a reason of its own for a call that leaves it out. -/
def reasonOr (reason : Text) : Text := if reason = [] then defaultReason else reason

/-- The parameters that a call is to run with. They have passed the checks of the server. -/
def Call.Asks : Call → Params → Prop
  | .restartService serviceName timeoutSeconds, .serviceRestart params =>
    params.serviceName = serviceName ∧ params.timeoutSeconds = timeoutSeconds
  | .getServiceStatus serviceName, .serviceStatus params => params.serviceName = serviceName
  | .reloadSystemd daemonReload, .serviceReload params => params.daemonReload = daemonReload
  | .scheduleReboot delaySeconds reason, .systemReboot params =>
    params.delaySeconds = delaySeconds ∧ params.reason = reasonOr reason
  | .triggerDeploy targetBranch, .systemDeploy params => params.targetBranch = targetBranch
  | _, _ => False

/-! ## The client -/

structure SupervisorClient where
  socketPath : Text
  timeout : Text    -- as an f-string shows it

inductive Connecting
  | connected
  | unsupported (platform : Text)
  | fileNotFound
  | connectionRefused
  | timeout
  | osError (exc : Text)

inductive Outcome
  | result (result : Result)
  | rpcError (code : Int) (message : Text) (data : Option (List (Text × Json)))  -- `SupervisorRPCError`
  | clientError (message : Text)                                                  -- `SupervisorClientError`
  | raised                                                                        -- an error that is not caught

/-- `"error" in data`. `none` is a `TypeError`. -/
def Json.hasError : Json → Option Bool
  | .object fields => some (field fields "error").isSome
  | .array items => some (items.any fun item => item.asStr = some (lit "error"))
  | .str s => some (decide (lit "error" <:+: s))
  | _ => none

/-- A field that may be `None`. -/
def orNone {T : Type} (read : Json → Option T) : Json → Option (Option T)
  | .null => some none
  | value => (read value).map some

section Read

variable [Pydantic]

/-- `JSONRPCErrorResponse.model_validate`, and the detail that is raised. -/
def validateError (data : Json) : Option (Int × Text × Option (List (Text × Json))) := do
  let fields ← data.asObject
  let version ← fieldOr fields "jsonrpc" (lit "2.0") Json.asStr
  let _ ← orNone Json.asStr (← field fields "id")
  let error ← (← field fields "error").asObject
  let code ← Pydantic.int (← field error "code")
  let message ← (← field error "message").asStr
  let detail ← fieldOr error "data" none (orNone Json.asObject)
  if version = lit "2.0" then some (code, message, detail) else none

/-- `JSONRPCResult.model_validate`. -/
def validateResult (data : Json) : Option Result := do
  let fields ← data.asObject
  let version ← fieldOr fields "jsonrpc" (lit "2.0") Json.asStr
  let _ ← (← field fields "id").asStr
  let result ← (← field fields "result").asObject
  if version = lit "2.0" then some result else none

/-- What the client makes of `response_data`. -/
def readReply (data : Json) : Outcome :=
  match data.hasError with
  | none => .raised
  | some true =>
    match validateError data with
    | none => .raised
    | some (code, message, detail) => .rpcError code message detail
  | some false =>
    match validateResult data with
    | none => .raised
    | some result => .result result

end Read

/-! ## One call -/

/-- How a call goes: what reaches the server and what comes back, in chunks, before either stream ends. -/
structure Exchange where
  requestId : Text
  id_length : requestId.length = 12
  connecting : Connecting
  drained : Bool                   -- `writer.drain` of the client raises nothing
  sent : List (List UInt8)
  query : PeerQuery
  host : Host
  drains : Bool                    -- and that of the server
  timely : Bool                    -- `readline` returns before the timeout
  received : List (List UInt8)

def Connecting.isConnected : Connecting → Bool
  | .connected => true
  | _ => false

section Exchange

variable [Wire]

def encode (document : List (Text × Json)) : List UInt8 := Wire.dump document ++ [newline]

def Exchange.request (x : Exchange) (call : Call) : List (Text × Json) := requestDocument x.requestId call.method.name call.params

/-- The server's side of the connection. -/
def Exchange.served (x : Exchange) (posix : Bool) (allowedUid : Int) : List Event :=
  if x.connecting.isConnected then
    handleClient posix allowedUid x.query ((lineReads newline streamLimit [] x.sent).map fun read => ⟨.of read, x.host, x.drains⟩)
  else []

def written (events : List Event) : List UInt8 := (responses events).flatMap fun response => encode response.document

/-- The client, once the connection is open and the answer is in time. -/
def takeReply (received : List (List UInt8)) : Outcome :=
  match (readline newline streamLimit [] received).1 with
  | .overrun => .raised
  | .line [] => .clientError (lit "Supervisor closed connection without responding")
  | .line (byte :: bytes) =>
    match Wire.loads (byte :: bytes) with
    | none => .raised
    | some data => readReply data

/-- `_send_request`. -/
def SupervisorClient.sendRequest (client : SupervisorClient) (x : Exchange) : Outcome :=
  match x.connecting with
  | .unsupported platform => .clientError (lit "Unix domain sockets not supported on platform " ++ platform)
  | .fileNotFound =>
    .clientError (lit "Supervisor socket not found at " ++ client.socketPath ++ lit ". Is palworld-supervisor running?")
  | .connectionRefused => .clientError (lit "Connection refused at " ++ client.socketPath ++ lit ". Is palworld-supervisor running?")
  | .timeout =>
    .clientError (lit "Timeout connecting to supervisor at " ++ client.socketPath ++ lit " after " ++ client.timeout ++ lit "s")
  | .osError exc => .clientError (lit "OS error connecting to supervisor: " ++ exc)
  | .connected =>
    if !x.drained then .raised
    else if !x.timely then .clientError (lit "Timeout waiting for supervisor response after " ++ client.timeout ++ lit "s")
    else takeReply x.received

/-- A document that goes over the wire as one line. The parser reads it back from its text, and nothing from a part of it. -/
structure Carried (parse : List UInt8 → Option Json) (document : List (Text × Json)) : Prop where
  one_line : newline ∉ Wire.dump document
  reads_back : ∀ bytes, bytes <+: encode document →
    parse bytes = if (Wire.dump document).length ≤ bytes.length then some (.object document) else none

/-- The bytes that arrive are the beginning of those that were written, and what was written can be read. -/
structure Exchange.Sound (x : Exchange) (call : Call) (posix : Bool) (allowedUid : Int) : Prop where
  sent : x.sent.flatten <+: encode (x.request call)
  received : x.received.flatten <+: written (x.served posix allowedUid)
  request : Carried Pydantic.parseJson (x.request call)
  replies : ∀ response ∈ responses (x.served posix allowedUid), Carried Wire.loads response.document

end Exchange

/-! ## What the server makes of a call -/

variable {posix : Bool} {host : Host} {drains : Bool} {allowedUid : Int} {call : Call} {x : Exchange} {client : SupervisorClient}
  {id : Text} {params : Params} {response : Response} {events : List Event} {bytes : List UInt8}

theorem serviceRestart_validate [Pydantic] (serviceName : Text) (timeoutSeconds : Int) :
    ServiceRestartParams.validate (Call.restartService serviceName timeoutSeconds).params =
      if h : serviceName ∈ allowedServices ∧ 5 ≤ timeoutSeconds ∧ timeoutSeconds ≤ 120 then
        some ⟨serviceName, timeoutSeconds, h.1, h.2.1, h.2.2⟩
      else none := by
  have htimeout : fieldOr (Call.restartService serviceName timeoutSeconds).params "timeout_seconds" 30 Pydantic.int =
      some timeoutSeconds := Pydantic.int_int timeoutSeconds
  unfold ServiceRestartParams.validate
  rw [htimeout]
  rfl

theorem systemReboot_validate [Pydantic] (delaySeconds : Int) (reason : Text) :
    SystemRebootParams.validate (Call.scheduleReboot delaySeconds reason).params =
      if h : 0 ≤ delaySeconds ∧ delaySeconds ≤ 3600 ∧ (reasonOr reason).length ≤ 256 then
        some ⟨delaySeconds, reasonOr reason, h.1, h.2.1, h.2.2⟩
      else none := by
  have hdelay : fieldOr (Call.scheduleReboot delaySeconds reason).params "delay_seconds" 0 Pydantic.int = some delaySeconds := by
    cases reason <;> exact Pydantic.int_int delaySeconds
  have hreason : fieldOr (Call.scheduleReboot delaySeconds reason).params "reason" defaultReason Json.asStr =
      some (reasonOr reason) := by
    cases reason <;> rfl
  unfold SystemRebootParams.validate
  rw [hdelay, hreason]
  rfl

theorem asks_of_paramModels [Pydantic] (h : paramModels call.method call.params = some params) : call.Asks params := by
  cases call with
  | restartService serviceName timeoutSeconds =>
    obtain ⟨checked, hchecked, rfl⟩ := Option.map_eq_some_iff.mp h
    rw [serviceRestart_validate] at hchecked
    split at hchecked
    · cases hchecked
      exact ⟨rfl, rfl⟩
    · cases hchecked
  | getServiceStatus serviceName =>
    obtain ⟨checked, hchecked, rfl⟩ := Option.map_eq_some_iff.mp h
    change (if h : serviceName ∈ allowedServices then some ⟨serviceName, h⟩ else none) = some checked at hchecked
    split at hchecked
    · cases hchecked
      rfl
    · cases hchecked
  | reloadSystemd daemonReload =>
    obtain ⟨checked, hchecked, rfl⟩ := Option.map_eq_some_iff.mp h
    change (Pydantic.bool (.bool daemonReload)).bind (fun reload => some ⟨reload⟩) = some checked at hchecked
    rw [Pydantic.bool_bool] at hchecked
    cases hchecked
    rfl
  | scheduleReboot delaySeconds reason =>
    obtain ⟨checked, hchecked, rfl⟩ := Option.map_eq_some_iff.mp h
    rw [systemReboot_validate] at hchecked
    split at hchecked
    · cases hchecked
      exact ⟨rfl, rfl⟩
    · cases hchecked
  | triggerDeploy targetBranch =>
    obtain ⟨checked, hchecked, rfl⟩ := Option.map_eq_some_iff.mp h
    change (if h : targetBranch.length ≤ 128 ∧ branchNamePattern targetBranch = true then some ⟨targetBranch, h.1, h.2⟩ else none) =
      some checked at hchecked
    split at hchecked
    · cases hchecked
      rfl
    · cases hchecked

theorem paramModels_of_asks [Pydantic] (h : call.Asks params) : paramModels call.method call.params = some params := by
  cases params with
  | serviceRestart params =>
    cases call with
    | restartService =>
      obtain ⟨rfl, rfl⟩ := h
      refine Option.map_eq_some_iff.mpr ⟨params, ?_, rfl⟩
      rw [serviceRestart_validate, dif_pos ⟨params.service_allowed, params.timeout_ge, params.timeout_le⟩]
    | _ => cases h
  | serviceStatus params =>
    cases call with
    | getServiceStatus =>
      obtain rfl := h
      exact congrArg (Option.map Params.serviceStatus) (dif_pos params.service_allowed)
    | _ => cases h
  | serviceReload params =>
    cases call with
    | reloadSystemd =>
      obtain rfl := h
      refine Option.map_eq_some_iff.mpr ⟨params, ?_, rfl⟩
      change (Pydantic.bool (.bool params.daemonReload)).bind (fun reload => some ⟨reload⟩) = some params
      rw [Pydantic.bool_bool]
      rfl
    | _ => cases h
  | systemReboot params =>
    cases call with
    | scheduleReboot delaySeconds reason =>
      obtain ⟨rfl, hreason⟩ := h
      refine Option.map_eq_some_iff.mpr ⟨params, ?_, rfl⟩
      rw [systemReboot_validate]
      simp only [← hreason]
      rw [dif_pos ⟨params.delay_ge, params.delay_le, params.reason_length⟩]
    | _ => cases h
  | systemDeploy params =>
    cases call with
    | triggerDeploy =>
      obtain rfl := h
      exact congrArg (Option.map Params.systemDeploy) (dif_pos ⟨params.branch_length, params.branch_pattern⟩)
    | _ => cases h

/-- A request of the client is taken for what it is. -/
theorem validateJson_request [Pydantic] (hid : id.length ≤ 64)
    (hparse : Pydantic.parseJson bytes = some (.object (requestDocument id call.method.name call.params))) :
    JsonRpcRequest.validateJson bytes = some ⟨id, call.method, call.params, hid⟩ := by
  have hmethod : validateMethod call.method.name = some call.method := by cases call <;> rfl
  unfold JsonRpcRequest.validateJson
  rw [hparse]
  change (validateMethod call.method.name).bind (fun method =>
    if h : lit "2.0" = lit "2.0" ∧ id.length ≤ 64 then some (JsonRpcRequest.mk id method call.params h.2) else none) = _
  rw [hmethod]
  exact dif_pos ⟨rfl, hid⟩

/-- The requests dispatched. -/
def dispatchedBy (events : List Event) : List Params :=
  events.filterMap fun event =>
    match event with
    | .dispatched params => some params
    | .started _ | .wrote _ => none

/-- What the handler of these parameters comes to. -/
def handled (posix : Bool) (host : Host) (params : Params) : Except Unit Result :=
  ((methodDispatch posix host params).run.run [.dispatched params]).1

theorem Exchange.id_le (x : Exchange) : x.requestId.length ≤ 64 := by
  rw [x.id_length]
  omega

/-- What the server may do on the connection of a call. -/
inductive ServedAs (call : Call) (posix : Bool) (host : Host) (drains : Bool) (id : Text) : List Event → Prop
  | nothing : ServedAs call posix host drains id []
  | denied : ServedAs call posix host drains id [.wrote permissionDenied]
  | tooLong : ServedAs call posix host drains id [.wrote lineTooLong]
  | invalid : ServedAs call posix host drains id [.wrote invalidRequest]
  | unchecked (hasks : ∀ params, ¬ call.Asks params) : ServedAs call posix host drains id [.wrote (internalError id)]
  | dispatched {request : JsonRpcRequest} {params : Params} (hid : request.id = id) (hasks : call.Asks params) :
    ServedAs call posix host drains id (serveRequest posix host drains request params)

section

variable [Wire]

theorem serveLine_whole (hparse : Pydantic.parseJson bytes = some (.object (x.request call))) (hlength : bytes.length ≤ 65536) :
    serveLine posix host drains bytes =
      match paramModels call.method call.params with
      | none => [.wrote (internalError x.requestId)]
      | some params => serveRequest posix host drains ⟨x.requestId, call.method, call.params, x.id_le⟩ params := by
  unfold serveLine
  rewrite [if_neg (by omega), validateJson_request x.id_le hparse]
  rfl

theorem servedAs_serveLine (hcarried : Carried Pydantic.parseJson (x.request call)) (hbytes : bytes <+: encode (x.request call)) :
    ServedAs call posix host drains x.requestId (serveLine posix host drains bytes) := by
  rcases Nat.lt_or_ge 65536 bytes.length with hlength | hlength
  · unfold serveLine
    rw [if_pos hlength]
    exact .tooLong
  · have hparse := hcarried.reads_back bytes hbytes
    split at hparse
    · rw [serveLine_whole hparse hlength]
      split
      · rename_i hnone
        exact .unchecked fun params hasks => by simp [paramModels_of_asks hasks] at hnone
      · rename_i hsome
        exact .dispatched rfl (asks_of_paramModels hsome)
    · unfold serveLine JsonRpcRequest.validateJson
      rw [if_neg (by omega), hparse]
      exact .invalid

theorem handleClient_cases (query : PeerQuery) (turns : List Turn) :
    handleClient posix allowedUid query turns = [.wrote permissionDenied] ∨
      handleClient posix allowedUid query turns = serve posix turns := by
  unfold handleClient
  split
  · exact .inl rfl
  · exact .inr rfl
  · exact .inr rfl

theorem servedAs_served (hsound : x.Sound call posix allowedUid) :
    ServedAs call posix x.host x.drains x.requestId (x.served posix allowedUid) := by
  unfold Exchange.served
  split
  · rcases handleClient_cases x.query _ with hdenied | hserve
    · rw [hdenied]
      exact .denied
    · rw [hserve]
      rcases lineReads_cut_off hsound.request.one_line hsound.sent with hover | hnone | ⟨byte, bytes, hbytes, hread⟩
      · rw [hover]
        exact .nothing
      · rw [hnone]
        exact .nothing
      · have hone : serve posix ([LineRead.line (byte :: bytes), .line []].map fun read => ⟨.of read, x.host, x.drains⟩) =
            serveLine posix x.host x.drains (byte :: bytes) := by
          change serveLine posix x.host x.drains (byte :: bytes) ++ (if x.drains then [] else []) = _
          rw [ite_self, List.append_nil]
        rw [hread, hone]
        exact servedAs_serveLine hsound.request hbytes
  · exact .nothing

/-! ## What the client makes of the answer -/

theorem readReply_document (response : Response) :
    readReply (.object response.document) =
      match response with
      | .result _ result => .result result
      | .error _ detail => .rpcError detail.code detail.message none := by
  cases response with
  | result id result => rfl
  | error id detail =>
    have hvalidate : validateError (.object (Response.error id detail).document) =
        (Pydantic.int (.int detail.code)).bind fun code => some (code, detail.message, none) := by
      cases id <;> rfl
    rw [Pydantic.int_int] at hvalidate
    change (match validateError (.object (Response.error id detail).document) with
      | none => Outcome.raised
      | some (code, message, detail) => Outcome.rpcError code message detail) = _
    rw [hvalidate]
    rfl

theorem sendRequest_cases (client : SupervisorClient) (x : Exchange) :
    (∃ message, client.sendRequest x = .clientError message) ∨ client.sendRequest x = .raised ∨
      client.sendRequest x = takeReply x.received := by
  unfold SupervisorClient.sendRequest
  split
  · exact .inl ⟨_, rfl⟩
  · exact .inl ⟨_, rfl⟩
  · exact .inl ⟨_, rfl⟩
  · exact .inl ⟨_, rfl⟩
  · exact .inl ⟨_, rfl⟩
  · split_ifs
    · exact .inr (.inl rfl)
    · exact .inl ⟨_, rfl⟩
    · exact .inr (.inr rfl)

/-- The client takes the first answer, whole, or none. -/
theorem takeReply_cases {received : List (List UInt8)} {rest : List UInt8} (hcarried : Carried Wire.loads response.document)
    (h : received.flatten <+: encode response.document ++ rest) :
    takeReply received = readReply (.object response.document) ∨ takeReply received = .raised ∨
      ∃ message, takeReply received = .clientError message := by
  have hcut : received.flatten <+: Wire.dump response.document ++ newline :: rest := by
    simpa [encode] using h
  unfold takeReply
  rcases @readline_cut_off _ _ newline streamLimit _ _ _ hcarried.one_line hcut with hover | ⟨bytes, hread, hbytes⟩
  · rw [hover]
    exact .inr (.inl rfl)
  · rw [hread]
    cases bytes with
    | nil => exact .inr (.inr ⟨_, rfl⟩)
    | cons byte bytes =>
      dsimp only
      rw [hcarried.reads_back _ hbytes]
      split
      · rename_i hnone
        exact .inr (.inl rfl)
      · rename_i hsome
        split at hsome
        · cases hsome
          exact .inl rfl
        · cases hsome

end

/-! ## Handlers that raise -/

def Returns (handler : Handler Result) : Prop := ∀ events, ∃ result, (handler.run.run events).1 = .ok result

theorem returns_pure (result : Result) : Returns (pure result) := fun _ => ⟨result, rfl⟩

/-- Only the start of the process may raise. -/
theorem raises_exec {argv : List Text} {rest : Process → Handler Result} (hrest : ∀ process, Returns (rest process))
    (h : ((createSubprocessExec host argv >>= rest).run.run events).1 = .error ()) : spawn host argv = none := by
  rw [handler_bind, createSubprocessExec_run] at h
  cases hspawn : spawn host argv with
  | none => rfl
  | some process =>
    obtain ⟨result, hresult⟩ := hrest process (events ++ [.started argv])
    simp [hspawn, hresult] at h

theorem child_of_spawn {argv : List Text} (hargv : params.argv = some argv) (h : spawn host argv = none) :
    params.child posix host = none := by
  unfold Params.child
  simp [hargv, h, Option.filter]

theorem raises_starts_nothing (h : handled posix host params = .error ()) : params.child posix host = none := by
  cases posix with
  | false => rfl
  | true =>
    cases params with
    | serviceRestart params =>
      refine child_of_spawn rfl (raises_exec (fun process => ?_) h)
      split
      · exact returns_pure _
      · split
        · exact returns_pure _
        · exact returns_pure _
    | serviceStatus params => exact child_of_spawn rfl (raises_exec (fun _ => returns_pure _) h)
    | serviceReload params =>
      obtain ⟨reload⟩ := params
      cases reload with
      | true => exact child_of_spawn rfl (raises_exec (fun _ => returns_pure _) h)
      | false => rfl
    | systemReboot params => exact child_of_spawn rfl (raises_exec (fun _ => returns_pure _) h)
    | systemDeploy params => exact child_of_spawn rfl (raises_exec (fun _ => returns_pure _) h)

/-! ## The events of one request -/

theorem dispatchedBy_append (a b : List Event) : dispatchedBy (a ++ b) = dispatchedBy a ++ dispatchedBy b := List.filterMap_append ..

theorem dispatchedBy_started (argvs : List (List Text)) : dispatchedBy (argvs.map .started) = [] := by
  unfold dispatchedBy
  simp

/-- A dispatch leaves its parameters and its process, then the answer of its handler, and behind that another if the client
has gone. -/
theorem serveRequest_spec (request : JsonRpcRequest) (params : Params) :
    ∃ more, responses (serveRequest posix host drains request params) =
        (match handled posix host params with
          | .ok result => .result request.id result
          | .error () => internalError request.id) :: more ∧
      dispatchedBy (serveRequest posix host drains request params) = [params] := by
  have hevents := @methodDispatch_leaves posix host params [.dispatched params]
  unfold handled serveRequest
  rcases hrun : (methodDispatch posix host params).run.run [.dispatched params] with ⟨result, events⟩
  rw [hrun] at hevents
  obtain rfl : events = _ := hevents
  cases result with
  | error =>
    refine ⟨[], ?_, ?_⟩
    · simp only [responses_append, responses_started]
      rfl
    · simp only [dispatchedBy_append, dispatchedBy_started]
      rfl
  | ok result =>
    cases drains with
    | true =>
      refine ⟨[], ?_, ?_⟩
      · simp only [if_true, responses_append, responses_started]
        rfl
      · simp only [if_true, dispatchedBy_append, dispatchedBy_started]
        rfl
    | false =>
      refine ⟨[internalError request.id], ?_, ?_⟩
      · simp only [Bool.false_eq_true, if_false, responses_append, responses_started]
        rfl
      · simp only [Bool.false_eq_true, if_false, dispatchedBy_append, dispatchedBy_started]
        rfl

/-! ## A call and its answer -/

/-- The command of the call, once or not at all. -/
def AtMostOnce (call : Call) (posix : Bool) (host : Host) (events : List Event) : Prop :=
  dispatchedBy events = [] ∧ startedBy events = [] ∨
    ∃ params, call.Asks params ∧ dispatchedBy events = [params] ∧ startedBy events = (params.child posix host).toList

/-- What an outcome says about what was done. -/
inductive Justified (call : Call) (posix : Bool) (host : Host) (events : List Event) : Outcome → Prop
  | result {params : Params} {result : Result} (hasks : call.Asks params) (hdispatched : dispatchedBy events = [params])
    (hhandled : handled posix host params = .ok result) : Justified call posix host events (.result result)
  | rpcError {code : Int} {message : Text}
    (hcode : code = -32603 → (∀ params, ¬ call.Asks params) ∨
      ∃ params, call.Asks params ∧ dispatchedBy events = [params] ∧ handled posix host params = .error ())
    (hother : code ≠ -32603 → dispatchedBy events = [])
    (hnothing : startedBy events = []) : Justified call posix host events (.rpcError code message none)
  | clientError {message : Text} : Justified call posix host events (.clientError message)
  | raised : Justified call posix host events .raised

/-- What the first answer says, once the client has it. -/
def Response.outcome : Response → Outcome
  | .result _ fields => .result fields
  | .error _ detail => .rpcError detail.code detail.message none

theorem ServedAs.atMostOnce (h : ServedAs call posix host drains id events) : AtMostOnce call posix host events := by
  cases h with
  | nothing | denied | tooLong | invalid | unchecked => exact .inl ⟨rfl, rfl⟩
  | @dispatched request params hid hasks =>
    obtain ⟨more, -, hdispatched⟩ := @serveRequest_spec posix host drains request params
    exact .inr ⟨params, hasks, hdispatched, startedBy_serveRequest drains request params⟩

theorem ServedAs.justified (h : ServedAs call posix host drains id events) :
    responses events = [] ∨
      ∃ response more, responses events = response :: more ∧ Justified call posix host events response.outcome := by
  cases h with
  | nothing => exact .inl rfl
  | denied | tooLong | invalid =>
    refine .inr ⟨_, [], rfl, .rpcError (fun hcode => ?_) (fun _ => rfl) rfl⟩
    exact absurd hcode (by decide)
  | unchecked hasks => exact .inr ⟨_, [], rfl, .rpcError (fun _ => .inl hasks) (fun _ => rfl) rfl⟩
  | @dispatched request params hid hasks =>
    obtain ⟨more, hresponses, hdispatched⟩ := @serveRequest_spec posix host drains request params
    refine .inr ⟨_, more, hresponses, ?_⟩
    cases hhandled : handled posix host params with
    | ok result => exact .result hasks hdispatched hhandled
    | error =>
      refine .rpcError (fun _ => .inr ⟨params, hasks, hdispatched, hhandled⟩) (fun hcode => absurd rfl hcode) ?_
      rw [startedBy_serveRequest, raises_starts_nothing hhandled]
      rfl

section

variable [Wire]

theorem takeReply_nil {received : List (List UInt8)} (h : received.flatten = []) :
    takeReply received = .clientError (lit "Supervisor closed connection without responding") := by
  have heof := @readline_eof _ _ newline streamLimit [] received h
  unfold takeReply
  rw [heof]

/-- **A call runs its own command at most once, and its outcome is true of it.** However either direction is cut off or
delayed and whatever the host does: a result is that of the command of this call, and an error that the supervisor
reports means that no process was started. -/
theorem call_faithful (client : SupervisorClient) (hsound : x.Sound call posix allowedUid) :
    AtMostOnce call posix x.host (x.served posix allowedUid) ∧
      Justified call posix x.host (x.served posix allowedUid) (client.sendRequest x) := by
  have hserved := servedAs_served hsound
  refine ⟨hserved.atMostOnce, ?_⟩
  rcases sendRequest_cases client x with ⟨message, hsend⟩ | hsend | hsend
  · rw [hsend]
    exact .clientError
  · rw [hsend]
    exact .raised
  · rw [hsend]
    have hreceived := hsound.received
    unfold written at hreceived
    rcases hserved.justified with hnone | ⟨response, more, hresponses, hjustified⟩
    · rw [hnone] at hreceived
      rw [takeReply_nil (List.prefix_nil.mp hreceived)]
      exact .clientError
    · rw [hresponses, List.flatMap_cons] at hreceived
      have hcarried := hsound.replies response (by rw [hresponses]; exact List.mem_cons_self)
      rcases takeReply_cases hcarried hreceived with htaken | htaken | ⟨message, htaken⟩
      · rw [htaken, readReply_document]
        cases response with
        | result => exact hjustified
        | error => exact hjustified
      · rw [htaken]
        exact .raised
      · rw [htaken]
        exact .clientError

/-! ## A call that nothing disturbs -/

/-- The peer is allowed, everything arrives, and each answer fits the reader of the client. -/
structure Exchange.Undisturbed (x : Exchange) (call : Call) (allowedUid : Int) : Prop where
  connected : x.connecting = .connected
  allowed : x.query.Allowed allowedUid
  drained : x.drained = true
  timely : x.timely = true
  sent : x.sent.flatten = encode (x.request call)
  received : x.received.flatten = written (x.served true allowedUid)
  request : Carried Pydantic.parseJson (x.request call)
  replies : ∀ response ∈ responses (x.served true allowedUid),
    Carried Wire.loads response.document ∧ (Wire.dump response.document).length ≤ streamLimit

/-- The outcome of a call, by the length of its request. -/
structure Completes (call : Call) (length : Nat) (host : Host) (outcome : Outcome) : Prop where
  closed : streamLimit < length → outcome = .clientError (lit "Supervisor closed connection without responding")
  too_long : length = streamLimit → outcome = .rpcError (-32600) (lit "Invalid Request: line too long") none
  run : length < streamLimit → ∀ params, call.Asks params →
    outcome = match handled true host params with
      | .ok result => .result result
      | .error () => .rpcError (-32603) (lit "Internal Error") none
  unchecked : length < streamLimit → (∀ params, ¬ call.Asks params) → outcome = .rpcError (-32603) (lit "Internal Error") none

theorem handleClient_allowed {query : PeerQuery} (h : query.Allowed allowedUid) (turns : List Turn) :
    handleClient true allowedUid query turns = serve true turns := by
  obtain ⟨pid, uid, gid, rfl, hpeer⟩ := h
  have hallowed : uid ∈ [allowedUid, 0] := by simpa using hpeer
  simp [handleClient, validatePeerCredentials, getPeerCredentials, hallowed, bind, Except.bind, pure, Except.pure]

/-- A request that arrives whole is served as one line. -/
theorem served_whole (hconnected : x.connecting = .connected) (hallowed : x.query.Allowed allowedUid)
    (hsent : x.sent.flatten = encode (x.request call)) (hrequest : Carried Pydantic.parseJson (x.request call)) :
    x.served true allowedUid =
      if (Wire.dump (x.request call)).length ≤ streamLimit then serveLine true x.host x.drains (encode (x.request call)) else [] := by
  have hlines : [] ++ x.sent.flatten = linesOf newline [Wire.dump (x.request call)] := by
    rw [List.nil_append, hsent]
    simp [linesOf, encode]
  unfold Exchange.served
  rw [hconnected, if_pos (show Connecting.connected.isConnected = true from rfl), handleClient_allowed hallowed,
    lineReads_linesOf (List.forall_mem_singleton.mpr hrequest.one_line) hlines]
  unfold readsOf
  split_ifs
  · obtain ⟨byte, bytes, hbytes⟩ :=
      List.exists_cons_of_ne_nil (List.append_ne_nil_of_right_ne_nil (Wire.dump (x.request call)) (List.cons_ne_nil newline []))
    unfold encode
    rw [hbytes]
    change serveLine true x.host x.drains (byte :: bytes) ++ (if x.drains then [] else []) = _
    rw [ite_self, List.append_nil]
  · rfl

/-- The first answer that is there to be read is the one that is taken. -/
theorem takeReply_whole {received : List (List UInt8)} {rest : List UInt8} (hcarried : Carried Wire.loads response.document)
    (hlength : (Wire.dump response.document).length ≤ streamLimit) (h : received.flatten = encode response.document ++ rest) :
    takeReply received = response.outcome := by
  have hcut : [] ++ received.flatten = Wire.dump response.document ++ newline :: rest := by simp [h, encode]
  obtain ⟨buffer', chunks', hread, -⟩ := readline_line hcarried.one_line hlength hcut
  obtain ⟨byte, bytes, hbytes⟩ :=
    List.exists_cons_of_ne_nil (List.append_ne_nil_of_right_ne_nil (Wire.dump response.document) (List.cons_ne_nil newline []))
  have hloads := hcarried.reads_back (encode response.document) (List.prefix_refl _)
  unfold encode at hloads
  rw [if_pos (by simp), hbytes] at hloads
  unfold takeReply
  rw [hread, hbytes]
  dsimp only
  rw [hloads]
  dsimp only
  rw [readReply_document]
  cases response <;> rfl

theorem Exchange.Undisturbed.sendRequest (client : SupervisorClient) (h : x.Undisturbed call allowedUid) :
    client.sendRequest x =
      match responses (x.served true allowedUid) with
      | [] => .clientError (lit "Supervisor closed connection without responding")
      | response :: _ => response.outcome := by
  have hreceived := h.received
  unfold SupervisorClient.sendRequest
  rw [h.connected, h.drained, h.timely]
  change takeReply x.received = _
  unfold written at hreceived
  cases hresponses : responses (x.served true allowedUid) with
  | nil =>
    rw [hresponses] at hreceived
    exact takeReply_nil hreceived
  | cons response more =>
    rw [hresponses, List.flatMap_cons] at hreceived
    obtain ⟨hcarried, hlength⟩ := h.replies response (by rw [hresponses]; exact List.mem_cons_self)
    exact takeReply_whole hcarried hlength hreceived

end

/-! ## One status request -/

/-- JSON of two documents only. -/
@[reducible]
def wireOf (request reply : List (Text × Json)) (requestText replyText : List UInt8) : Wire where
  toPydantic := { pydanticOf [] .null with
    parseJson := fun bytes => if bytes = requestText ∨ bytes = requestText ++ [newline] then some (.object request) else none }
  dump document := if (field document "method").isSome then requestText else replyText
  loads bytes := if bytes = replyText ∨ bytes = replyText ++ [newline] then some (.object reply) else none

theorem carried_of [Wire] {parse : List UInt8 → Option Json} {document : List (Text × Json)} (hline : newline ∉ Wire.dump document)
    (hparse : ∀ bytes, parse bytes =
      if bytes = Wire.dump document ∨ bytes = Wire.dump document ++ [newline] then some (.object document) else none) :
    Carried parse document := by
  refine ⟨hline, fun bytes hbytes => ?_⟩
  have hwhole : bytes = Wire.dump document ∨ bytes = Wire.dump document ++ [newline] ↔ (Wire.dump document).length ≤ bytes.length := by
    constructor
    · rintro (rfl | rfl)
      · exact le_refl _
      · simp
    · intro hlength
      rcases List.prefix_concat_iff.mp hbytes with hall | hpart
      · exact .inr hall
      · exact .inl (hpart.eq_of_length_le hlength)
  simp only [hparse, hwhole]

def statusCall : Call := .getServiceStatus (lit "palworld.service")

def statusRequest : List UInt8 := lineBytes
  "\x7b\"jsonrpc\":\"2.0\",\"id\":\"0123456789ab\",\"method\":\"service.status\",\"params\":\x7b\"service_name\":\"palworld.service\"\x7d\x7d"

def statusReply : List UInt8 := lineBytes
  "\x7b\"jsonrpc\":\"2.0\",\"id\":\"0123456789ab\",\"result\":\x7b\"service\":\"palworld.service\",\"active_state\":\"active\"\x7d\x7d"

def statusResult : Result := [(lit "service", text "palworld.service"), (lit "active_state", text "active")]

def statusExchange : Exchange where
  requestId := lit "0123456789ab"
  id_length := by decide
  connecting := .connected
  drained := true
  sent := [statusRequest.take 20, statusRequest.drop 20 ++ [newline]]
  query := .credentials 42 1001 1001
  host := fun _ => some ⟨42, false, 0, lit "active\n", []⟩
  drains := true
  timely := true
  received := [statusReply ++ [newline]]

@[reducible]
def statusWire : Wire :=
  wireOf (requestDocument (lit "0123456789ab") (lit "service.status") statusCall.params)
    (Response.result (lit "0123456789ab") statusResult).document statusRequest statusReply

theorem statusExchange_request : let _ := statusWire
    statusExchange.sent.flatten = encode (statusExchange.request statusCall) ∧
      Carried Pydantic.parseJson (statusExchange.request statusCall) := by
  intro _
  exact ⟨by decide +kernel, carried_of (by decide +kernel) fun _ => rfl⟩

theorem statusExchange_served : let _ := statusWire
    responses (statusExchange.served true 1001) = [.result (lit "0123456789ab") statusResult] := by
  intro _
  rw [served_whole rfl ⟨42, 1001, 1001, rfl, .inl rfl⟩ statusExchange_request.1 statusExchange_request.2, if_pos (by decide +kernel)]
  rfl

theorem statusExchange_reply : let _ := statusWire
    ∀ response ∈ responses (statusExchange.served true 1001),
      Carried Wire.loads response.document ∧ (Wire.dump response.document).length ≤ streamLimit := by
  intro _
  rw [statusExchange_served, List.forall_mem_singleton]
  exact ⟨carried_of (by decide +kernel) fun _ => rfl, by decide +kernel⟩

theorem statusExchange_received : let _ := statusWire
    statusExchange.received.flatten = written (statusExchange.served true 1001) := by
  intro _
  unfold written
  rw [statusExchange_served]
  rfl

def sampleClient : SupervisorClient := ⟨lit "/run/palmanager/supervisor.sock", lit "15.0"⟩

/-- The command of a status request is run once. -/
theorem call_faithful_status : ∃ _ : Wire, AtMostOnce statusCall true statusExchange.host (statusExchange.served true 1001) ∧
    Justified statusCall true statusExchange.host (statusExchange.served true 1001) (sampleClient.sendRequest statusExchange) :=
  let _ := statusWire
  ⟨statusWire, call_faithful sampleClient ⟨statusExchange_request.1 ▸ List.prefix_refl _,
    statusExchange_received ▸ List.prefix_refl _, statusExchange_request.2, fun response h => (statusExchange_reply response h).1⟩⟩

end Palworld.Supervisor

import Palworld.Lib.Dict
import Palworld.Lib.Text

/-!
# The supervisor's protocol

A request is a JSON document of one line. The parameters of each method have a model of
their own, and a value of that model has passed its checks.
-/

open Lib

namespace Palworld.Supervisor

/-! ## JSON -/

inductive Json
  | null
  | bool (b : Bool)
  | int (n : Int)
  | float (literal : Text)
  | str (s : Text)
  | array (items : List Json)
  | object (fields : List (Text × Json))

/-- The validator, where its own source decides: the JSON parser and what its lax mode takes for
an `int` and for a `bool`. `none` is a `ValidationError`. -/
class Pydantic where
  parseJson : List UInt8 → Option Json
  int : Json → Option Int
  bool : Json → Option Bool
  int_int (n : Int) : int (.int n) = some n
  bool_bool (b : Bool) : bool (.bool b) = some b

/-- `str`. Nothing in JSON but a string is one. -/
def Json.asStr : Json → Option Text
  | .str s => some s
  | _ => none

/-- `dict[str, Any]`. -/
def Json.asObject : Json → Option (List (Text × Json))
  | .object fields => some fields
  | _ => none

/-- A field of an object. The last of equal keys counts. -/
def field (fields : List (Text × Json)) (name : String) : Option Json := lastOf (lit name) fields

/-- A field with a default, which is not validated. -/
def fieldOr {T : Type} (fields : List (Text × Json)) (name : String) (default : T) (read : Json → Option T) :
    Option T :=
  match field fields name with
  | none => some default
  | some value => read value

/-! ## Whitelists -/

def allowedServices : List Text :=
  ["palworld.service", "palworld-manager.service", "palworld-dedicated.service"].map lit

inductive Method
  | serviceRestart
  | serviceStatus
  | serviceReload
  | systemReboot
  | systemDeploy
  deriving DecidableEq

def Method.name : Method → Text
  | .serviceRestart => lit "service.restart"
  | .serviceStatus => lit "service.status"
  | .serviceReload => lit "service.reload"
  | .systemReboot => lit "system.reboot"
  | .systemDeploy => lit "system.deploy"

def allowedMethods : List Method :=
  [.serviceRestart, .serviceStatus, .serviceReload, .systemReboot, .systemDeploy]

def validateMethod (v : Text) : Option Method := allowedMethods.find? fun m => m.name = v

def isBranchStart (c : Char) : Bool := c.isAlphanum

/-- `[a-zA-Z0-9._/\-]`. -/
def isBranchChar (c : Char) : Bool := c.isAlphanum || c == '.' || c == '_' || c == '/' || c == '-'

/-- `[a-zA-Z0-9][a-zA-Z0-9._/\-]{0,127}`, the whole text. -/
def isBranchName : Text → Bool
  | [] => false
  | c :: rest => isBranchStart c && rest.all isBranchChar && decide (rest.length ≤ 127)

/-- `BRANCH_NAME_PATTERN.match`. The `$` of the pattern also stands before a newline at the end. -/
def branchNamePattern (v : Text) : Bool :=
  isBranchName v || (v.getLast? == some '\n' && isBranchName v.dropLast)

/-! ## The parameter models -/

structure ServiceRestartParams where
  serviceName : Text
  timeoutSeconds : Int
  service_allowed : serviceName ∈ allowedServices
  timeout_ge : 5 ≤ timeoutSeconds
  timeout_le : timeoutSeconds ≤ 120

structure ServiceStatusParams where
  serviceName : Text
  service_allowed : serviceName ∈ allowedServices

structure ServiceReloadParams where
  daemonReload : Bool

structure SystemRebootParams where
  delaySeconds : Int
  reason : Text
  delay_ge : 0 ≤ delaySeconds
  delay_le : delaySeconds ≤ 3600
  reason_length : reason.length ≤ 256

structure SystemDeployParams where
  targetBranch : Text
  branch_length : targetBranch.length ≤ 128
  branch_pattern : branchNamePattern targetBranch = true

inductive Params
  | serviceRestart (params : ServiceRestartParams)
  | serviceStatus (params : ServiceStatusParams)
  | serviceReload (params : ServiceReloadParams)
  | systemReboot (params : SystemRebootParams)
  | systemDeploy (params : SystemDeployParams)

def defaultReason : Text := lit "Operator-initiated reboot via web management plane"

section Validate

variable [Pydantic]

def ServiceRestartParams.validate (fields : List (Text × Json)) : Option ServiceRestartParams := do
  let service ← (← field fields "service_name").asStr
  let timeout ← fieldOr fields "timeout_seconds" 30 Pydantic.int
  if h : service ∈ allowedServices ∧ 5 ≤ timeout ∧ timeout ≤ 120 then
    some ⟨service, timeout, h.1, h.2.1, h.2.2⟩
  else none

def ServiceStatusParams.validate (fields : List (Text × Json)) : Option ServiceStatusParams := do
  let service ← (← field fields "service_name").asStr
  if h : service ∈ allowedServices then some ⟨service, h⟩ else none

def ServiceReloadParams.validate (fields : List (Text × Json)) : Option ServiceReloadParams := do
  let reload ← fieldOr fields "daemon_reload" true Pydantic.bool
  some ⟨reload⟩

def SystemRebootParams.validate (fields : List (Text × Json)) : Option SystemRebootParams := do
  let delay ← fieldOr fields "delay_seconds" 0 Pydantic.int
  let reason ← fieldOr fields "reason" defaultReason Json.asStr
  if h : 0 ≤ delay ∧ delay ≤ 3600 ∧ reason.length ≤ 256 then
    some ⟨delay, reason, h.1, h.2.1, h.2.2⟩
  else none

def SystemDeployParams.validate (fields : List (Text × Json)) : Option SystemDeployParams := do
  let branch ← fieldOr fields "target_branch" (lit "main") Json.asStr
  if h : branch.length ≤ 128 ∧ branchNamePattern branch = true then some ⟨branch, h.1, h.2⟩ else none

/-- `PARAM_MODELS[method](**params)`. -/
def paramModels (method : Method) (fields : List (Text × Json)) : Option Params :=
  match method with
  | .serviceRestart => (ServiceRestartParams.validate fields).map .serviceRestart
  | .serviceStatus => (ServiceStatusParams.validate fields).map .serviceStatus
  | .serviceReload => (ServiceReloadParams.validate fields).map .serviceReload
  | .systemReboot => (SystemRebootParams.validate fields).map .systemReboot
  | .systemDeploy => (SystemDeployParams.validate fields).map .systemDeploy

/-! ## The request -/

structure JsonRpcRequest where
  id : Text
  method : Method
  params : List (Text × Json)
  id_length : id.length ≤ 64

/-- `JSONRPCRequest.model_validate_json`. -/
def JsonRpcRequest.validateJson (line : List UInt8) : Option JsonRpcRequest := do
  let fields ← (← Pydantic.parseJson line).asObject
  let version ← fieldOr fields "jsonrpc" (lit "2.0") Json.asStr
  let id ← (← field fields "id").asStr
  let method ← validateMethod (← (← field fields "method").asStr)
  let params ← fieldOr fields "params" [] Json.asObject
  if h : version = lit "2.0" ∧ id.length ≤ 64 then some ⟨id, method, params, h.2⟩ else none

end Validate

/-! ## Responses -/

structure JsonRpcErrorDetail where
  code : Int
  message : Text

/-- What the server writes, a line each. -/
inductive Response
  | result (id : Text) (result : List (Text × Json))
  | error (id : Option Text) (error : JsonRpcErrorDetail)

/-! ## What a branch name may hold -/

theorem isBranchChar_of_mem {v : Text} {c : Char} (h : isBranchName v = true) (hmem : c ∈ v) :
    isBranchChar c = true := by
  cases v with
  | nil => cases hmem
  | cons d rest =>
    simp only [isBranchName, Bool.and_eq_true, List.all_eq_true] at h
    obtain ⟨⟨hstart, hrest⟩, -⟩ := h
    rcases List.mem_cons.mp hmem with rfl | hin
    · simp [isBranchChar, show c.isAlphanum = true from hstart]
    · exact hrest c hin

theorem head?_of_isBranchName {v : Text} (h : isBranchName v = true) : ∃ c, v.head? = some c ∧ c.isAlphanum := by
  cases v with
  | nil => cases h
  | cons c rest =>
    simp only [isBranchName, Bool.and_eq_true] at h
    exact ⟨c, rfl, h.1.1⟩

/-- A branch name that passes may end with a newline. It holds no other. -/
theorem branchNamePattern_newline {v : Text} (h : branchNamePattern v = true) :
    '\n' ∈ v ↔ v.getLast? = some '\n' := by
  refine ⟨fun hmem => ?_, fun hlast => List.mem_of_getLast? hlast⟩
  simp only [branchNamePattern, Bool.or_eq_true, Bool.and_eq_true, beq_iff_eq] at h
  rcases h with hname | ⟨hlast, -⟩
  · exact absurd (isBranchChar_of_mem hname hmem) (by decide)
  · exact hlast

theorem branchNamePattern_nul {v : Text} (h : branchNamePattern v = true) : '\x00' ∉ v := by
  intro hmem
  simp only [branchNamePattern, Bool.or_eq_true, Bool.and_eq_true, beq_iff_eq] at h
  rcases h with hname | ⟨hlast, hname⟩
  · exact absurd (isBranchChar_of_mem hname hmem) (by decide)
  · obtain ⟨w, rfl⟩ := List.getLast?_eq_some_iff.mp hlast
    rw [List.dropLast_concat] at hname
    rcases List.mem_append.mp hmem with hin | hin
    · exact absurd (isBranchChar_of_mem hname hin) (by decide)
    · exact absurd hin (by decide)

theorem branchNamePattern_head {v : Text} (h : branchNamePattern v = true) : v.head? ≠ some '-' := by
  have not_hyphen {w : Text} (hw : isBranchName w = true) : w.head? ≠ some '-' := by
    obtain ⟨c, hc, halnum⟩ := head?_of_isBranchName hw
    rw [hc]
    rintro ⟨⟩
    exact absurd halnum (by decide)
  simp only [branchNamePattern, Bool.or_eq_true, Bool.and_eq_true, beq_iff_eq] at h
  rcases h with hname | ⟨-, hname⟩
  · exact not_hyphen hname
  · have hhead := not_hyphen hname
    cases v with
    | nil => simp
    | cons c rest =>
      cases rest with
      | nil => cases hname
      | cons d rest => simpa using hhead

end Palworld.Supervisor

import Palworld.Supervisor.Server

/-!
# Who may have a request dispatched

The server goes on without a peer when the kernel does not tell it one.
-/

open Lib

namespace Palworld.Supervisor

def PeerQuery.Allowed (query : PeerQuery) (allowedUid : Int) : Prop :=
  ∃ pid uid gid, query = .credentials pid uid gid ∧ (uid = allowedUid ∨ uid = 0)

def Dispatches (events : List Event) : Prop := ∃ params, .dispatched params ∈ events

/-- The lines that the loop gets to read. -/
def linesRead : List Turn → List (List UInt8)
  | [] => []
  | turn :: rest =>
    match turn.read with
    | .overrun => []
    | .line [] => []
    | .line (byte :: bytes) => (byte :: bytes) :: if turn.drains then linesRead rest else []

theorem dispatches_append (a b : List Event) : Dispatches (a ++ b) ↔ Dispatches a ∨ Dispatches b := by
  simp only [Dispatches, List.mem_append, exists_or]

variable {posix : Bool}

theorem dispatches_serveRequest (host : Host) (drains : Bool) (request : JsonRpcRequest) (params : Params) :
    Dispatches (serveRequest posix host drains request params) := by
  have hevents := @methodDispatch_leaves posix host params [.dispatched params]
  unfold serveRequest
  rcases hrun : (methodDispatch posix host params).run.run [.dispatched params] with ⟨result, events⟩
  rw [hrun] at hevents
  have hfirst : Dispatches events := ⟨params, by rw [show events = _ from hevents]; simp⟩
  cases result with
  | error => exact (dispatches_append _ _).mpr (.inl hfirst)
  | ok result =>
    dsimp only
    split
    · exact (dispatches_append _ _).mpr (.inl hfirst)
    · exact (dispatches_append _ _).mpr (.inl hfirst)

section

variable [Pydantic]

theorem dispatches_serveLine (host : Host) (drains : Bool) (line : List UInt8) :
    Dispatches (serveLine posix host drains line) ↔ (requestOf line).isSome := by
  unfold serveLine requestOf
  split
  · simp [Dispatches]
  · cases hrequest : JsonRpcRequest.validateJson line with
    | none => simp [Dispatches]
    | some request =>
      cases hparams : paramModels request.method request.params with
      | none => simp [Dispatches, hparams]
      | some params => simp [hparams, dispatches_serveRequest]

theorem dispatches_serve (turns : List Turn) :
    Dispatches (serve posix turns) ↔ ∃ line ∈ linesRead turns, (requestOf line).isSome := by
  induction turns with
  | nil => simp [serve, linesRead, Dispatches]
  | cons turn rest ih =>
    unfold serve linesRead
    cases turn.read with
    | overrun => simp [Dispatches]
    | line bytes =>
      cases bytes with
      | nil => simp [Dispatches]
      | cons byte bytes =>
        rw [dispatches_append, dispatches_serveLine]
        simp only [List.exists_mem_cons_iff]
        cases turn.drains with
        | false => simp [Dispatches]
        | true => exact or_congr_right ih

theorem handleClient_of_credentials (allowedUid pid uid gid : Int) (turns : List Turn)
    (hpeer : uid ≠ allowedUid ∧ uid ≠ 0) :
    handleClient true allowedUid (.credentials pid uid gid) turns = [.wrote permissionDenied] := by
  have hrefused : uid ∉ [allowedUid, 0] := by simpa using hpeer
  simp [handleClient, validatePeerCredentials, getPeerCredentials, hrefused, bind, Except.bind, throw, throwThe,
    MonadExceptOf.throw]

/-- **When only an allowed peer is served.** Either the kernel tells the peer, or no line of the
connection is a request. -/
theorem peer_checked_iff (allowedUid : Int) (query : PeerQuery) (turns : List Turn) :
    (Dispatches (handleClient true allowedUid query turns) → query.Allowed allowedUid) ↔
      query ≠ .osError ∨ ∀ line ∈ linesRead turns, requestOf line = none := by
  cases query with
  | osError =>
    have hserve : handleClient true allowedUid .osError turns = serve true turns := rfl
    rw [hserve, dispatches_serve]
    simp only [ne_eq, not_true_eq_false, false_or, PeerQuery.Allowed, reduceCtorEq, false_and, exists_false, imp_false,
      not_exists, not_and, Option.not_isSome_iff_eq_none]
  | credentials pid uid gid =>
    refine ⟨fun _ => .inl (by simp), fun _ hdispatched => ?_⟩
    by_contra hpeer
    have hrefused : uid ≠ allowedUid ∧ uid ≠ 0 :=
      ⟨fun h => hpeer ⟨pid, uid, gid, rfl, .inl h⟩, fun h => hpeer ⟨pid, uid, gid, rfl, .inr h⟩⟩
    rw [handleClient_of_credentials allowedUid pid uid gid turns hrefused] at hdispatched
    simp [Dispatches] at hdispatched

end

/-! ## A peer that the kernel does not tell -/

/-- `{"id": "7", "method": "system.reboot"}`, already parsed. -/
def rebootDocument : Json := .object [(lit "id", text "7"), (lit "method", text "system.reboot")]

def rebootLine : List UInt8 := lineBytes "\x7b\"id\": \"7\", \"method\": \"system.reboot\"\x7d"

/-- The kernel does not tell the peer, and the host is rebooted for it. -/
theorem unknown_peer_reboots : ¬ ∀ (_ : Pydantic) (allowedUid : Int) (query : PeerQuery) (turns : List Turn),
    Dispatches (handleClient true allowedUid query turns) → query.Allowed allowedUid := by
  intro h
  let _ := pydanticOf rebootLine rebootDocument
  have hdispatched : Dispatches (handleClient true 1001 .osError [⟨.line rebootLine, willingHost, true⟩]) :=
    (dispatches_serve _).mpr ⟨rebootLine, by decide +kernel, by decide +kernel⟩
  obtain ⟨pid, uid, gid, hpeer, -⟩ := h _ 1001 .osError _ hdispatched
  cases hpeer

end Palworld.Supervisor

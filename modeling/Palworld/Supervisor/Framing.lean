import Palworld.Lib.StreamReader
import Palworld.Supervisor.Server

/-!
# Requests and their responses

A client sends a stream of lines. The stream reader cuts it into lines, up to a limit that
is one below the limit of the server.
-/

open Lib

namespace Palworld.Supervisor

def newline : UInt8 := 10

/-- The default limit of an `asyncio.StreamReader`, 64 KiB. -/
def streamLimit : Nat := 65536

def Readline.of : LineRead UInt8 → Readline
  | .line bytes => .line bytes
  | .overrun => .overrun

/-- The turns of the loop, with the host at each. The client takes what is written. -/
def turnsOf : List (LineRead UInt8) → (Nat → Host) → List Turn
  | [], _ => []
  | read :: reads, hosts => ⟨.of read, hosts 0, true⟩ :: turnsOf reads fun n => hosts (n + 1)

inductive Ending
  | endOfFile
  | valueError      -- of `readline`, outside the inner `try`
  | connectionLost
  deriving DecidableEq

/-- How the `while` loop ends. -/
def ending : List Turn → Option Ending
  | [] => none
  | turn :: rest =>
    match turn.read with
    | .overrun => some .valueError
    | .line [] => some .endOfFile
    | .line (_ :: _) => if turn.drains then ending rest else some .connectionLost

def Response.id : Response → Option Text
  | .result id _ => some id
  | .error id _ => id

def responses (events : List Event) : List Response :=
  events.filterMap fun event =>
    match event with
    | .wrote response => some response
    | .dispatched _ | .started _ => none

section

variable [Pydantic]

/-- The id that the response to a line is to carry. -/
def idOf (line : List UInt8) : Option Text := (JsonRpcRequest.validateJson (line ++ [newline])).map JsonRpcRequest.id

/-- The turns of a client that sends these chunks. -/
def clientTurns (chunks : List (List UInt8)) (hosts : Nat → Host) : List Turn :=
  turnsOf (lineReads newline streamLimit [] chunks) hosts

/-- One response for each line, in order and with its id, and the connection is open to the end of the stream. -/
structure Framed (lines : List (List UInt8)) (turns : List Turn) (events : List Event) : Prop where
  answered : (responses events).map Response.id = lines.map idOf
  ended : ending turns = some .endOfFile

/-- The loop answers a line with its own id. -/
def Answered (line : List UInt8) : Prop :=
  line.length < streamLimit ∨ line.length = streamLimit ∧ JsonRpcRequest.validateJson (line ++ [newline]) = none

end

/-! ## One line -/

variable {posix : Bool} {host : Host} {hosts : Nat → Host} {line : List UInt8} {lines : List (List UInt8)}

theorem responses_append (a b : List Event) : responses (a ++ b) = responses a ++ responses b := List.filterMap_append ..

theorem responses_started (argvs : List (List Text)) : responses (argvs.map .started) = [] := by
  unfold responses
  simp

theorem responses_serveRequest (request : JsonRpcRequest) (params : Params) :
    (responses (serveRequest posix host true request params)).map Response.id = [some request.id] := by
  have hevents := @methodDispatch_leaves posix host params [.dispatched params]
  unfold serveRequest
  rcases hrun : (methodDispatch posix host params).run.run [.dispatched params] with ⟨result, events⟩
  rw [hrun] at hevents
  dsimp only at hevents
  have hnone : responses events = [] := by
    rw [hevents, responses_append, responses_started]
    rfl
  cases result with
  | error => simp only [responses_append, hnone, List.nil_append]; rfl
  | ok result => simp only [if_true, responses_append, hnone, List.nil_append]; rfl

section

variable [Pydantic]

theorem responses_serveLine (line : List UInt8) :
    (responses (serveLine posix host true line)).map Response.id =
      [if line.length > 65536 then none else (JsonRpcRequest.validateJson line).map JsonRpcRequest.id] := by
  unfold serveLine
  split
  · rfl
  · cases hrequest : JsonRpcRequest.validateJson line with
    | none => rfl
    | some request =>
      dsimp only
      cases hparams : paramModels request.method request.params with
      | none => rfl
      | some params => exact responses_serveRequest request params

/-- The loop on a line that the reader hands over, and on the rest. -/
theorem serve_line (hlimit : line.length ≤ streamLimit) :
    (responses (serve posix (turnsOf (readsOf newline streamLimit (line :: lines)) hosts))).map Response.id =
      (if line.length = streamLimit then none else idOf line) ::
        (responses (serve posix (turnsOf (readsOf newline streamLimit lines) fun n => hosts (n + 1)))).map Response.id := by
  obtain ⟨byte, bytes, hbytes⟩ := List.exists_cons_of_ne_nil (List.append_ne_nil_of_right_ne_nil line (List.cons_ne_nil newline []))
  have hserve : serve posix (turnsOf (readsOf newline streamLimit (line :: lines)) hosts) =
      serveLine posix (hosts 0) true (line ++ [newline]) ++
        serve posix (turnsOf (readsOf newline streamLimit lines) fun n => hosts (n + 1)) := by
    rw [readsOf_within hlimit, hbytes]
    rfl
  have hlength : (line ++ [newline]).length > 65536 ↔ line.length = streamLimit := by
    unfold streamLimit at hlimit ⊢
    rw [List.length_append, List.length_singleton]
    omega
  rw [hserve, responses_append, List.map_append, responses_serveLine]
  simp only [hlength]
  rfl

omit [Pydantic] in
theorem ending_line (hlimit : line.length ≤ streamLimit) :
    ending (turnsOf (readsOf newline streamLimit (line :: lines)) hosts) =
      ending (turnsOf (readsOf newline streamLimit lines) fun n => hosts (n + 1)) := by
  obtain ⟨byte, bytes, hbytes⟩ := List.exists_cons_of_ne_nil (List.append_ne_nil_of_right_ne_nil line (List.cons_ne_nil newline []))
  rw [readsOf_within hlimit, hbytes]
  rfl

omit [Pydantic] in
theorem ending_overrun (hlimit : streamLimit < line.length) :
    ending (turnsOf (readsOf newline streamLimit (line :: lines)) hosts) = some .valueError := by
  rw [readsOf_over hlimit]
  rfl

theorem answered_iff (hlimit : line.length ≤ streamLimit) :
    (if line.length = streamLimit then none else idOf line) = idOf line ↔ Answered line := by
  unfold Answered idOf
  split_ifs with hequal
  · rw [eq_comm, Option.map_eq_none_iff]
    exact ⟨fun h => .inr ⟨hequal, h⟩, fun h => (h.resolve_left (by omega)).2⟩
  · exact ⟨fun _ => .inl (by omega), fun _ => rfl⟩

theorem framed_readsOf_iff (lines : List (List UInt8)) (hosts : Nat → Host) :
    Framed lines (turnsOf (readsOf newline streamLimit lines) hosts)
        (serve posix (turnsOf (readsOf newline streamLimit lines) hosts)) ↔ ∀ line ∈ lines, Answered line := by
  induction lines generalizing hosts with
  | nil => exact ⟨fun _ line h => absurd h List.not_mem_nil, fun _ => ⟨rfl, rfl⟩⟩
  | cons line lines ih =>
    rw [List.forall_mem_cons, ← ih fun n => hosts (n + 1)]
    rcases Nat.lt_or_ge streamLimit line.length with hlimit | hlimit
    -- The reader raises on this line, and the connection is closed.
    · constructor
      · rintro ⟨-, hend⟩
        rw [ending_overrun hlimit] at hend
        cases hend
      · rintro ⟨hline, -⟩
        unfold Answered at hline
        omega
    · constructor
      · rintro ⟨hall, hend⟩
        rw [serve_line hlimit, List.map_cons, List.cons.injEq, answered_iff hlimit] at hall
        rw [ending_line hlimit] at hend
        exact ⟨hall.1, hall.2, hend⟩
      · rintro ⟨hline, hall, hend⟩
        refine ⟨?_, by rwa [ending_line hlimit]⟩
        rw [serve_line hlimit, List.map_cons, List.cons.injEq, answered_iff hlimit]
        exact ⟨hline, hall⟩

omit [Pydantic] in
theorem clientTurns_eq (hlines : ∀ line ∈ lines, newline ∉ line) {chunks : List (List UInt8)}
    (hchunks : chunks.flatten = linesOf newline lines) (hosts : Nat → Host) :
    clientTurns chunks hosts = turnsOf (readsOf newline streamLimit lines) hosts := by
  rw [clientTurns, lineReads_linesOf hlines (by simpa using hchunks)]

/-- **When every line gets its response.** An allowed client that sends lines, in chunks of any size, has each of them
answered with its id, in order, over a connection that stays open to the end of the stream, exactly if no line is longer
than 65536 bytes and none of just that length is a request. -/
theorem framed_iff {allowedUid pid uid gid : Int} (hpeer : uid = allowedUid ∨ uid = 0)
    (hlines : ∀ line ∈ lines, newline ∉ line) {chunks : List (List UInt8)} (hchunks : chunks.flatten = linesOf newline lines)
    (hosts : Nat → Host) :
    Framed lines (clientTurns chunks hosts) (handleClient true allowedUid (.credentials pid uid gid) (clientTurns chunks hosts)) ↔
      ∀ line ∈ lines, Answered line := by
  have hclient : ∀ turns, handleClient true allowedUid (.credentials pid uid gid) turns = serve true turns := by
    intro turns
    have hallowed : uid ∈ [allowedUid, 0] := by simpa using hpeer
    simp [handleClient, validatePeerCredentials, getPeerCredentials, hallowed, bind, Except.bind, pure, Except.pure]
  rw [hclient, clientTurns_eq hlines hchunks]
  exact framed_readsOf_iff lines hosts

end

/-- A line in two chunks that does not validate, and is answered with an error, then a blank one, which is not answered. -/
theorem split_request_answered :
    let _ := pydanticOf [] .null
    Framed [lineBytes "\x7b\"id\": \"7\"\x7d", []]
      (clientTurns [lineBytes "\x7b\"id\": ", lineBytes "\"7\"\x7d" ++ [newline, newline]] fun _ => willingHost)
      (handleClient true 1001 (.credentials 42 1001 1001)
        (clientTurns [lineBytes "\x7b\"id\": ", lineBytes "\"7\"\x7d" ++ [newline, newline]] fun _ => willingHost)) :=
  let _ := pydanticOf [] .null
  (framed_iff (.inl rfl) (by decide +kernel) (by decide +kernel) _).mpr
    (List.forall_mem_cons.mpr ⟨.inl (by decide +kernel), List.forall_mem_cons.mpr ⟨.inl (by decide), by simp⟩⟩)

/-- A line over the limit of the reader closes the connection without a response. -/
theorem overlong_line_closes :
    ¬ ∀ (_ : Pydantic) (allowedUid pid uid gid : Int) (lines chunks : List (List UInt8)) (hosts : Nat → Host),
      (uid = allowedUid ∨ uid = 0) → (∀ line ∈ lines, newline ∉ line) → chunks.flatten = linesOf newline lines →
        Framed lines (clientTurns chunks hosts)
          (handleClient true allowedUid (.credentials pid uid gid) (clientTurns chunks hosts)) := by
  intro h
  let _ := pydanticOf [] .null
  obtain ⟨line, hlength, hnewline⟩ : ∃ line : List UInt8, line.length = 65537 ∧ newline ∉ line :=
    ⟨List.replicate 65537 32, List.length_replicate, fun hin => absurd (List.eq_of_mem_replicate hin) (by decide)⟩
  have hline : ∀ l ∈ [line], newline ∉ l := List.forall_mem_singleton.mpr hnewline
  have hchunks : [linesOf newline [line]].flatten = linesOf newline [line] := List.flatten_singleton
  have hframed := h inferInstance 1001 42 1001 1001 [line] _ (fun _ => willingHost) (.inl rfl) hline hchunks
  have hlimit : streamLimit < line.length := by
    unfold streamLimit
    omega
  have hend := hframed.ended
  rw [clientTurns_eq hline hchunks, ending_overrun hlimit] at hend
  cases hend

end Palworld.Supervisor

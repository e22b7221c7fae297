import Palworld.Tracker.A2s
import Mathlib.Data.List.Nodup

/-!
# Asking the game server

A probe asks one candidate after the other, each in at most two datagrams, and the telemetry shows what the first one says that answers.
-/

open Lib

namespace Palworld.Tracker

/-! ## One candidate -/

inductive NetFault
  | timeoutError
  | osError
  | valueError
  deriving DecidableEq

/-- What a request comes to. The latency is in milliseconds, as it is rounded. -/
inductive Received
  | datagram (data : Bytes) (latency : ℚ)
  | unresolved                -- the host has no address, and `sendto` raises `gaierror`
  | raised (fault : NetFault)

/-- What leaves a query as an exception. -/
inductive Fault
  | valueError
  | overflowError
  | indexError
  | typeError
  deriving DecidableEq

/-- What a request to a port of a host comes to, when the port is one. -/
abbrev Net := Text → Int → Bytes → Received

/-- Whether the codec `idna` takes a host that is not in ASCII. -/
class Idna where
  encodes : Text → Bool

abbrev Idna.none : Idna := ⟨fun _ => false⟩

def a2sInfoRequest : Bytes := a2sHeader ++ 0x54 :: utf8 "Source Engine Query" ++ [0]

inductive SocketEvent
  | opened
  | sent (target : Text × Int) (request : Bytes)  -- given to `sendto`
  | closed
  deriving DecidableEq

def OutOfRange (port : Int) : Prop := port < 0 ∨ 65535 < port

instance (port : Int) : Decidable (OutOfRange port) := inferInstanceAs (Decidable (_ ∨ _))

section

variable [Idna]

/-- A host becomes a string of C. -/
def TakesHost (host : Text) : Prop := Char.ofNat 0 ∉ host ∧ ((∀ c ∈ host, c.toNat < 128) ∨ Idna.encodes host = true)

instance (host : Text) : Decidable (TakesHost host) :=
  have : Decidable (∀ c ∈ host, c.toNat < 128) := List.decidableBAll _ host
  inferInstanceAs (Decidable (_ ∧ _))

/-- What `sendto` raises for the address alone. It makes the port an `int` of C, then resolves the host, and then looks at the
range of the port. -/
def addressFault (net : Net) (target_ip : Text) (target_port : Int) (request : Bytes) : Option Fault :=
  if ¬ TakesHost target_ip then some .typeError
  else if target_port < -2147483648 ∨ 2147483647 < target_port then some .overflowError
  else
    match net target_ip target_port request with
    | .unresolved => none
    | _ => if OutOfRange target_port then some .overflowError else none

/-- `sendto` and `recvfrom(2048)`. `TimeoutError` and `OSError` are caught. -/
def exchange (net : Net) (target_ip : Text) (target_port : Int) (request : Bytes) : Except Fault (Option (Bytes × ℚ)) :=
  match addressFault net target_ip target_port request with
  | some fault => .error fault
  | none =>
    match net target_ip target_port request with
    | .datagram data latency => .ok (some (data.take 2048, latency))
    | .unresolved | .raised .timeoutError | .raised .osError => .ok none
    | .raised .valueError => .error .valueError

def parseReply (data : Bytes) (latency : ℚ) (target_port : Int) : Except Fault (Option SteamA2SInfo) :=
  match parseA2sPacket data (some latency) target_port with
  | .ok parsed => .ok (if parsed.responsive then some parsed else none)
  | .error .indexError => .error .indexError

def isChallenge (data : Bytes) : Bool := data.length ≥ 9 && data[4]? == some 0x41

/-- The reply to a request, parsed. -/
def answerTo (net : Net) (target_ip : Text) (target_port : Int) (request : Bytes) : Except Fault (Option SteamA2SInfo) :=
  match exchange net target_ip target_port request with
  | .error fault => .error fault
  | .ok none => .ok none
  | .ok (some (data, latency)) => parseReply data latency target_port

/-- The requests that are sent, and what comes of them. -/
def converse (net : Net) (target_ip : Text) (target_port : Int) : List Bytes × Except Fault (Option SteamA2SInfo) :=
  match exchange net target_ip target_port a2sInfoRequest with
  | .error fault => ([a2sInfoRequest], .error fault)
  | .ok none => ([a2sInfoRequest], .ok none)
  | .ok (some (data, latency)) =>
    if isChallenge data then
      let request := a2sInfoRequest ++ slice data 5 9
      ([a2sInfoRequest, request], answerTo net target_ip target_port request)
    else ([a2sInfoRequest], parseReply data latency target_port)

def executeA2sSocketQuery (net : Net) (target_ip : Text) (target_port : Int) : List SocketEvent × Except Fault (Option SteamA2SInfo) :=
  let conversation := converse net target_ip target_port
  (.opened :: conversation.1.map (.sent (target_ip, target_port)) ++ [.closed], conversation.2)

end

/-! ## All candidates -/

structure Probe where
  host : Text
  port : Int
  candidate_ports : List Int
  net : Net

def Probe.targetHosts (probe : Probe) : List Text :=
  if probe.host ≠ [] ∧ probe.host ≠ lit "127.0.0.1" ∧ probe.host ≠ lit "localhost" then [lit "127.0.0.1", probe.host]
  else [lit "127.0.0.1"]

def Probe.probedPorts (probe : Probe) : List Int :=
  let candidates := if probe.candidate_ports = [] then [probe.port, 27015, 8211] else probe.candidate_ports
  candidates.foldl (fun ports candidate => if candidate ∈ ports then ports else ports ++ [candidate]) []

def Probe.targets (probe : Probe) : List (Text × Int) :=
  probe.targetHosts.flatMap fun tip => probe.probedPorts.map fun tport => (tip, tport)

def sweepCandidates [Idna] (net : Net) : List (Text × Int) → List SocketEvent × Except Fault (Option SteamA2SInfo)
  | [] => ([], .ok none)
  | (tip, tport) :: targets =>
    match executeA2sSocketQuery net tip tport with
    | (events, .ok none) => (events ++ (sweepCandidates net targets).1, (sweepCandidates net targets).2)
    | (events, outcome) => (events, outcome)

/-- What the telemetry shows of the game server. -/
structure A2sState where
  ping_ms : Option ℚ
  responsive : Bool
  server_name : Option Text
  map_name : Option Text
  players : Int
  max_players : Int
  query_port : Int

def A2sState.new : A2sState := ⟨none, false, none, none, 0, 32, 27015⟩

/-- A name that is empty leaves the last one. -/
def orBefore (name : Text) (before : Option Text) : Option Text := if name = [] then before else some name

def A2sState.shown (s : A2sState) (res : SteamA2SInfo) : A2sState where
  ping_ms := res.ping_ms
  responsive := true
  server_name := orBefore res.server_name s.server_name
  map_name := orBefore res.map_name s.map_name
  players := res.players
  max_players := res.max_players
  query_port := res.query_port

def A2sState.hidden (s : A2sState) : A2sState := { s with responsive := false, ping_ms := none }

def probeSteamA2sInfo [Idna] (s : A2sState) (probe : Probe) : A2sState × Except Fault SteamA2SInfo :=
  match (sweepCandidates probe.net probe.targets).2 with
  | .ok (some res) => (s.shown res, .ok res)
  | .ok none | .error .valueError => (s.hidden, .ok (fallback probe.port))
  | .error fault => (s, .error fault)

/-! ## Servers -/

/-- A server that speaks the protocol, with its challenge if it asks for one. -/
structure A2sServer where
  packet : A2sPacket
  challenge : Option (UInt8 × UInt8 × UInt8 × UInt8)
  fits : packet.encode.length ≤ 2048

def challengeBytes (c : UInt8 × UInt8 × UInt8 × UInt8) : Bytes := [c.1, c.2.1, c.2.2.1, c.2.2.2]

def A2sServer.reply (server : A2sServer) (request : Bytes) : Option Bytes :=
  match server.challenge with
  | none => if request = a2sInfoRequest then some server.packet.encode else none
  | some c =>
    if request = a2sInfoRequest ++ challengeBytes c then some server.packet.encode
    else if request = a2sInfoRequest then some (a2sHeader ++ 0x41 :: challengeBytes c)
    else none

/-- The servers that there are, each at a port of a host. Nothing else answers. -/
structure Serves (net : Net) (servers : Text → Int → Option A2sServer) : Prop where
  answer : ∀ ip port server request data, servers ip port = some server → server.reply request = some data →
    ∃ latency, net ip port request = .datagram data latency
  silence : ∀ ip port request, servers ip port = none →
    net ip port request = .unresolved ∨ net ip port request = .raised .timeoutError ∨ net ip port request = .raised .osError

/-- What a server says of itself. -/
def A2sServer.info (server : A2sServer) (latency : ℚ) (port : Int) : SteamA2SInfo where
  responsive := true
  ping_ms := some latency
  server_name := server.packet.server_name.text
  map_name := server.packet.map_name.text
  folder := server.packet.folder.text
  game := server.packet.game.text
  query_port := port
  players := server.packet.players.toNat
  max_players := server.packet.max_players.toNat

section

variable [Idna] {net : Net} {servers : Text → Int → Option A2sServer} {server : A2sServer} {ip : Text} {port : Int}
  {request data : Bytes} {latency : ℚ}

/-- `sendto` takes the address. -/
def Addressable (ip : Text) (port : Int) : Prop := TakesHost ip ∧ ¬ OutOfRange port

instance (ip : Text) (port : Int) : Decidable (Addressable ip port) := inferInstanceAs (Decidable (_ ∧ _))

theorem addressFault_eq_none (net : Net) (h : Addressable ip port) (request : Bytes) : addressFault net ip port request = none := by
  have hint : ¬ (port < -2147483648 ∨ 2147483647 < port) := by
    have hport := h.2
    unfold OutOfRange at hport
    omega
  unfold addressFault
  rw [if_neg (not_not_intro h.1), if_neg hint]
  split
  · rfl
  · exact if_neg h.2

theorem exchange_server (hserves : Serves net servers) (hserver : servers ip port = some server) (haddress : Addressable ip port)
    (hreply : server.reply request = some data) (hfits : data.length ≤ 2048) :
    ∃ latency, exchange net ip port request = .ok (some (data, latency)) := by
  obtain ⟨latency, hnet⟩ := hserves.answer ip port server request data hserver hreply
  refine ⟨latency, ?_⟩
  unfold exchange
  rw [addressFault_eq_none net haddress, hnet]
  dsimp only
  rw [List.take_of_length_le hfits]

omit [Idna] in
theorem parseReply_encode (server : A2sServer) (latency : ℚ) (port : Int) :
    parseReply server.packet.encode latency port = .ok (some (server.info latency port)) := by
  unfold parseReply
  rw [parseA2sPacket_encode]
  rfl

omit [Idna] in
theorem isChallenge_encode (packet : A2sPacket) : isChallenge packet.encode = false := by
  have hkind : packet.encode[4]? = some 0x49 := rfl
  unfold isChallenge
  rw [hkind]
  simp

/-- **A server that answers is understood**, with or without a challenge. -/
theorem converse_server (hserves : Serves net servers) (hserver : servers ip port = some server) (haddress : Addressable ip port) :
    ∃ latency, (converse net ip port).2 = .ok (some (server.info latency port)) := by
  unfold converse
  cases hchallenge : server.challenge with
  | none =>
    have hreply : server.reply a2sInfoRequest = some server.packet.encode := by
      unfold A2sServer.reply
      rw [hchallenge]
      exact if_pos rfl
    obtain ⟨latency, hexchange⟩ := exchange_server hserves hserver haddress hreply server.fits
    rw [hexchange]
    dsimp only
    rw [isChallenge_encode]
    exact ⟨latency, parseReply_encode server latency port⟩
  | some c =>
    have hlonger : a2sInfoRequest ≠ a2sInfoRequest ++ challengeBytes c := by
      intro h
      have hlength := congrArg List.length h
      rw [List.length_append] at hlength
      simp [challengeBytes] at hlength
    have hfirst : server.reply a2sInfoRequest = some (a2sHeader ++ 0x41 :: challengeBytes c) := by
      unfold A2sServer.reply
      rw [hchallenge]
      dsimp only
      rw [if_neg hlonger, if_pos rfl]
    have hsecond : server.reply (a2sInfoRequest ++ challengeBytes c) = some server.packet.encode := by
      unfold A2sServer.reply
      rw [hchallenge]
      exact if_pos rfl
    obtain ⟨latency, hexchange⟩ := exchange_server hserves hserver haddress hfirst (by simp [a2sHeader, challengeBytes])
    obtain ⟨latency', hexchange'⟩ := exchange_server hserves hserver haddress hsecond server.fits
    have hslice : slice (a2sHeader ++ 0x41 :: challengeBytes c) 5 9 = challengeBytes c := rfl
    have hasks : isChallenge (a2sHeader ++ 0x41 :: challengeBytes c) = true := rfl
    rw [hexchange]
    dsimp only
    rw [if_pos hasks, hslice]
    unfold answerTo
    rw [hexchange']
    exact ⟨latency', parseReply_encode server latency' port⟩

theorem converse_silence (hserves : Serves net servers) (hserver : servers ip port = none) (haddress : Addressable ip port) :
    (converse net ip port).2 = .ok none := by
  have hexchange : exchange net ip port a2sInfoRequest = .ok none := by
    unfold exchange
    rw [addressFault_eq_none net haddress]
    rcases hserves.silence ip port a2sInfoRequest hserver with h | h | h
    · rw [h]
    · rw [h]
    · rw [h]
  unfold converse
  rw [hexchange]

/-- The first of the candidates with a server. -/
def firstServer (servers : Text → Int → Option A2sServer) (targets : List (Text × Int)) : Option (Int × A2sServer) :=
  targets.findSome? fun target => (servers target.1 target.2).map fun server => (target.2, server)

theorem sweep_serves (hserves : Serves net servers) {targets : List (Text × Int)}
    (haddresses : ∀ target ∈ targets, Addressable target.1 target.2) :
    match firstServer servers targets with
    | none => (sweepCandidates net targets).2 = .ok none
    | some (port, server) => ∃ latency, (sweepCandidates net targets).2 = .ok (some (server.info latency port)) := by
  induction targets with
  | nil => rfl
  | cons target targets ih =>
    obtain ⟨tip, tport⟩ := target
    rw [List.forall_mem_cons] at haddresses
    unfold firstServer sweepCandidates executeA2sSocketQuery
    rw [List.findSome?_cons]
    cases hserver : servers tip tport with
    | none =>
      dsimp only
      rw [converse_silence hserves hserver haddresses.1]
      exact ih haddresses.2
    | some server =>
      obtain ⟨latency, hconverse⟩ := converse_server hserves hserver haddresses.1
      refine ⟨latency, ?_⟩
      dsimp only
      rw [hconverse]

end

/-! ## Runs of probes -/

section

variable [Idna]

def probeAll (s : A2sState) (probes : List Probe) : A2sState := probes.foldl (fun s probe => (probeSteamA2sInfo s probe).1) s

theorem probeAll_snoc (s : A2sState) (probes : List Probe) (probe : Probe) :
    probeAll s (probes ++ [probe]) = (probeSteamA2sInfo (probeAll s probes) probe).1 := by
  unfold probeAll
  rw [List.foldl_append]
  rfl

/-- A probe, with the servers that are there. Its host can be encoded, and its ports are ports. -/
structure Round where
  probe : Probe
  servers : Text → Int → Option A2sServer
  serves : Serves probe.net servers
  host : TakesHost probe.host
  ports : ∀ target ∈ probe.targets, ¬ OutOfRange target.2

theorem Round.addressable (round : Round) : ∀ target ∈ round.probe.targets, Addressable target.1 target.2 := by
  intro target htarget
  refine ⟨?_, round.ports target htarget⟩
  obtain ⟨tip, htip, hports⟩ := List.mem_flatMap.mp htarget
  obtain ⟨tport, -, rfl⟩ := List.mem_map.mp hports
  have hloopback : TakesHost (lit "127.0.0.1") := ⟨by decide, .inl (forall_of_all (by decide))⟩
  unfold Probe.targetHosts at htip
  split at htip
  · rcases List.mem_pair.mp htip with rfl | rfl
    · exact hloopback
    · exact round.host
  · rw [List.mem_singleton.mp htip]
    exact hloopback

def Round.found (round : Round) : Option (Int × A2sServer) := firstServer round.servers round.probe.targets

/-- The servers that were found. -/
def answered (rounds : List Round) : List (Int × A2sServer) := rounds.filterMap Round.found

/-- The last name that is not empty. -/
def lastName (name : A2sPacket → CString) (found : List (Int × A2sServer)) : Option Text :=
  ((found.map fun f => (name f.2.packet).text).filter (· ≠ [])).getLast?

structure Shows (rounds : List Round) (s : A2sState) : Prop where
  responsive : s.responsive = (rounds.getLast?.bind Round.found).isSome
  ping : s.ping_ms.isSome = s.responsive
  server_name : s.server_name = lastName A2sPacket.server_name (answered rounds)
  map_name : s.map_name = lastName A2sPacket.map_name (answered rounds)
  numbers : (s.query_port, s.players, s.max_players) =
    match (answered rounds).getLast? with
    | none => (27015, 0, 32)
    | some (port, server) => (port, (server.packet.players.toNat : Int), (server.packet.max_players.toNat : Int))

omit [Idna] in
theorem lastName_snoc (name : A2sPacket → CString) (found : List (Int × A2sServer)) (port : Int) (server : A2sServer) :
    lastName name (found ++ [(port, server)]) = orBefore (name server.packet).text (lastName name found) := by
  unfold lastName orBefore
  rw [List.map_append, List.filter_append]
  split
  · rename_i hempty
    simp [hempty]
  · rename_i hname
    simp [hname]

theorem answered_snoc (rounds : List Round) (round : Round) : answered (rounds ++ [round]) = answered rounds ++ round.found.toList := by
  unfold answered
  rw [List.filterMap_append]
  cases hfound : round.found with
  | none => simp [hfound]
  | some found => simp [hfound]

theorem shows_step {rounds : List Round} {s : A2sState} (h : Shows rounds s) (round : Round) :
    Shows (rounds ++ [round]) (probeSteamA2sInfo s round.probe).1 := by
  have hsweep := sweep_serves round.serves round.addressable
  have hlast : ((rounds ++ [round]).getLast?.bind Round.found) = round.found := by
    rw [List.getLast?_concat]
    rfl
  have hanswered := answered_snoc rounds round
  unfold probeSteamA2sInfo
  cases hfound : round.found with
  | none =>
    have hnone : (sweepCandidates round.probe.net round.probe.targets).2 = .ok none := by
      unfold Round.found at hfound
      rw [hfound] at hsweep
      exact hsweep
    rw [hnone]
    rw [hfound] at hlast hanswered
    rw [Option.toList_none, List.append_nil] at hanswered
    constructor
    · rw [hlast]
      rfl
    · rfl
    · rw [hanswered]
      exact h.server_name
    · rw [hanswered]
      exact h.map_name
    · rw [hanswered]
      exact h.numbers
  | some found =>
    obtain ⟨port, server⟩ := found
    obtain ⟨latency, hsome⟩ : ∃ latency, (sweepCandidates round.probe.net round.probe.targets).2 = .ok (some (server.info latency port)) := by
      unfold Round.found at hfound
      rw [hfound] at hsweep
      exact hsweep
    rw [hsome]
    rw [hfound] at hlast hanswered
    rw [Option.toList_some] at hanswered
    constructor
    · rw [hlast]
      rfl
    · rfl
    · rw [hanswered, lastName_snoc, ← h.server_name]
      rfl
    · rw [hanswered, lastName_snoc, ← h.map_name]
      rfl
    · rw [hanswered, List.getLast?_concat]
      rfl

/-- **The telemetry shows the game server.** After any probes it says whether the last of them found a server, with the port and the
numbers of the last server that was found, and the last names that were not empty. -/
theorem telemetry_shows (rounds : List Round) : Shows rounds (probeAll .new (rounds.map Round.probe)) := by
  induction rounds using List.reverseRecOn with
  | nil => exact ⟨rfl, rfl, rfl, rfl, rfl⟩
  | append_singleton rounds round ih =>
    rw [List.map_append, List.map_singleton, probeAll_snoc]
    exact shows_step ih round

end

/-- A network in which each server answers, and nothing else does. -/
def netOf (servers : Text → Int → Option A2sServer) : Net := fun ip port request =>
  match (servers ip port).bind fun server => server.reply request with
  | some data => .datagram data 12
  | none => .raised .timeoutError

theorem serves_netOf (servers : Text → Int → Option A2sServer) : Serves (netOf servers) servers where
  answer ip port server request data hserver hreply := by
    refine ⟨12, ?_⟩
    unfold netOf
    rw [hserver, Option.bind_some, hreply]
  silence ip port request hserver := by
    unfold netOf
    rw [hserver]
    exact .inr (.inl rfl)

def challenger : A2sServer where
  packet := ⟨17, ⟨lit "Pal", by decide⟩, ⟨[], by decide⟩, ⟨[], by decide⟩, ⟨[], by decide⟩, (0, 0), 3, 32, []⟩
  challenge := some (0x41, 0xff, 0, 7)
  fits := by decide +kernel

def challengerOnly (ip : Text) (port : Int) : Option A2sServer := if ip = lit "127.0.0.1" ∧ port = 27015 then some challenger else none

section

attribute [local instance] Idna.none

def challengerRound : Round :=
  ⟨⟨lit "localhost", 8211, [], netOf challengerOnly⟩, challengerOnly, serves_netOf _, ⟨by decide, .inl (forall_of_all (by decide))⟩,
    forall_of_all (by decide +kernel)⟩

/-- A server with a challenge, at the second port. -/
theorem telemetry_shows_challenger : Shows [challengerRound] (probeAll .new [challengerRound.probe]) ∧
    (probeAll .new [challengerRound.probe]).players = 3 :=
  ⟨telemetry_shows [challengerRound], by decide +kernel⟩

end

/-! ## Networks that say anything -/

/-- What one query of a candidate does. The second request carries back four bytes of a challenge. -/
inductive Query (target : Text × Int) : List SocketEvent → Prop
  | once : Query target [.opened, .sent target a2sInfoRequest, .closed]
  | twice (challenge : Bytes) (hlength : challenge.length = 4) :
    Query target [.opened, .sent target a2sInfoRequest, .sent target (a2sInfoRequest ++ challenge), .closed]

structure SaneInfo (port : Int) (res : SteamA2SInfo) : Prop where
  ping : res.ping_ms.isSome = true
  players : 0 ≤ res.players ∧ res.players ≤ 255
  max_players : 0 ≤ res.max_players ∧ res.max_players ≤ 255
  query_port : res.query_port = port

structure Sane (s : A2sState) : Prop where
  ping : s.ping_ms.isSome = s.responsive
  players : 0 ≤ s.players ∧ s.players ≤ 255
  max_players : 0 ≤ s.max_players ∧ s.max_players ≤ 255
  query_port : ¬ OutOfRange s.query_port

section

variable [Idna] {net : Net} {ip : Text} {port : Int} {data : Bytes} {latency : ℚ}

omit [Idna] in
theorem playerCounts_bounds {offset : Nat} {counts : Int × Int} (h : playerCounts data offset = .ok counts) :
    (0 ≤ counts.1 ∧ counts.1 ≤ 255) ∧ 0 ≤ counts.2 ∧ counts.2 ≤ 255 := by
  unfold playerCounts at h
  split at h
  · rename_i hlong
    rw [byteAt_ok (i := offset + 2) (by omega), byteAt_ok (i := offset + 3) (by omega)] at h
    cases h
    have hplayers := (data.get ⟨offset + 2, by omega⟩).toNat_lt
    have hmax := (data.get ⟨offset + 3, by omega⟩).toNat_lt
    simp only [List.get_eq_getElem] at hplayers hmax
    dsimp only
    omega
  · cases h
    omega

omit [Idna] in
theorem parse_sane (hown : 6 ≤ data.length ∧ HasHeader data) (latency : ℚ) (port : Int) :
    ∃ info, parseA2sPacket data (some latency) port = .ok info ∧ info.responsive = true ∧ SaneInfo port info := by
  obtain ⟨counts, hcounts⟩ := playerCounts_ok data (readFields 4 data 6 []).2
  obtain ⟨hplayers, hmax⟩ := playerCounts_bounds hcounts
  unfold parseA2sPacket
  rw [isForeign_ok, decide_eq_false (not_not_intro hown)]
  generalize readFields 4 data 6 [] = read at hcounts ⊢
  obtain ⟨fields, offset⟩ := read
  dsimp only at hcounts ⊢
  rw [hcounts]
  exact ⟨_, rfl, rfl, rfl, hplayers, hmax, rfl⟩

omit [Idna] in
theorem parseReply_cases (data : Bytes) (latency : ℚ) (port : Int) :
    parseReply data latency port = .ok none ∨ ∃ res, parseReply data latency port = .ok (some res) ∧ SaneInfo port res := by
  unfold parseReply
  by_cases hown : 6 ≤ data.length ∧ HasHeader data
  · obtain ⟨info, hinfo, hresponsive, hsane⟩ := parse_sane hown latency port
    rw [hinfo]
    dsimp only
    rw [if_pos hresponsive]
    exact .inr ⟨info, rfl, hsane⟩
  · obtain ⟨info, hinfo, hforeign⟩ := parseA2sPacket_ok data (some latency) port
    rw [if_neg hown] at hforeign
    rw [hinfo, hforeign]
    exact .inl rfl

/-- What a query comes to, once `sendto` has taken the address. -/
inductive Outcome (port : Int) : Except Fault (Option SteamA2SInfo) → Prop
  | nothing : Outcome port (.ok none)
  | answered {res : SteamA2SInfo} (hsane : SaneInfo port res) (hport : ¬ OutOfRange port) : Outcome port (.ok (some res))
  | invalid : Outcome port (.error .valueError)

/-- A datagram only comes from an address that `sendto` takes. -/
theorem exchange_cases {request : Bytes} (h : addressFault net ip port request = none) :
    exchange net ip port request = .ok none ∨ exchange net ip port request = .error .valueError ∨
      ∃ data latency, exchange net ip port request = .ok (some (data, latency)) ∧ Addressable ip port := by
  unfold exchange
  rw [h]
  dsimp only
  split
  · rename_i data latency hnet
    unfold addressFault at h
    rw [hnet] at h
    split_ifs at h with hhost hint hport
    exact .inr (.inr ⟨_, _, rfl, hhost, hport⟩)
  · exact .inl rfl
  · exact .inl rfl
  · exact .inl rfl
  · exact .inr (.inl rfl)

omit [Idna] in
theorem outcome_parseReply (data : Bytes) (latency : ℚ) (hport : ¬ OutOfRange port) : Outcome port (parseReply data latency port) := by
  rcases parseReply_cases data latency port with h | ⟨res, h, hsane⟩
  · rw [h]
    exact .nothing
  · rw [h]
    exact .answered hsane hport

theorem outcome_answerTo (net : Net) (haddress : Addressable ip port) (request : Bytes) : Outcome port (answerTo net ip port request) := by
  unfold answerTo
  rcases exchange_cases (addressFault_eq_none net haddress request) with h | h | ⟨data, latency, h, -⟩
  · rw [h]
    exact .nothing
  · rw [h]
    exact .invalid
  · rw [h]
    exact outcome_parseReply data latency haddress.2

theorem converse_fault {fault : Fault} (h : addressFault net ip port a2sInfoRequest = some fault) :
    (converse net ip port).2 = .error fault := by
  unfold converse exchange
  rw [h]

theorem outcome_converse (h : addressFault net ip port a2sInfoRequest = none) : Outcome port (converse net ip port).2 := by
  unfold converse
  rcases exchange_cases h with h | h | ⟨data, latency, h, haddress⟩
  · rw [h]
    exact .nothing
  · rw [h]
    exact .invalid
  · rw [h]
    dsimp only
    split
    · exact outcome_answerTo net haddress _
    · exact outcome_parseReply data latency haddress.2

theorem query_execute (net : Net) (ip : Text) (port : Int) : Query (ip, port) (executeA2sSocketQuery net ip port).1 := by
  unfold executeA2sSocketQuery converse
  dsimp only
  split
  · exact .once
  · exact .once
  · rename_i data latency _
    split
    · rename_i hchallenge
      refine .twice (slice data 5 9) ?_
      unfold isChallenge at hchallenge
      simp only [ge_iff_le, Bool.and_eq_true, decide_eq_true_eq] at hchallenge
      simp only [slice, List.length_drop, List.length_take]
      omega
    · exact .once

/-- The queries of a sweep: the first candidates, one after the other. -/
theorem queries_sweep (net : Net) (targets : List (Text × Int)) :
    ∃ asked queries, asked <+: targets ∧ List.Forall₂ Query asked queries ∧ (sweepCandidates net targets).1 = queries.flatten := by
  induction targets with
  | nil => exact ⟨[], [], List.prefix_refl _, .nil, rfl⟩
  | cons target targets ih =>
    obtain ⟨tip, tport⟩ := target
    obtain ⟨asked, queries, hasked, hqueries, hevents⟩ := ih
    have hquery := query_execute net tip tport
    unfold sweepCandidates
    split
    · rename_i events hexecute
      rw [hexecute] at hquery
      refine ⟨(tip, tport) :: asked, events :: queries, List.cons_prefix_cons.mpr ⟨rfl, hasked⟩, .cons hquery hqueries, ?_⟩
      rw [hevents]
      rfl
    · rename_i events outcome _ hexecute
      rw [hexecute] at hquery
      exact ⟨[(tip, tport)], [events], List.cons_prefix_cons.mpr ⟨rfl, List.nil_prefix⟩, .cons hquery .nil, by simp⟩

/-- The sweep comes to an address that `sendto` does not take, and nothing before it answers. -/
def Meets (net : Net) (targets : List (Text × Int)) (fault : Fault) : Prop :=
  ∃ before target behind, targets = before ++ target :: behind ∧ addressFault net target.1 target.2 a2sInfoRequest = some fault ∧
    ∀ t ∈ before, (executeA2sSocketQuery net t.1 t.2).2 = .ok none

theorem meets_cons (net : Net) (target : Text × Int) (targets : List (Text × Int)) (fault : Fault) :
    Meets net (target :: targets) fault ↔ addressFault net target.1 target.2 a2sInfoRequest = some fault ∨
      (executeA2sSocketQuery net target.1 target.2).2 = .ok none ∧ Meets net targets fault := by
  constructor
  · rintro ⟨before, bad, behind, htargets, hbad, hbefore⟩
    cases before with
    | nil =>
      cases htargets
      exact .inl hbad
    | cons first before =>
      cases htargets
      rw [List.forall_mem_cons] at hbefore
      exact .inr ⟨hbefore.1, before, bad, behind, rfl, hbad, hbefore.2⟩
  · rintro (hbad | ⟨hnone, before, bad, behind, rfl, hbad, hbefore⟩)
    · exact ⟨[], target, targets, rfl, hbad, by simp⟩
    · refine ⟨target :: before, bad, behind, rfl, hbad, ?_⟩
      rw [List.forall_mem_cons]
      exact ⟨hnone, hbefore⟩

theorem sweep_next {target : Text × Int} {targets : List (Text × Int)} (h : (executeA2sSocketQuery net target.1 target.2).2 = .ok none) :
    (sweepCandidates net (target :: targets)).2 = (sweepCandidates net targets).2 := by
  rw [sweepCandidates]
  split
  · rfl
  · rename_i events outcome hother hexecute
    rw [hexecute] at h
    exact absurd h (hother · )

theorem sweep_last {target : Text × Int} {targets : List (Text × Int)} (h : (executeA2sSocketQuery net target.1 target.2).2 ≠ .ok none) :
    (sweepCandidates net (target :: targets)).2 = (executeA2sSocketQuery net target.1 target.2).2 := by
  rw [sweepCandidates]
  split
  · rename_i events hexecute
    rw [hexecute] at h
    exact absurd rfl h
  · rename_i events outcome _ hexecute
    rw [hexecute]

/-- What a sweep comes to. -/
inductive SweepOutcome (net : Net) (targets : List (Text × Int)) (outcome : Except Fault (Option SteamA2SInfo)) : Prop
  | quiet (hmeets : ∀ fault, ¬ Meets net targets fault) (houtcome : ∃ port, Outcome port outcome)
  | refused (fault : Fault) (hfault : fault = .typeError ∨ fault = .overflowError)
    (hmeets : ∀ other, Meets net targets other ↔ other = fault) (houtcome : outcome = .error fault)

theorem addressFault_cases {fault : Fault} {request : Bytes} (h : addressFault net ip port request = some fault) :
    fault = .typeError ∨ fault = .overflowError := by
  unfold addressFault at h
  split at h
  · exact .inl (Option.some.inj h).symm
  · split at h
    · exact .inr (Option.some.inj h).symm
    · split at h
      · cases h
      · split at h
        · exact .inr (Option.some.inj h).symm
        · cases h

theorem sweep_outcome (net : Net) (targets : List (Text × Int)) : SweepOutcome net targets (sweepCandidates net targets).2 := by
  induction targets with
  | nil =>
    refine .quiet ?_ ⟨0, .nothing⟩
    rintro fault ⟨before, bad, behind, h, -, -⟩
    simp at h
  | cons target targets ih =>
    cases haddress : addressFault net target.1 target.2 a2sInfoRequest with
    | some fault =>
      have hexecute : (executeA2sSocketQuery net target.1 target.2).2 = .error fault := converse_fault haddress
      rw [sweep_last (by rw [hexecute]; simp), hexecute]
      refine .refused fault (addressFault_cases haddress) (fun other => ?_) rfl
      rw [meets_cons, haddress, hexecute, Option.some_inj]
      simp [eq_comm]
    | none =>
      have houtcome : Outcome target.2 (executeA2sSocketQuery net target.1 target.2).2 := outcome_converse haddress
      by_cases hnone : (executeA2sSocketQuery net target.1 target.2).2 = .ok none
      · have hmeets : ∀ fault, Meets net (target :: targets) fault ↔ Meets net targets fault := by
          intro fault
          rw [meets_cons, haddress, hnone]
          simp
        rw [sweep_next hnone]
        cases ih with
        | quiet hrest houtcome => exact .quiet (fun fault => mt (hmeets fault).mp (hrest fault)) houtcome
        | refused fault hfault hrest houtcome => exact .refused fault hfault (fun other => (hmeets other).trans (hrest other)) houtcome
      · rw [sweep_last hnone]
        refine .quiet (fun fault => ?_) ⟨target.2, houtcome⟩
        rw [meets_cons, haddress]
        simp [hnone]

omit [Idna] in
theorem nodup_probedPorts (probe : Probe) : probe.probedPorts.Nodup := by
  have hfold : ∀ candidates ports : List Int, ports.Nodup →
      (candidates.foldl (fun ports candidate => if candidate ∈ ports then ports else ports ++ [candidate]) ports).Nodup := by
    intro candidates
    induction candidates with
    | nil => exact fun ports h => h
    | cons candidate candidates ih =>
      intro ports h
      refine ih _ ?_
      dsimp only
      split
      · exact h
      · rename_i hnew
        exact List.nodup_append.mpr ⟨h, List.nodup_singleton _, by
          intro a ha b hb
          rw [List.mem_singleton.mp hb]
          rintro rfl
          exact hnew ha⟩
  exact hfold _ [] List.nodup_nil

omit [Idna] in
theorem nodup_targets (probe : Probe) : probe.targets.Nodup := by
  have hhosts : probe.targetHosts.Nodup := by
    unfold Probe.targetHosts
    split
    · rename_i h
      simpa using Ne.symm h.2.1
    · exact List.nodup_singleton _
  exact hhosts.product (nodup_probedPorts probe)

/-- What a probe does to the state, whatever the network says. -/
structure Contained (s : A2sState) (probe : Probe) : Prop where
  candidates : probe.targets.Nodup
  queries : ∃ asked queries, asked <+: probe.targets ∧ List.Forall₂ Query asked queries ∧
    (sweepCandidates probe.net probe.targets).1 = queries.flatten
  raises : ∀ fault, (probeSteamA2sInfo s probe).2 = .error fault ↔ Meets probe.net probe.targets fault
  faults : ∀ fault, Meets probe.net probe.targets fault → fault = .typeError ∨ fault = .overflowError
  unchanged : ∀ fault, Meets probe.net probe.targets fault → (probeSteamA2sInfo s probe).1 = s

theorem probe_contained {s : A2sState} (h : Sane s) (probe : Probe) : Contained s probe ∧ Sane (probeSteamA2sInfo s probe).1 := by
  have hqueries := queries_sweep probe.net probe.targets
  have hhidden : Sane s.hidden := ⟨rfl, h.players, h.max_players, h.query_port⟩
  rcases sweep_outcome probe.net probe.targets with ⟨hmeets, port, houtcome⟩ | ⟨fault, hfault, hmeets, houtcome⟩
  · have hreturns : (∃ info, (probeSteamA2sInfo s probe).2 = .ok info) ∧ Sane (probeSteamA2sInfo s probe).1 := by
      unfold probeSteamA2sInfo
      generalize (sweepCandidates probe.net probe.targets).2 = outcome at houtcome
      cases houtcome with
      | nothing => exact ⟨⟨_, rfl⟩, hhidden⟩
      | invalid => exact ⟨⟨_, rfl⟩, hhidden⟩
      | answered hsane hport =>
        rw [← hsane.query_port] at hport
        exact ⟨⟨_, rfl⟩, hsane.ping, hsane.players, hsane.max_players, hport⟩
    obtain ⟨⟨info, hinfo⟩, hsane⟩ := hreturns
    refine ⟨⟨nodup_targets probe, hqueries, fun fault => ?_, fun fault hbad => absurd hbad (hmeets fault),
      fun fault hbad => absurd hbad (hmeets fault)⟩, hsane⟩
    rw [hinfo]
    exact iff_of_false (by simp) (hmeets fault)
  · have hraises : probeSteamA2sInfo s probe = (s, .error fault) := by
      unfold probeSteamA2sInfo
      rw [houtcome]
      rcases hfault with rfl | rfl <;> rfl
    rw [hraises]
    refine ⟨⟨nodup_targets probe, hqueries, fun other => ?_, fun other hother => ?_, fun _ _ => by rw [hraises]⟩, h⟩
    · rw [hraises, hmeets other, Except.error.injEq, eq_comm]
    · rw [(hmeets other).mp hother]
      exact hfault

/-- **Whatever the network says**, the numbers of the telemetry are in their bounds, a probe asks each candidate at most once and in at
most two datagrams, closes each socket before it opens the next, and raises exactly where it comes to an address that `sendto` does
not take. -/
theorem probes_contained (probes : List Probe) (probe : Probe) :
    Sane (probeAll .new probes) ∧ Contained (probeAll .new probes) probe := by
  have hsane : Sane (probeAll .new probes) := by
    induction probes using List.reverseRecOn with
    | nil =>
      show Sane .new
      exact ⟨rfl, by decide, by decide, by decide⟩
    | append_singleton probes last ih =>
      rw [probeAll_snoc]
      exact (probe_contained ih last).2
  exact ⟨hsane, (probe_contained hsane probe).1⟩

end

end Palworld.Tracker

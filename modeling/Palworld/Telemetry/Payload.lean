import Palworld.Config.Pipeline
import Palworld.Supervisor.Protocol

/-!
# What the public endpoints send

`GET /api/settings`, `GET /ready`, `GET /api/tracker/community` and the streamer behind
`/ws/telemetry` build their documents one by one. None of them asks who the client is.
-/

open Lib
open Palworld.Config (Settings getPublicView)
open Palworld.Supervisor (Json)

namespace Palworld.Telemetry

def object (fields : List (String × Json)) : Json := .object (fields.map fun field => (lit field.1, field.2))

def text (s : String) : Json := .str s.toList

def shown (n : Int) : Text := (toString n).toList

/-- `settings`, as far as the endpoints read it. -/
structure AppSettings where
  serverName : Text
  serverPassword : Text
  hostIp : Text
  publicPort : Int
  queryPort : Int
  rconPort : Int
  rconEnabled : Bool
  restApiPort : Int

/-- The configuration of the engine, fixed when it starts. -/
structure EngineConfig where
  serverName : Text
  restPort : Int

/-! ## Readiness -/

/-- What the game server's REST API answers to `GET /info`. -/
inductive RestProbe
  | info (version : Json) (servername : Option Json)  -- status 200
  | status (code : Int)
  | timeout
  | connectError
  | httpError (err : Text)

structure ReadinessInfo where
  ready : Bool
  version : Json
  serverName : Json
  diagnosticCode : Text
  diagnosticMessage : Text

def notReady (config : EngineConfig) (code message : Text) : ReadinessInfo :=
  ⟨false, .null, .str config.serverName, code, message⟩

def checkReadiness (config : EngineConfig) : RestProbe → ReadinessInfo
  | .info version servername =>
    ⟨true, version, servername.getD (.str config.serverName), lit "OK", lit "Palworld REST API operational."⟩
  | .status code =>
    if code = 401 then
      notReady config (lit "UNAUTHORIZED") (lit "Authentication failed (HTTP 401). " ++
        lit "Verify AdminPassword in PalWorldSettings.ini matches engine configuration.")
    else
      notReady config (lit "ERROR") (lit "Palworld REST probe returned unexpected HTTP status " ++ shown code ++ lit ".")
  | .timeout =>
    notReady config (lit "TIMEOUT") (lit "Palworld REST probe timed out after 2.0s (server may be hanging or booting).")
  | .connectError =>
    notReady config (lit "CONNECTION_REFUSED") (lit "Connection refused on port " ++ shown config.restPort ++
      lit ". Palworld server is offline or starting.")
  | .httpError err => notReady config (lit "ERROR") (lit "HTTP probe communication error: " ++ err)

/-- A response: its status and its body. -/
abbrev Http := Nat × Json

def readinessCheck (readiness : ReadinessInfo) : Http :=
  if readiness.ready then
    (200, object [("status", text "ready"), ("server_name", readiness.serverName), ("version", readiness.version),
      ("diagnostic_code", .str readiness.diagnosticCode)])
  else
    let detail := if readiness.diagnosticMessage = [] then lit "Palworld server engine is starting or unreachable."
      else readiness.diagnosticMessage
    (503, object [("detail", .str detail)])

/-! ## The tracker -/

/-- The tracker after its probes, and what they returned. -/
structure Tracker where
  serverName : Text
  domain : Text
  listed : Bool              -- `pocketpair`
  serverId : Json
  listedName : Json
  listedVersion : Json
  cachedPublicIp : Text      -- `dns`
  cachedDnsIp : Text
  responsive : Bool          -- `a2s`
  pingMs : Json
  a2sServerName : Option Text
  mapName : Option Text
  a2sQueryPort : Int
  players : Int
  a2sMaxPlayers : Int
  registered : Bool          -- `log_res.get("registered")`
  logScraper : Json          -- `log_res`
  resolvedLanIp : Text       -- `resolve_host_lan_ip()`

/-- The keyword arguments of `get_combined_telemetry`, with their defaults. -/
structure TelemetryArgs where
  hostIp : Text
  publicPort : Int
  serverPassword : Text
  rconPort : Int
  rconEnabled : Bool
  restPort : Int
  isMultiplay : Bool := true
  maxPlayers : Int := 32
  currentPlayers : Int := 0

/-- `get_tracker_telemetry_kwargs`. The query port is for the probes only. -/
def getTrackerTelemetryKwargs (settings : AppSettings) : TelemetryArgs where
  hostIp := settings.hostIp
  publicPort := settings.publicPort
  serverPassword := settings.serverPassword
  rconPort := settings.rconPort
  rconEnabled := settings.rconEnabled
  restPort := settings.restApiPort

def badge (label : Text) (style dot : String) : Json :=
  object [("label", .str label), ("style", text style), ("dot", text dot)]

def address (host : Text) (port : Int) : Text := host ++ ':' :: shown port

def buildTopBadge (tracker : Tracker) (isMultiplay : Bool) (directHost : Text) (port : Int) : Json :=
  if tracker.listed then
    badge (lit "Community Listed") "bg-emerald-900/60 border border-emerald-500/50 text-emerald-300 font-bold"
      "bg-emerald-400"
  else if tracker.registered then
    badge (lit "Console Search Ready") "bg-brand-900/60 border border-brand-500/50 text-brand-300 font-bold"
      "bg-brand-400 animate-pulse"
  else if !isMultiplay then
    badge (lit "Private Server") "bg-slate-800 border border-slate-700 text-slate-300" "bg-slate-400"
  else
    badge (lit "Direct Connect (" ++ address directHost port ++ lit ")")
      "bg-amber-900/60 border border-amber-500/50 text-amber-300" "bg-amber-400"

def buildDiscoveryHub (tracker : Tracker) (directConnectHost lanIp : Text) (publicPort : Int) : Json :=
  object
    [("log_scraper", tracker.logScraper),
      ("pocketpair_master", object
        [("listed", .bool tracker.listed), ("server_id", tracker.serverId), ("name", tracker.listedName),
          ("version", tracker.listedVersion),
          ("status_label", text (if tracker.listed then "OFFICIALLY LISTED" else "COMMUNITY / DIRECT MODE")),
          ("status_color", text (if tracker.listed then "emerald" else "amber"))]),
      ("network_matrix", object
        [("public_ip", .str tracker.cachedPublicIp), ("dns_ip", .str tracker.cachedDnsIp), ("domain", .str tracker.domain),
          ("is_aligned", .bool (tracker.cachedPublicIp = tracker.cachedDnsIp)), ("lan_ip", .str lanIp),
          ("public_port", .int publicPort), ("direct_connect_addr", .str (address directConnectHost publicPort)),
          ("lan_connect_addr", .str (address lanIp publicPort))])]

def buildSecurityMatrix (args : TelemetryArgs) : Json :=
  object
    [("is_password_protected", .bool (args.serverPassword ≠ [])),
      ("password_status_label",
        text (if args.serverPassword ≠ [] then "🔒 Password Protected" else "🔓 Public Access (No Password)")),
      ("server_password", .str args.serverPassword),
      ("rcon_port", .int args.rconPort),
      ("rcon_enabled", .bool args.rconEnabled),
      ("rcon_advisory", text (if args.rconEnabled then "enabled_warn" else "disabled_ok")),
      ("rest_port", .int args.restPort),
      ("max_players", .int args.maxPlayers),
      ("current_players", .int args.currentPlayers),
      ("slot_capacity_label",
        .str (shown args.currentPlayers ++ lit " / " ++ shown args.maxPlayers ++ lit " Tamers"))]

/-- `name or fallback`. -/
def orElse (name : Option Text) (fallback : Text) : Text := (name.filter (· ≠ [])).getD fallback

def buildA2sTelemetry (tracker : Tracker) : Json :=
  object
    [("responsive", .bool tracker.responsive),
      ("ping_ms", tracker.pingMs),
      ("server_name", .str (orElse tracker.a2sServerName tracker.serverName)),
      ("map_name", .str (orElse tracker.mapName (lit "Pal/Maps/World"))),
      ("folder", text "Pal"),
      ("game", text "Palworld"),
      ("query_port", .int tracker.a2sQueryPort),
      ("players", .int tracker.players),
      ("max_players", .int tracker.a2sMaxPlayers)]

structure CombinedTelemetry where
  topBadge : Json
  discoveryHub : Json
  a2sTelemetry : Json
  securityMatrix : Json

def getCombinedTelemetry (tracker : Tracker) (args : TelemetryArgs) : CombinedTelemetry :=
  let lanIp := if args.hostIp ≠ [] ∧ args.hostIp ≠ lit "127.0.0.1" then args.hostIp else tracker.resolvedLanIp
  let directConnectHost :=
    if tracker.domain ≠ [] ∧ afterFirst (lit "yourdomain") tracker.domain = none then tracker.domain
    else if tracker.cachedPublicIp ≠ lit "Detecting..." then tracker.cachedPublicIp
    else lanIp
  { topBadge := buildTopBadge tracker args.isMultiplay directConnectHost args.publicPort
    discoveryHub := buildDiscoveryHub tracker directConnectHost lanIp args.publicPort
    a2sTelemetry := buildA2sTelemetry tracker
    securityMatrix := buildSecurityMatrix args }

def communityTrackerData (settings : AppSettings) (tracker : Tracker) : Http :=
  let data := getCombinedTelemetry tracker (getTrackerTelemetryKwargs settings)
  (200, object
    [("status", text "success"),
      ("data", object
        [("top_badge", data.topBadge), ("discovery_hub", data.discoveryHub), ("a2s_telemetry", data.a2sTelemetry),
          ("security_matrix", data.securityMatrix)])])

/-! ## The streamer -/

/-- What one round of the streamer has gathered. -/
structure Round where
  liveness : Bool
  probe : RestProbe
  serverFps : Json           -- `get_engine_metrics`
  serverFrameTimeMs : Json
  uptimeSeconds : Json
  days : Json
  maxPlayers : Int
  currentPlayers : Int
  activeCount : Int          -- `update_and_get_players`
  totalRegistered : Int
  activePlayers : Json
  offlinePlayers : Json
  hardware : Json            -- `get_hardware_telemetry`
  tracker : Tracker

/-- The payload of `telemetry_streamer`. There is no `bIsMultiplay` among the settings. -/
def telemetryPayload (config : EngineConfig) (settings : AppSettings) (round : Round) : Json :=
  let readiness := checkReadiness config round.probe
  let combined := getCombinedTelemetry round.tracker
    { getTrackerTelemetryKwargs settings with maxPlayers := round.maxPlayers, currentPlayers := round.currentPlayers }
  object
    [("type", text "TELEMETRY"),
      ("data", object
        [("liveness", .bool round.liveness),
          ("readiness", .bool readiness.ready),
          ("version", readiness.version),
          ("diagnostic_code", .str readiness.diagnosticCode),
          ("diagnostic_message", .str readiness.diagnosticMessage),
          ("server_name", .str settings.serverName),
          ("server_password", .str settings.serverPassword),
          ("server_fps", round.serverFps),
          ("server_frame_time_ms", round.serverFrameTimeMs),
          ("uptime_seconds", round.uptimeSeconds),
          ("days", round.days),
          ("active_players", .int round.activeCount),
          ("total_registered", .int round.totalRegistered),
          ("max_players", .int round.maxPlayers),
          ("players_list", round.activePlayers),
          ("offline_players", round.offlinePlayers),
          ("hardware", round.hardware),
          ("top_badge", combined.topBadge),
          ("discovery_hub", combined.discoveryHub),
          ("a2s_telemetry", combined.a2sTelemetry),
          ("security_matrix", combined.securityMatrix)])]

/-! ## Where the password is -/

theorem securityMatrix_password {args args' : TelemetryArgs} (h : buildSecurityMatrix args = buildSecurityMatrix args') :
    args.serverPassword = args'.serverPassword := by
  simp only [buildSecurityMatrix, object, List.map_cons, List.map_nil, Json.object.injEq, List.cons.injEq, Prod.mk.injEq,
    Json.str.injEq, true_and] at h
  exact h.2.2.1

theorem communityTrackerData_password {settings settings' : AppSettings} {tracker : Tracker}
    (h : communityTrackerData settings tracker = communityTrackerData settings' tracker) :
    settings.serverPassword = settings'.serverPassword := by
  simp only [communityTrackerData, object, List.map_cons, List.map_nil, Json.object.injEq, List.cons.injEq, Prod.mk.injEq,
    true_and, and_true] at h
  exact securityMatrix_password h.2.2.2

theorem telemetryPayload_password {config config' : EngineConfig} {settings settings' : AppSettings} {round : Round}
    (h : telemetryPayload config settings round = telemetryPayload config' settings' round) :
    settings.serverPassword = settings'.serverPassword := by
  simp only [telemetryPayload, object, List.map_cons, List.map_nil, Json.object.injEq, List.cons.injEq, Prod.mk.injEq,
    Json.str.injEq, true_and, and_true] at h
  exact h.2.2.2.2.2.1

end Palworld.Telemetry

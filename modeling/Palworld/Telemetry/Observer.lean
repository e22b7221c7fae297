import Palworld.Telemetry.Payload

/-!
# What an anonymous client sees of the join password

Two portals go through the same exchanges. Their configurations differ in the password only.
-/

open Lib
open Palworld.Config (Settings getPublicView liveSettings isProtected)
open Palworld.Supervisor (Json)

namespace Palworld.Telemetry

theorem toList_append_inj {α : Type} {a b : Option α} {as bs : List α} (h : a.isSome = b.isSome) :
    a.toList ++ as = b.toList ++ bs ↔ a = b ∧ as = bs := by
  cases a with
  | none =>
    cases b with
    | none => simp
    | some b => cases h
  | some a =>
    cases b with
    | none => cases h
    | some b => simp

section View

variable {F : Type} [Unicode] [PyFloat F]

structure Portal where
  config : EngineConfig
  settings : AppSettings
  ini : Option Text

/-- An exchange with a client, with what the portal finds elsewhere meanwhile. -/
inductive Exchange
  | getSettings
  | getReady (probe : RestProbe)
  | getCommunity (tracker : Tracker)
  | connect
  | disconnect               -- also when a send fails
  | telemetry (round : Round)
  | lifecycle (state : Json)

inductive Received (F : Type)
  | settings (data : Settings F)  -- beside a constant table
  | http (response : Http)
  | message (payload : Json)

def Exchange.registered (before : Bool) : Exchange → Bool
  | .connect => true
  | .disconnect => false
  | _ => before

def Exchange.received (portal : Portal) (registered : Bool) : Exchange → Option (Received F)
  | .getSettings => some (.settings (getPublicView portal.ini))
  | .getReady probe => some (.http (readinessCheck (checkReadiness portal.config probe)))
  | .getCommunity tracker => some (.http (communityTrackerData portal.settings tracker))
  | .connect => none
  | .disconnect => none
  | .telemetry round =>
    if registered then some (.message (telemetryPayload portal.config portal.settings round)) else none
  | .lifecycle state =>
    if registered then some (.message (object [("type", text "LIFECYCLE_UPDATE"), ("data", state)])) else none

/-- All that the client receives. The portal's configuration may change from one exchange to the next. -/
def view : Bool → List (Portal × Exchange) → List (Received F)
  | _, [] => []
  | registered, (portal, exchange) :: later =>
    (exchange.received portal registered).toList ++ view (exchange.registered registered) later

def Exchange.exposes (registered : Bool) : Exchange → Bool
  | .getCommunity _ => true
  | .telemetry _ => registered
  | _ => false

/-! ## Two runs -/

/-- One exchange of two portals that differ only in the configured password. -/
structure Twin (F : Type) [Unicode] [PyFloat F] where
  left : Portal
  right : Portal
  exchange : Exchange
  config : left.config = right.config
  settings : { left.settings with serverPassword := right.settings.serverPassword } = right.settings
  ini : (liveSettings left.ini : Settings F).filter (fun k => k ≠ lit "ServerPassword") =
    (liveSettings right.ini).filter fun k => k ≠ lit "ServerPassword"

def Twin.first (twin : Twin F) : Portal × Exchange := (twin.left, twin.exchange)

def Twin.second (twin : Twin F) : Portal × Exchange := (twin.right, twin.exchange)

/-- Where the client is sent the password, the two are the same. -/
def Unexposed : Bool → List (Twin F) → Prop
  | _, [] => True
  | registered, twin :: later =>
    (twin.exchange.exposes registered = true →
      twin.left.settings.serverPassword = twin.right.settings.serverPassword) ∧
    Unexposed (twin.exchange.registered registered) later

theorem getPublicView_eq (ini : Option Text) :
    (getPublicView ini : Settings F) = (liveSettings ini).filter fun k => !isProtected k := by
  cases ini with
  | none => rfl
  | some file => rfl

omit [Unicode] [PyFloat F] in
theorem filter_password (d : Settings F) :
    (d.filter fun k => k ≠ lit "ServerPassword").filter (fun k => !isProtected k) = d.filter fun k => !isProtected k := by
  unfold Dict.filter
  simp only [List.filter_filter, Dict.mk.injEq]
  refine List.filter_congr fun kv _ => ?_
  by_cases hk : kv.1 = lit "ServerPassword"
  · rw [hk]
    decide
  · simp [hk]

theorem Twin.getPublicView_eq (twin : Twin F) :
    (getPublicView twin.left.ini : Settings F) = getPublicView twin.right.ini := by
  rw [Telemetry.getPublicView_eq, Telemetry.getPublicView_eq, ← filter_password, twin.ini, filter_password]

theorem Twin.settings_eq (twin : Twin F) (h : twin.left.settings.serverPassword = twin.right.settings.serverPassword) :
    twin.left.settings = twin.right.settings := by
  rw [← twin.settings, ← h]

theorem Twin.received_iff (twin : Twin F) (registered : Bool) :
    (twin.exchange.received twin.left registered : Option (Received F)) = twin.exchange.received twin.right registered ↔
      (twin.exchange.exposes registered = true →
        twin.left.settings.serverPassword = twin.right.settings.serverPassword) := by
  have hview := twin.getPublicView_eq
  have hsettings := twin.settings_eq
  have hconfig := twin.config
  rcases twin with ⟨left, right, exchange, _, _, _⟩
  dsimp only at hview hsettings hconfig ⊢
  unfold Exchange.received Exchange.exposes
  cases exchange with
  | getSettings => simp [hview]
  | getReady probe => simp [hconfig]
  | getCommunity tracker =>
    simp only [Option.some.injEq, Received.http.injEq, true_imp_iff]
    exact ⟨communityTrackerData_password, fun h => by rw [hsettings h]⟩
  | connect => simp
  | disconnect => simp
  | telemetry round =>
    cases registered with
    | false => simp
    | true =>
      simp only [if_true, Option.some.injEq, Received.message.injEq, true_imp_iff]
      exact ⟨telemetryPayload_password, fun h => by rw [hsettings h, hconfig]⟩
  | lifecycle state => simp

theorem Exchange.received_isSome (exchange : Exchange) (portal portal' : Portal) (registered : Bool) :
    (exchange.received portal registered : Option (Received F)).isSome =
      (exchange.received portal' registered : Option (Received F)).isSome := by
  unfold Exchange.received
  cases exchange with
  | telemetry round => cases registered <;> rfl
  | lifecycle state => cases registered <;> rfl
  | getSettings => rfl
  | getReady probe => rfl
  | getCommunity tracker => rfl
  | connect => rfl
  | disconnect => rfl

/-- **When the client learns nothing of the join password.** What it receives is the same for two configurations that
differ in the password only, exactly when no response of the tracker and no telemetry message reaches it while the
passwords differ. -/
theorem views_equal_iff (run : List (Twin F)) (registered : Bool) :
    (view registered (run.map Twin.first) : List (Received F)) = view registered (run.map Twin.second) ↔
      Unexposed registered run := by
  induction run generalizing registered with
  | nil => exact ⟨fun _ => trivial, fun _ => rfl⟩
  | cons twin later ih =>
    have hsome := twin.exchange.received_isSome (F := F) twin.left twin.right registered
    unfold Unexposed
    rw [← ih, ← twin.received_iff, ← toList_append_inj hsome]
    rfl

end View

section Example

attribute [local instance] Unicode.ascii

def samplePortal (password : Text) : Portal where
  config := ⟨lit "Palworld Dedicated Server", 8212⟩
  settings := ⟨lit "Palworld Dedicated Server", password, lit "192.168.1.10", 8211, 27015, 25575, true, 8212⟩
  ini := some (lit "OptionSettings=(ServerPassword=\"" ++ password ++ lit "\",Difficulty=None)")

def sampleTracker : Tracker :=
  ⟨lit "Palworld Dedicated Server", lit "yourdomain.duckdns.org", false, text "Unlisted", text "Palworld Dedicated Server",
    text "Unknown", lit "203.0.113.7", lit "Unresolved", false, .null, none, none, 27015, 0, 32, false, object [],
    lit "192.168.1.10"⟩

theorem sample_ini : (liveSettings (samplePortal (lit "alpha")).ini : Settings Binary64).filter (fun k => k ≠ lit "ServerPassword") =
    (liveSettings (samplePortal (lit "bravo")).ini).filter fun k => k ≠ lit "ServerPassword" := by
  simp only [Dict.filter, Dict.mk.injEq]
  decide +kernel

def sampleTwin : Twin Binary64 where
  left := samplePortal (lit "alpha")
  right := samplePortal (lit "bravo")
  exchange := .getCommunity sampleTracker
  config := rfl
  settings := rfl
  ini := sample_ini

/-- The tracker's response tells the password. -/
theorem community_tells_password :
    ¬ ∀ run : List (Twin Binary64),
      (∀ twin ∈ run, twin.left.settings.serverPassword ≠ [] ∧ twin.right.settings.serverPassword ≠ []) →
        (view false (run.map Twin.first) : List (Received Binary64)) = view false (run.map Twin.second) := by
  intro h
  have hview := h [sampleTwin] (List.forall_mem_singleton.mpr (by decide))
  have hresponse := (List.cons.inj hview).1
  have hpassword := communityTrackerData_password (Received.http.inj hresponse)
  exact absurd hpassword (by decide)

end Example

end Palworld.Telemetry

import Palworld.Lib.Run
import Palworld.Lib.SlotSet
import Mathlib.Data.List.Count
import Mathlib.Data.List.Perm.Basic

/-!
# Telemetry over WebSockets

`broadcast_ws` iterates over the set of the active sockets and is suspended in every send.
Sockets come and go meanwhile, and so do other broadcasts.
-/

open Lib

namespace Palworld.Sockets

variable {α : Type*}

inductive Broadcast (α : Type*)
  | starting
  | sending (pos used : Nat) (ws : α) (deadSockets : List α)  -- in `await ws.send_json(message)`
  | returned
  | raised  -- `RuntimeError`, the set changed its size

structure Send (α : Type*) where
  call : Nat
  socket : α
  deriving DecidableEq

structure Hub (α : Type*) where
  activeSockets : SlotSet α
  broadcasts : List (Broadcast α)
  sent : List (Send α)
  failed : List (Send α)

/-- What happens next. A step that changes the table of the set comes with the table it leaves. -/
inductive Act (α : Type*)
  | registerSocket (ws : α) (layout : SlotSet α)
  | unregisterSocket (ws : α)
  | startBroadcast (layout : SlotSet α)
  | sendDone (call : Nat) (error : Bool) (layout : SlotSet α)  -- `error` is one of the three that are caught

section Step

variable [DecidableEq α]

/-- Go on with the loop of a broadcast at slot `pos`, after the loop with `active_sockets -= dead_sockets`. -/
def goOn (hub : Hub α) (call pos used : Nat) (deadSockets : List α) (layout : SlotSet α) : Option (Hub α) :=
  if hub.activeSockets.used ≠ used then some { hub with broadcasts := hub.broadcasts.set call .raised }
  else
    match hub.activeSockets.next pos with
    | some (ws, p) =>
      some { hub with
        broadcasts := hub.broadcasts.set call (.sending p used ws deadSockets)
        sent := hub.sent ++ [⟨call, ws⟩] }
    | none =>
      if layout.members.Perm (hub.activeSockets.remove deadSockets).members then
        some { hub with broadcasts := hub.broadcasts.set call .returned, activeSockets := layout }
      else none

def step (hub : Hub α) : Act α → Option (Hub α)
  | .registerSocket ws layout =>
    if ws ∈ hub.activeSockets.members then some hub
    else if layout.members.Perm (ws :: hub.activeSockets.members) then some { hub with activeSockets := layout }
    else none
  | .unregisterSocket ws => some { hub with activeSockets := hub.activeSockets.remove [ws] }
  | .startBroadcast layout =>
    goOn { hub with broadcasts := hub.broadcasts ++ [.starting] } hub.broadcasts.length 0 hub.activeSockets.used [] layout
  | .sendDone call error layout =>
    match hub.broadcasts[call]? with
    | some (.sending pos used ws deadSockets) =>
      if error then
        goOn { hub with failed := hub.failed ++ [⟨call, ws⟩] } call pos used (ws :: deadSockets) layout
      else goOn hub call pos used deadSockets layout
    | _ => none

def Step (hub : Hub α) (a : Act α) (hub' : Hub α) : Prop := step hub a = some hub'

def Initial (hub : Hub α) : Prop := hub.broadcasts = [] ∧ hub.sent = [] ∧ hub.failed = []

end Step

def Hub.Suspended (hub : Hub α) (call : Option Nat) : Prop :=
  ∃ c pos used ws dead, some c ≠ call ∧ hub.broadcasts[c]? = some (.sending pos used ws dead)

/-- No socket that stays gets another slot while a broadcast is under way, and there are as many sockets
as at its start whenever a broadcast goes on. -/
def Steady (hub : Hub α) : Act α → Prop
  | .registerSocket _ layout => hub.Suspended none → hub.activeSockets.KeepsPlaces layout
  | .unregisterSocket _ => True
  | .startBroadcast layout => hub.Suspended none → hub.activeSockets.KeepsPlaces layout
  | .sendDone call _ layout =>
    (hub.Suspended (some call) → hub.activeSockets.KeepsPlaces layout) ∧
      ∀ pos used ws dead, hub.broadcasts[call]? = some (.sending pos used ws dead) → hub.activeSockets.used = used

def Registered (ws : α) (hub : Hub α) (_ : Act α) : Prop := ws ∈ hub.activeSockets.members

def Act.call (hub : Hub α) : Act α → Option Nat
  | .startBroadcast _ => some hub.broadcasts.length
  | .sendDone call _ _ => some call
  | .registerSocket _ _ | .unregisterSocket _ => none

/-- What is asked of the broadcasts of a run from `s` to `t`. None raises. One that has returned has sent
once to each socket that was there all the time. A broadcast removes the sockets whose send failed, when
it returns, and no others. -/
structure Delivered [DecidableEq α] (s : Hub α) (as : List (Act α)) (t : Hub α) : Prop where
  not_raised : .raised ∉ t.broadcasts
  sent_once : ∀ pre layout post m ws, as = pre ++ .startBroadcast layout :: post → Run Step s pre m →
    Run (Only Step (Registered ws)) m (.startBroadcast layout :: post) t →
    t.broadcasts[m.broadcasts.length]? = some .returned → t.sent.count ⟨m.broadcasts.length, ws⟩ = 1
  removed : ∀ pre a m c, as = pre ++ [a] → Run Step s pre m → a.call m = some c →
    ∀ ws ∈ m.activeSockets.members,
      ws ∉ t.activeSockets.members ↔ t.broadcasts[c]? = some .returned ∧ ⟨c, ws⟩ ∈ t.failed

end Palworld.Sockets

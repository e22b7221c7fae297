import Palworld.Lib.Keeper
import Palworld.Lib.JsonRoundTrip
import Palworld.Lib.PyRepr
import Palworld.Tracker.History

/-!
# The ledger across restarts

The players come from the REST API as JSON. After a poll with players in it the ledger is saved, and a tracker that comes up reads
it again.
-/

open Lib

namespace Palworld.Tracker

/-- How deep the interpreter lets a decoder and an encoder nest. -/
structure Limits where
  decode : Nat
  encode : Nat
  roomy : 2 ≤ decode

/-- `str.isprintable`. -/
class Printable where
  isPrintable : Char → Bool

def plainChar : PyChar → Option Char
  | .char c => some c
  | .surrogate _ => none

/-- `str(value)`. Half of a surrogate pair is left out, as no `Text` has one, so two ids that differ in such a half alone are one
here, and two in the code. -/
def strOf [Printable] : JsonValue → Text
  | .str s => s.filterMap plainChar
  | value => value.repr Printable.isPrintable

instance [Printable] : PyAny JsonValue where
  truthy := JsonValue.truth
  str := strOf
  ofText t := .str (PyStr.ofText t)
  one := .int PyInt.one
  zero := .float (.finite false Binary64.zero)

/-! ## A poll -/

/-- What the REST API says to `GET /players`. -/
inductive Reply
  | failed                                   -- `httpx.HTTPError`
  | answered (status_code : Nat) (body : Text)

inductive RawError
  | valueError
  | recursionError
  | attributeError

def getRawPlayers (limits : Limits) : Reply → Except RawError (List JsonValue)
  | .failed => .ok []
  | .answered status_code body =>
    if status_code = 200 then
      match loads limits.decode body with
      | .error .tooDeep => .error .recursionError
      | .error _ => .error .valueError
      | .ok (.object fields) =>
        match lookup (PyStr.ofText (lit "players")) fields with
        | some (.array players) => .ok players
        | _ => .ok []
      | .ok _ => .error .attributeError
    else .ok []

/-- A player as a dictionary. It is asked only for keys that are texts. -/
def playerFields : JsonValue → Option (Fields JsonValue)
  | .object fields => some (Dict.ofList (fields.filterMap fun field => field.1.toText?.map fun key => (key, field.2)))
  | _ => none

/-- The players up to the first one that is no dictionary, and whether there is none. -/
def readPlayers : List JsonValue → List (Fields JsonValue) × Bool
  | [] => ([], true)
  | p :: ps =>
    match playerFields p with
    | none => ([], false)  -- `AttributeError`
    | some fields => (fields :: (readPlayers ps).1, (readPlayers ps).2)

def livePlayers (limits : Limits) (reply : Reply) : List (Fields JsonValue) × Bool :=
  match getRawPlayers limits reply with
  | .ok players => readPlayers players
  | .error _ => ([], false)

section

variable [Printable]

/-- The ledger after a poll, and whether it is saved. An error leaves the players before it in the ledger. `none` is `KeyError`. -/
def poll (limits : Limits) (ledger : Ledger JsonValue) (polled : Text × Reply) : Option (Ledger JsonValue × Bool) :=
  let live := livePlayers limits polled.2
  match updateAndGetPlayers polled.1 ledger live.1 with
  | .error _ => none
  | .ok (_, ledger) => some (ledger, live.2 && !live.1.isEmpty)

/-! ## The file -/

def recordJson (record : Fields JsonValue) : JsonValue := .object (record.entries.map fun entry => (PyStr.ofText entry.1, entry.2))

def ledgerJson (ledger : Ledger JsonValue) : JsonValue :=
  .object (ledger.entries.map fun entry => (PyStr.ofText entry.1, recordJson entry.2))

def entryOf {β : Type} (read : JsonValue → Option β) (field : PyStr × JsonValue) : Option (Text × β) := do
  return (← field.1.toText?, ← read field.2)

/-- A dictionary with texts as keys. -/
def dictOf {β : Type} (read : JsonValue → Option β) : JsonValue → Option (Dict Text β)
  | .object fields => (fields.mapM (entryOf read)).map Dict.ofList
  | _ => none

def ledgerOf : JsonValue → Option (Ledger JsonValue) := dictOf (dictOf some)

/-- `_load_player_ledger`, of a file that can be read. `none` where the tracker does not come up, or takes what is no ledger. -/
def loadPlayerLedger (limits : Limits) (raw_text : Text) : Option (Ledger JsonValue) :=
  match loads limits.decode raw_text with
  | .error .malformed => some .empty
  | .error _ => none
  | .ok value => ledgerOf value

/-- The tracker, as it keeps its ledger. `_save_player_ledger` writes the file with the suffix `.tmp` and puts it in place. -/
def ledgerKeeper (limits : Limits) : Keeper (Ledger JsonValue) Text Unit (Text × Reply) where
  start := .empty
  change := poll limits
  encode _ ledger := dumps limits.encode (ledgerJson ledger)
  load := loadPlayerLedger limits

/-! ## What is written is read -/

variable {limits : Limits} {ledger : Ledger JsonValue} {record p : Fields JsonValue} {value : JsonValue} {now_ts pid : Text}

/-- A value that can stand in a record. -/
def Fits (limits : Limits) (value : JsonValue) : Prop := value.Wf ∧ value.depth + 2 ≤ limits.decode

def FitsAll (limits : Limits) (record : Fields JsonValue) : Prop := ∀ entry ∈ record.entries, Fits limits entry.2

structure Sound (limits : Limits) (ledger : Ledger JsonValue) : Prop where
  begun : ∀ pid, Begun (ledger.get? pid)
  fits : ∀ entry ∈ ledger.entries, FitsAll limits entry.2

omit [Printable] in
theorem fits_flat (hwf : value.Wf) (hflat : value.depth = 0) : Fits limits value := by
  refine ⟨hwf, ?_⟩
  rw [hflat, Nat.zero_add]
  exact limits.roomy

theorem fits_ofText (t : Text) : Fits limits (PyAny.ofText t) := fits_flat (joined_ofText t) rfl

theorem fits_tracked {field : Text × JsonValue} (h : field ∈ tracked JsonValue) : Fits limits field.2 := by
  simp only [tracked, List.mem_cons, List.not_mem_nil, or_false] at h
  rcases h with rfl | rfl | rfl | rfl
  all_goals exact fits_flat trivial rfl

omit [Printable] in
theorem FitsAll.get? {key : Text} (h : FitsAll limits record) (hget : record.get? key = some value) : Fits limits value :=
  h _ (Dict.mem_entries.mpr hget)

omit [Printable] in
theorem FitsAll.getD {key : Text} (h : FitsAll limits record) (hvalue : Fits limits value) : Fits limits ((record.get? key).getD value) := by
  cases hget : record.get? key with
  | none => exact hvalue
  | some found => exact h.get? hget

omit [Printable] in
theorem FitsAll.update {entries : List (Text × JsonValue)} (h : FitsAll limits record) (hentries : ∀ entry ∈ entries, Fits limits entry.2) :
    FitsAll limits (record.update entries) := by
  intro entry hentry
  rcases Dict.mem_update hentry with hold | hnew
  · exact h entry hold
  · exact hentries entry hnew

theorem FitsAll.nameOf (h : FitsAll limits p) : Fits limits (nameOf p) := by
  unfold Tracker.nameOf suppliedName firstOf
  cases hfind : List.find? PyAny.truthy (["name", "accountName"].filterMap fun key => p.get? (lit key)) with
  | none => exact fits_ofText _
  | some value =>
    obtain ⟨key, -, hget⟩ := List.mem_filterMap.mp (List.mem_of_find?_eq_some hfind)
    exact h.get? hget

theorem fitsAll_recordAfter {old : Option (Fields JsonValue)} (hp : FitsAll limits p) (hold : ∀ record, old = some record → FitsAll limits record) :
    FitsAll limits (recordAfter now_ts p old) := by
  cases old with
  | none =>
    have hempty : FitsAll limits (.empty : Fields JsonValue) := fun entry hentry => by cases hentry
    refine hempty.update fun entry hentry => ?_
    rcases List.mem_append.mp hentry with hentry | hentry
    · simp only [List.mem_cons, List.not_mem_nil, or_false] at hentry
      rcases hentry with rfl | rfl | rfl | rfl | rfl
      · exact fits_ofText _
      · exact hp.getD (fits_ofText _)
      · exact hp.nameOf
      · exact fits_ofText _
      · exact fits_ofText _
    · obtain ⟨field, hfield, rfl⟩ := List.mem_map.mp hentry
      exact hp.getD (fits_tracked hfield)
  | some record =>
    have hrecord := hold record rfl
    refine hrecord.update fun entry hentry => ?_
    rcases List.mem_append.mp hentry with hentry | hentry
    · simp only [List.mem_cons, List.not_mem_nil, or_false] at hentry
      rcases hentry with rfl | rfl
      · exact hp.nameOf
      · exact fits_ofText _
    · obtain ⟨field, hfield, rfl⟩ := List.mem_map.mp hentry
      exact hp.getD (hrecord.getD (fits_tracked hfield))

theorem Sound.register (h : Sound limits ledger) (hp : FitsAll limits p) : Sound limits (register now_ts ledger p) := by
  constructor
  · intro pid
    rw [get?_register]
    split
    · rintro _ ⟨⟩
      exact (first_seen_recordAfter now_ts p).mpr (h.begun _)
    · exact h.begun pid
  · intro entry hentry
    have hget := Dict.mem_entries.mp hentry
    rw [get?_register] at hget
    split at hget
    · rw [← Option.some.inj hget]
      exact fitsAll_recordAfter hp fun record hrecord => h.fits (_, record) (Dict.mem_entries.mpr hrecord)
    · exact h.fits entry (Dict.mem_entries.mpr hget)

theorem Sound.registerAll {ps : List (Fields JsonValue)} (h : Sound limits ledger) (hps : ∀ p ∈ ps, FitsAll limits p) :
    Sound limits (registerAll now_ts ledger ps) := by
  unfold Tracker.registerAll
  induction ps generalizing ledger with
  | nil => exact h
  | cons p ps ih =>
    rw [List.forall_mem_cons] at hps
    exact ih (h.register hps.1) hps.2

/-! ## What a reply brings -/

/-- The players that the ledger has of a poll. -/
def pollOf (limits : Limits) (polled : Text × Reply) : Poll JsonValue := (polled.1, (livePlayers limits polled.2).1)

/-- What a tracker may rely on, whatever became of it and of its file. -/
structure Survives (limits : Limits) (w : Keeper.World (Ledger JsonValue) Text) (acts : List (Keeper.Act Text Unit (Text × Reply))) : Prop where
  memory : ∀ ledger stage, w.process = some ⟨ledger, stage⟩ → pollAll ((Keeper.history acts).seen.map (pollOf limits)) .empty = .ok ledger
  starts : w.process = none → ∀ reads, ∃ ledger,
    (ledgerKeeper limits).Step w (.start reads) { w with process := some ⟨ledger, .idle⟩ } ∧
      pollAll ((if reads then (Keeper.history acts).kept else []).map (pollOf limits)) .empty = .ok ledger
  polls : ∀ ledger, w.process = some ⟨ledger, .idle⟩ → ∀ polled, ∃ w', (ledgerKeeper limits).Step w (.change polled) w'
  once : (Keeper.history acts).seen.Sublist (Keeper.changes acts)

end

/-! ## A tracker that dies before it has saved -/

@[reducible] def Printable.ascii : Printable := ⟨fun c => 32 ≤ c.toNat && c.toNat < 127⟩

attribute [local instance] Printable.ascii

end Palworld.Tracker

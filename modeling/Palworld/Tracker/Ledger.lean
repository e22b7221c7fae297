import Palworld.Lib.Dict
import Palworld.Lib.Text

/-!
# The ledger of players

Each poll is merged into the ledger, player by player. A player is known by the first id that is
there, and a record is a dictionary that is changed field by field.
-/

open Lib

namespace Palworld.Tracker

/-- What the values of a poll are asked for. -/
class PyAny (V : Type) where
  truthy : V → Bool
  str : V → Text
  ofText : Text → V
  one : V                -- `1`
  zero : V               -- `0.0`

open PyAny (ofText)

inductive KeyError
  | keyError (key : Text)
  deriving DecidableEq

/-- The fields of a player, as they come and as they are kept. -/
abbrev Fields (V : Type) := Dict Text V

abbrev Ledger (V : Type) := Dict Text (Fields V)

section

variable {V : Type} {pid key : Text} {ledger : Ledger V} {record : Fields V} {v : V}

/-- `record[key]`. -/
def field (record : Fields V) (key : Text) : Except KeyError V :=
  match record.get? key with
  | some v => .ok v
  | none => .error (.keyError key)

theorem field_ok (h : record.get? key = some v) : field record key = .ok v := by
  unfold field
  rw [h]

theorem field_error (h : record.get? key = none) : field record key = .error (.keyError key) := by
  unfold field
  rw [h]

def ids (ledger : Ledger V) : List Text := ledger.entries.map Prod.fst

theorem mem_ids : pid ∈ ids ledger ↔ ledger.get? pid ≠ none := by
  unfold ids
  have hkeys : ¬ ledger.get? pid = none ↔ ¬ pid ∉ ledger.entries.map Prod.fst := not_congr lookup_eq_none
  rw [not_not] at hkeys
  exact hkeys.symm

theorem nodup_ids : (ids ledger).Nodup := ledger.nodup

/-- A record of which the beginning is known. -/
def Begun (old : Option (Fields V)) : Prop := ∀ record, old = some record → record.get? (lit "first_seen") ≠ none

theorem begun_none : Begun (none : Option (Fields V)) := fun _ h => by cases h

/-- A step that returns, and what returns behind it. -/
theorem bind_ok {ε α β : Type} {x : Except ε α} {f : α → Except ε β} {b : β} : x >>= f = .ok b ↔ ∃ a, x = .ok a ∧ f a = .ok b := by
  cases x with
  | error err =>
    refine iff_of_false (fun h => by cases h) ?_
    rintro ⟨_, h, -⟩
    cases h
  | ok a =>
    constructor
    · exact fun h => ⟨a, rfl, h⟩
    · rintro ⟨_, ⟨⟩, h⟩
      exact h

end

variable {V : Type} [PyAny V]

/-- `p.get(a) or p.get(b)`, where one of them counts as true. -/
def firstOf (keys : List String) (p : Fields V) : Option V := (keys.filterMap fun key => p.get? (lit key)).find? PyAny.truthy

def pidOf (p : Fields V) : Text := ((firstOf ["playerId", "userId"] p).map PyAny.str).getD (lit "Unknown")

/-- The name that a player comes with. -/
def suppliedName (p : Fields V) : Option V := firstOf ["name", "accountName"] p

def nameOf (p : Fields V) : V := (suppliedName p).getD (ofText (lit "Tamer"))

/-- The fields that a poll may leave out, with what they are then. -/
def tracked (V : Type) [PyAny V] : List (Text × V) :=
  [(lit "level", PyAny.one), (lit "ping", PyAny.zero), (lit "location_x", PyAny.zero), (lit "location_y", PyAny.zero)]

/-- `p.get(key, default)`, with the field itself. -/
def fresh (p : Fields V) (field : Text × V) : Text × V := (field.1, (p.get? field.1).getD field.2)

/-- `p.get(key, record.get(key, default))`. -/
def carried (p record : Fields V) (field : Text × V) : Text × V :=
  (field.1, (p.get? field.1).getD ((record.get? field.1).getD field.2))

def newRecord (now_ts pid : Text) (p : Fields V) : Fields V :=
  Dict.ofList ([(lit "playerId", ofText pid), (lit "userId", (p.get? (lit "userId")).getD (ofText [])), (lit "name", nameOf p),
    (lit "first_seen", ofText now_ts), (lit "last_seen", ofText now_ts)] ++ (tracked V).map (fresh p))

def mergedRecord (now_ts : Text) (p record : Fields V) : Fields V :=
  record.update ([(lit "name", nameOf p), (lit "last_seen", ofText now_ts)] ++ (tracked V).map (carried p record))

def register (now_ts : Text) (ledger : Ledger V) (p : Fields V) : Ledger V :=
  match ledger.get? (pidOf p) with
  | none => ledger.set (pidOf p) (newRecord now_ts (pidOf p) p)
  | some record => ledger.set (pidOf p) (mergedRecord now_ts p record)

inductive PlayerStatus
  | online
  | offline
  deriving DecidableEq

structure PlayerRecord (V : Type) where
  playerId : Text
  userId : V
  name : V
  level : V
  ping : V
  location_x : V
  location_y : V
  first_seen : V
  last_seen : V
  status : PlayerStatus

def activeRecord (now_ts : Text) (p record : Fields V) : Except KeyError (PlayerRecord V) := do
  return {
    playerId := pidOf p
    userId := (record.get? (lit "userId")).getD (ofText [])
    name := nameOf p
    level := ← field record (lit "level")
    ping := ← field record (lit "ping")
    location_x := ← field record (lit "location_x")
    location_y := ← field record (lit "location_y")
    first_seen := ← field record (lit "first_seen")
    last_seen := ofText now_ts
    status := .online }

def offlineRecord (now_ts pid : Text) (rec : Fields V) : PlayerRecord V where
  playerId := pid
  userId := (rec.get? (lit "userId")).getD (ofText [])
  name := (rec.get? (lit "name")).getD (ofText (lit "Tamer"))
  level := (rec.get? (lit "level")).getD PyAny.one
  ping := PyAny.zero
  location_x := (rec.get? (lit "location_x")).getD PyAny.zero
  location_y := (rec.get? (lit "location_y")).getD PyAny.zero
  first_seen := (rec.get? (lit "first_seen")).getD (ofText now_ts)
  last_seen := (rec.get? (lit "last_seen")).getD (ofText now_ts)
  status := .offline

/-- The loop over the players of a poll: the active list, and the ledger behind it. -/
def mergePlayers (now_ts : Text) : List (Fields V) → Ledger V → Except KeyError (List (PlayerRecord V) × Ledger V)
  | [], ledger => .ok ([], ledger)
  | p :: ps, ledger => do
    let record := ((register now_ts ledger p).get? (pidOf p)).getD .empty
    let active ← activeRecord now_ts p record
    let (rest, ledger) ← mergePlayers now_ts ps (register now_ts ledger p)
    return (active :: rest, ledger)

structure PlayerLedgerMatrix (V : Type) where
  active_count : Nat
  total_registered : Nat
  active_players : List (PlayerRecord V)
  offline_players : List (PlayerRecord V)

def offlineList (now_ts : Text) (active_ids : List Text) (ledger : Ledger V) : List (PlayerRecord V) :=
  (ledger.entries.filter fun entry => entry.1 ∉ active_ids).map fun entry => offlineRecord now_ts entry.1 entry.2

def updateAndGetPlayers (now_ts : Text) (ledger : Ledger V) (live_players_raw : List (Fields V)) :
    Except KeyError (PlayerLedgerMatrix V × Ledger V) := do
  let (active_list, ledger) ← mergePlayers now_ts live_players_raw ledger
  let offline_list := offlineList now_ts (live_players_raw.map pidOf) ledger
  return ({
    active_count := active_list.length
    total_registered := ledger.entries.length
    active_players := active_list
    offline_players := offline_list }, ledger)

/-! ## Records -/

/-- A record after a poll with the player in it. -/
def recordAfter (now_ts : Text) (p : Fields V) : Option (Fields V) → Fields V
  | none => newRecord now_ts (pidOf p) p
  | some record => mergedRecord now_ts p record

section

variable {now_ts pid : Text} {p : Fields V} {old : Option (Fields V)} {ledger : Ledger V} {record : Fields V}

theorem get?_register : (register now_ts ledger p).get? pid =
    if pid = pidOf p then some (recordAfter now_ts p (ledger.get? (pidOf p))) else ledger.get? pid := by
  unfold register
  cases ledger.get? (pidOf p) with
  | none => exact Dict.get?_set
  | some record => exact Dict.get?_set

theorem get?_newRecord (key : Text) : (newRecord now_ts pid p).get? key =
    lastOf key ([(lit "playerId", ofText pid), (lit "userId", (p.get? (lit "userId")).getD (ofText [])), (lit "name", nameOf p),
      (lit "first_seen", ofText now_ts), (lit "last_seen", ofText now_ts)] ++ (tracked V).map (fresh p)) := Dict.get?_ofList _

theorem get?_mergedRecord (key : Text) : (mergedRecord now_ts p record).get? key =
    (lastOf key ([(lit "name", nameOf p), (lit "last_seen", ofText now_ts)] ++ (tracked V).map (carried p record))).or (record.get? key) :=
  Dict.get?_update _

@[simp] theorem name_recordAfter : (recordAfter now_ts p old).get? (lit "name") = some (nameOf p) := by
  cases old with
  | none => exact get?_newRecord _
  | some record => exact get?_mergedRecord _

@[simp] theorem last_seen_recordAfter : (recordAfter now_ts p old).get? (lit "last_seen") = some (ofText now_ts) := by
  cases old with
  | none => exact get?_newRecord _
  | some record => exact get?_mergedRecord _

/-- What a record says of its beginning is never changed. -/
@[simp] theorem first_seen_merged : (mergedRecord now_ts p record).get? (lit "first_seen") = record.get? (lit "first_seen") :=
  get?_mergedRecord _

@[simp] theorem userId_merged : (mergedRecord now_ts p record).get? (lit "userId") = record.get? (lit "userId") := get?_mergedRecord _

@[simp] theorem first_seen_new : (newRecord now_ts pid p).get? (lit "first_seen") = some (ofText now_ts) := get?_newRecord _

@[simp] theorem userId_new : (newRecord now_ts pid p).get? (lit "userId") = some ((p.get? (lit "userId")).getD (ofText [])) := get?_newRecord _

/-- What a record without the field counts as. -/
def fieldOf (old : Option (Fields V)) (field : Text × V) : V := (old.bind fun record => record.get? field.1).getD field.2

theorem tracked_recordAfter {field : Text × V} (h : field ∈ tracked V) :
    (recordAfter now_ts p old).get? field.1 = some ((p.get? field.1).getD (fieldOf old field)) := by
  simp only [tracked, List.mem_cons, List.not_mem_nil, or_false] at h
  cases old with
  | none =>
    rcases h with rfl | rfl | rfl | rfl
    all_goals exact get?_newRecord _
  | some record =>
    rcases h with rfl | rfl | rfl | rfl
    all_goals exact get?_mergedRecord _

/-! ## A poll -/

theorem mem_ids_register : pid ∈ ids (register now_ts ledger p) ↔ pid = pidOf p ∨ pid ∈ ids ledger := by
  rw [mem_ids, mem_ids, get?_register]
  split
  · rename_i h
    simp [h]
  · rename_i h
    simp [h]

theorem first_seen_recordAfter (now_ts : Text) (p : Fields V) : (recordAfter now_ts p old).get? (lit "first_seen") ≠ none ↔ Begun old := by
  cases old with
  | none =>
    refine iff_of_true ?_ begun_none
    show (newRecord now_ts (pidOf p) p).get? (lit "first_seen") ≠ none
    rw [first_seen_new]
    simp
  | some record =>
    show (mergedRecord now_ts p record).get? (lit "first_seen") ≠ none ↔ _
    rw [first_seen_merged]
    constructor
    · rintro h _ ⟨⟩
      exact h
    · exact fun h => h record rfl

/-- The record of an active player, if its beginning is known. -/
theorem activeRecord_ok (now_ts : Text) (p : Fields V) : (∃ active, activeRecord now_ts p (recordAfter now_ts p old) = .ok active) ↔ Begun old := by
  have htracked : ∀ f ∈ tracked V, ∃ v, field (recordAfter now_ts p old) f.1 = .ok v := fun f hf => ⟨_, field_ok (tracked_recordAfter hf)⟩
  obtain ⟨level, hlevel⟩ := htracked (lit "level", PyAny.one) (by simp [tracked])
  obtain ⟨ping, hping⟩ := htracked (lit "ping", PyAny.zero) (by simp [tracked])
  obtain ⟨x, hx⟩ := htracked (lit "location_x", PyAny.zero) (by simp [tracked])
  obtain ⟨y, hy⟩ := htracked (lit "location_y", PyAny.zero) (by simp [tracked])
  rw [← first_seen_recordAfter now_ts p]
  unfold activeRecord
  rw [hlevel, hping, hx, hy]
  cases hfirst : (recordAfter now_ts p old).get? (lit "first_seen") with
  | none =>
    rw [field_error hfirst]
    refine iff_of_false ?_ (by simp)
    rintro ⟨active, hactive⟩
    cases hactive
  | some v =>
    rw [field_ok hfirst]
    exact iff_of_true ⟨_, rfl⟩ (by simp)

theorem playerId_activeRecord {active : PlayerRecord V} (h : activeRecord now_ts p record = .ok active) : active.playerId = pidOf p := by
  unfold activeRecord at h
  obtain ⟨level, -, h⟩ := bind_ok.mp h
  obtain ⟨ping, -, h⟩ := bind_ok.mp h
  obtain ⟨x, -, h⟩ := bind_ok.mp h
  obtain ⟨y, -, h⟩ := bind_ok.mp h
  obtain ⟨first_seen, -, h⟩ := bind_ok.mp h
  cases h
  rfl

/-- Every record of a polled player has a beginning. -/
def BegunAll (ledger : Ledger V) (ps : List (Fields V)) : Prop := ∀ p ∈ ps, Begun (ledger.get? (pidOf p))

theorem begun_register {q : Fields V} (hp : Begun (ledger.get? (pidOf p))) :
    Begun ((register now_ts ledger p).get? (pidOf q)) ↔ Begun (ledger.get? (pidOf q)) := by
  rw [get?_register]
  split
  · rename_i hsame
    rw [hsame]
    refine iff_of_true ?_ hp
    rintro _ ⟨⟩
    exact (first_seen_recordAfter now_ts p).mpr hp
  · exact Iff.rfl

theorem begunAll_cons {ps : List (Fields V)} : BegunAll ledger (p :: ps) ↔ Begun (ledger.get? (pidOf p)) ∧ BegunAll (register now_ts ledger p) ps := by
  unfold BegunAll
  rw [List.forall_mem_cons]
  refine and_congr_right fun hp => forall_congr' fun q => imp_congr_right fun _ => ?_
  exact (begun_register hp).symm

/-- What the loop over the players does to the ledger. -/
def registerAll (now_ts : Text) (ledger : Ledger V) (ps : List (Fields V)) : Ledger V := ps.foldl (register now_ts) ledger

theorem getD_register : ((register now_ts ledger p).get? (pidOf p)).getD .empty = recordAfter now_ts p (ledger.get? (pidOf p)) := by
  rw [get?_register, if_pos rfl]
  rfl

/-- The loop returns if every record of a polled player has a beginning. -/
theorem mergePlayers_ok (now_ts : Text) {ps : List (Fields V)} :
    (∃ active_list ledger', mergePlayers now_ts ps ledger = .ok (active_list, ledger')) ↔ BegunAll ledger ps := by
  induction ps generalizing ledger with
  | nil => exact iff_of_true ⟨_, _, rfl⟩ fun p hp => by cases hp
  | cons p ps ih =>
    unfold mergePlayers
    rw [getD_register, begunAll_cons, ← ih, ← activeRecord_ok now_ts p]
    constructor
    · rintro ⟨active_list, ledger', h⟩
      obtain ⟨active, hactive, h⟩ := bind_ok.mp h
      obtain ⟨⟨rest, ledger''⟩, hrest, -⟩ := bind_ok.mp h
      exact ⟨⟨active, hactive⟩, rest, ledger'', hrest⟩
    · rintro ⟨⟨active, hactive⟩, rest, ledger', hrest⟩
      exact ⟨active :: rest, ledger', bind_ok.mpr ⟨active, hactive, bind_ok.mpr ⟨_, hrest, rfl⟩⟩⟩

theorem mergePlayers_spec {ps : List (Fields V)} {active_list : List (PlayerRecord V)} {ledger' : Ledger V}
    (h : mergePlayers now_ts ps ledger = .ok (active_list, ledger')) :
    active_list.map PlayerRecord.playerId = ps.map pidOf ∧ ledger' = registerAll now_ts ledger ps := by
  induction ps generalizing ledger active_list with
  | nil =>
    cases h
    exact ⟨rfl, rfl⟩
  | cons p ps ih =>
    unfold mergePlayers at h
    obtain ⟨active, hactive, h⟩ := bind_ok.mp h
    obtain ⟨⟨rest, ledger''⟩, hrest, h⟩ := bind_ok.mp h
    cases h
    obtain ⟨hids, hledger⟩ := ih hrest
    exact ⟨by rw [List.map_cons, List.map_cons, hids, playerId_activeRecord hactive], hledger⟩

theorem mem_ids_registerAll {ps : List (Fields V)} : pid ∈ ids (registerAll now_ts ledger ps) ↔ pid ∈ ps.map pidOf ∨ pid ∈ ids ledger := by
  unfold registerAll
  induction ps generalizing ledger with
  | nil => simp
  | cons p ps ih => rw [List.foldl_cons, ih, mem_ids_register, List.map_cons, List.mem_cons, or_left_comm, or_assoc]

/-! ## Active and offline -/

/-- Each id of the ledger is in one of the lists, once, and the counts say so. -/
structure Partitioned {V : Type} (ledger : Ledger V) (matrix : PlayerLedgerMatrix V) : Prop where
  once : ∀ pid ∈ ids ledger, ((matrix.active_players ++ matrix.offline_players).map PlayerRecord.playerId).count pid = 1
  total : matrix.active_count + matrix.offline_players.length = matrix.total_registered

theorem ids_offlineList (active_ids : List Text) :
    (offlineList now_ts active_ids ledger).map PlayerRecord.playerId = (ids ledger).filter (· ∉ active_ids) := by
  unfold offlineList ids
  rw [List.map_map, List.filter_map]
  rfl

/-- Ids of the ledger without repetition, and the others, are the ids of the ledger. -/
theorem union_perm {V : Type} {ledger : Ledger V} {active_ids : List Text} (hsub : active_ids ⊆ ids ledger) (hnodup : active_ids.Nodup) :
    (active_ids ++ (ids ledger).filter (· ∉ active_ids)).Perm (ids ledger) := by
  have hdisjoint : ∀ a ∈ active_ids, ∀ b ∈ (ids ledger).filter (· ∉ active_ids), a ≠ b := by
    rintro a ha b hb rfl
    exact of_decide_eq_true (List.mem_filter.mp hb).2 ha
  rw [List.perm_ext_iff_of_nodup (List.nodup_append.mpr ⟨hnodup, nodup_ids.filter _, hdisjoint⟩) nodup_ids]
  intro pid
  rw [List.mem_append, List.mem_filter, decide_eq_true_eq]
  constructor
  · rintro (h | ⟨h, -⟩)
    · exact hsub h
    · exact h
  · intro h
    by_cases hactive : pid ∈ active_ids
    · exact .inl hactive
    · exact .inr ⟨h, hactive⟩

theorem partitioned_iff (now_ts : Text) {matrix : PlayerLedgerMatrix V} {active_ids : List Text} (hsub : active_ids ⊆ ids ledger)
    (hactive : matrix.active_players.map PlayerRecord.playerId = active_ids)
    (hoffline : matrix.offline_players = offlineList now_ts active_ids ledger)
    (hcount : matrix.active_count = matrix.active_players.length) (htotal : matrix.total_registered = ledger.entries.length) :
    Partitioned ledger matrix ↔ active_ids.Nodup := by
  have hunion : (matrix.active_players ++ matrix.offline_players).map PlayerRecord.playerId = active_ids ++ (ids ledger).filter (· ∉ active_ids) := by
    rw [List.map_append, hactive, hoffline, ids_offlineList]
  constructor
  · intro h
    rw [List.nodup_iff_count_le_one]
    intro pid
    by_cases hmem : pid ∈ active_ids
    · have honce := h.once pid (hsub hmem)
      rw [hunion, List.count_append] at honce
      omega
    · rw [List.count_eq_zero_of_not_mem hmem]
      exact Nat.zero_le 1
  · intro hnodup
    have hperm := union_perm hsub hnodup
    refine ⟨fun pid hpid => ?_, ?_⟩
    · rw [hunion, hperm.count_eq]
      exact List.count_eq_one_of_mem nodup_ids hpid
    · have hlength := hperm.length_eq
      rw [← hunion, List.length_map, List.length_append] at hlength
      rw [hcount, htotal, hlength]
      exact List.length_map ..

theorem updateAndGetPlayers_ok {live_players_raw : List (Fields V)} {matrix : PlayerLedgerMatrix V} {ledger' : Ledger V} :
    updateAndGetPlayers now_ts ledger live_players_raw = .ok (matrix, ledger') ↔
      ∃ active_list, mergePlayers now_ts live_players_raw ledger = .ok (active_list, ledger') ∧ matrix = {
        active_count := active_list.length
        total_registered := ledger'.entries.length
        active_players := active_list
        offline_players := offlineList now_ts (live_players_raw.map pidOf) ledger' } := by
  unfold updateAndGetPlayers
  rw [bind_ok]
  constructor
  · rintro ⟨⟨active_list, ledger''⟩, hmerge, h⟩
    cases h
    exact ⟨active_list, hmerge, rfl⟩
  · rintro ⟨active_list, hmerge, rfl⟩
    exact ⟨_, hmerge, rfl⟩

/-- **Active and offline.** The lists partition the ledger if and only if no id is polled twice, and no polled record lacks its beginning. -/
theorem partitions_iff (now_ts : Text) (ledger : Ledger V) (live_players_raw : List (Fields V)) :
    (∃ matrix ledger', updateAndGetPlayers now_ts ledger live_players_raw = .ok (matrix, ledger') ∧ Partitioned ledger' matrix) ↔
      (live_players_raw.map pidOf).Nodup ∧ BegunAll ledger live_players_raw := by
  have hpartitioned : ∀ active_list ledger', mergePlayers now_ts live_players_raw ledger = .ok (active_list, ledger') →
      (Partitioned ledger' {
        active_count := active_list.length
        total_registered := ledger'.entries.length
        active_players := active_list
        offline_players := offlineList now_ts (live_players_raw.map pidOf) ledger' } ↔ (live_players_raw.map pidOf).Nodup) := by
    intro active_list ledger' hmerge
    obtain ⟨hids, rfl⟩ := mergePlayers_spec hmerge
    exact partitioned_iff now_ts (fun pid hpid => mem_ids_registerAll.mpr (.inl hpid)) hids rfl rfl rfl
  rw [← mergePlayers_ok now_ts]
  constructor
  · rintro ⟨matrix, ledger', hupdate, hpartition⟩
    obtain ⟨active_list, hmerge, rfl⟩ := updateAndGetPlayers_ok.mp hupdate
    exact ⟨(hpartitioned active_list ledger' hmerge).mp hpartition, active_list, ledger', hmerge⟩
  · rintro ⟨hnodup, active_list, ledger', hmerge⟩
    exact ⟨_, ledger', updateAndGetPlayers_ok.mpr ⟨active_list, hmerge, rfl⟩, (hpartitioned active_list ledger' hmerge).mpr hnodup⟩

end

/-! ## Two players without an id -/

inductive Cell
  | none
  | text (t : Text)
  | number (n : Int)
  deriving DecidableEq

instance : PyAny Cell where
  truthy
    | .none => false
    | .text t => !t.isEmpty
    | .number n => n != 0
  str
    | .none => lit "None"
    | .text t => t
    | .number n => (toString n).toList
  ofText := .text
  one := .number 1
  zero := .number 0

def nameless : Fields Cell := Dict.ofList [(lit "level", .number 7)]

theorem not_nodup_nameless : ¬([nameless, nameless].map pidOf).Nodup := by decide +kernel

/-- Both are taken for one player, who is then active twice. -/
theorem counted_twice : ¬∀ (now_ts : Text) (ledger : Ledger Cell) (live_players_raw : List (Fields Cell)),
    ∃ matrix ledger', updateAndGetPlayers now_ts ledger live_players_raw = .ok (matrix, ledger') ∧ Partitioned ledger' matrix := by
  intro h
  obtain ⟨matrix, ledger', hupdate, hpartition⟩ := h [] .empty [nameless, nameless]
  obtain ⟨active_list, hmerge, rfl⟩ := updateAndGetPlayers_ok.mp hupdate
  obtain ⟨hids, rfl⟩ := mergePlayers_spec hmerge
  exact not_nodup_nameless ((partitioned_iff [] (fun pid hpid => mem_ids_registerAll.mpr (.inl hpid)) hids rfl rfl rfl).mp hpartition)

end Palworld.Tracker

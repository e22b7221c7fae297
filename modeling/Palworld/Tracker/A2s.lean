import Palworld.Lib.Utf8
import Palworld.Lib.AtomicFile
import Mathlib.Data.List.DropRight
import Mathlib.Data.Rat.Defs

/-!
# The reply of a game server

A reply to an `A2S_INFO` query is a header, four strings that end with a zero byte, and numbers at
fixed places behind them. What was encoded is read back, and what is malformed raises nothing.
-/

open Lib

namespace Palworld.Tracker

inductive IndexError
  | indexError
  deriving DecidableEq

structure SteamA2SInfo where
  responsive : Bool
  ping_ms : Option ℚ
  server_name : Text
  map_name : Text
  folder : Text
  game : Text
  query_port : Int
  players : Int
  max_players : Int
  deriving DecidableEq

/-! ## Parsing -/

/-- `data[i]`. -/
def byteAt (data : Bytes) (i : Nat) : Except IndexError UInt8 :=
  match data[i]? with
  | some b => .ok b
  | none => .error .indexError

/-- `data[i:j]`. -/
def slice (data : Bytes) (i j : Nat) : Bytes := (data.take j).drop i

/-- `data.find(b"\x00", offset)`. -/
def findNull (data : Bytes) (offset : Nat) : Option Nat := ((data.drop offset).findIdx? (· = 0)).map (offset + ·)

def readFields : Nat → Bytes → Nat → List Text → List Text × Nat
  | 0, _, offset, fields => (fields, offset)
  | n + 1, data, offset, fields =>
    match findNull data offset with
    | none => (fields, offset)
    | some null_pos => readFields n data (null_pos + 1) (fields ++ [utf8DecodeReplace (slice data offset null_pos)])

def a2sHeader : Bytes := [0xff, 0xff, 0xff, 0xff]

def fallback (query_port : Int) : SteamA2SInfo where
  responsive := false
  ping_ms := none
  server_name := []
  map_name := []
  folder := []
  game := []
  query_port := query_port
  players := 0
  max_players := 32

/-- The player count and the maximum, at fixed places behind the strings. -/
def playerCounts (data : Bytes) (offset : Nat) : Except IndexError (Int × Int) :=
  if data.length ≥ offset + 4 then do
    let players ← byteAt data (offset + 2)
    let max_players ← byteAt data (offset + 3)
    return (players.toNat, max_players.toNat)
  else return (0, 32)

/-- `len(data) < 6 or data[:4] != b"\xff\xff\xff\xff" or data[4] != 0x49`. -/
def isForeign (data : Bytes) : Except IndexError Bool :=
  if data.length < 6 then return true
  else if slice data 0 4 ≠ a2sHeader then return true
  else return (← byteAt data 4) ≠ 0x49

def parseA2sPacket (data : Bytes) (latency_ms : Option ℚ) (query_port : Int) : Except IndexError SteamA2SInfo := do
  if ← isForeign data then return fallback query_port
  let (fields, offset) := readFields 4 data 6 []
  let (players, max_players) ← playerCounts data offset
  return {
    responsive := true
    ping_ms := latency_ms
    server_name := fields[0]?.getD (lit "Palworld Dedicated Server")
    map_name := fields[1]?.getD (lit "Pal/Maps/World")
    folder := fields[2]?.getD (lit "Pal")
    game := fields[3]?.getD (lit "Palworld")
    query_port
    players
    max_players }

/-! ## Encoding -/

/-- A text that a zero byte can end. -/
structure CString where
  text : Text
  nulFree : Char.ofNat 0 ∉ text

def CString.encode (s : CString) : Bytes := utf8Encode s.text ++ [0]

/-- What a server says of itself. -/
structure A2sPacket where
  protocol : UInt8
  server_name : CString
  map_name : CString
  folder : CString
  game : CString
  app_id : UInt8 × UInt8
  players : UInt8
  max_players : UInt8
  trailer : Bytes

def A2sPacket.encode (packet : A2sPacket) : Bytes :=
  a2sHeader ++ [0x49, packet.protocol] ++ (packet.server_name.encode ++ (packet.map_name.encode ++ (packet.folder.encode ++
    (packet.game.encode ++ ([packet.app_id.1, packet.app_id.2, packet.players, packet.max_players] ++ packet.trailer)))))

section

variable {data before rest : Bytes} {fields : List Text} {offset n : Nat}

theorem findNull_append {bs : Bytes} (h : 0 ∉ bs) : findNull (before ++ (bs ++ 0 :: rest)) before.length = some (before.length + bs.length) := by
  unfold findNull
  rw [List.drop_left, List.findIdx?_append]
  have hnone : bs.findIdx? (· = 0) = none := by
    rw [List.findIdx?_eq_none_iff]
    intro b hb
    refine decide_eq_false fun hzero : b = 0 => ?_
    rw [hzero] at hb
    exact h hb
  rw [hnone]
  simp [List.findIdx?_cons]

/-- One string and its end. -/
theorem readFields_cstring (s : CString) : readFields (n + 1) (before ++ (s.encode ++ rest)) before.length fields =
    readFields n ((before ++ s.encode) ++ rest) (before ++ s.encode).length (fields ++ [s.text]) := by
  have hzero := zero_notMem_utf8Encode s.nulFree
  have hslice : slice (before ++ (utf8Encode s.text ++ 0 :: rest)) before.length (before.length + (utf8Encode s.text).length) = utf8Encode s.text := by
    unfold slice
    rw [List.take_length_add_append, List.drop_left, List.take_left]
  unfold CString.encode
  rw [readFields, List.append_assoc, List.singleton_append, findNull_append hzero]
  dsimp only
  rw [hslice, utf8DecodeReplace_encode, List.append_assoc, List.append_assoc, List.singleton_append, List.length_append, List.length_append,
    List.length_singleton, Nat.add_assoc]

theorem readFields_encode (packet : A2sPacket) : ∃ before, packet.encode =
      before ++ ([packet.app_id.1, packet.app_id.2, packet.players, packet.max_players] ++ packet.trailer) ∧
    readFields 4 packet.encode 6 [] =
      ([packet.server_name.text, packet.map_name.text, packet.folder.text, packet.game.text], before.length) := by
  refine ⟨a2sHeader ++ [0x49, packet.protocol] ++ packet.server_name.encode ++ packet.map_name.encode ++ packet.folder.encode ++
    packet.game.encode, ?_, ?_⟩
  · unfold A2sPacket.encode
    simp only [List.append_assoc]
  · have hlength : 6 = (a2sHeader ++ [0x49, packet.protocol]).length := rfl
    unfold A2sPacket.encode
    rw [hlength, readFields_cstring, readFields_cstring, readFields_cstring, readFields_cstring]
    rfl

theorem byteAt_append (i : Nat) (bs : Bytes) : byteAt (before ++ bs) (before.length + i) = byteAt bs i := by
  unfold byteAt
  rw [List.getElem?_append_right (Nat.le_add_right _ _), Nat.add_sub_cancel_left]

theorem playerCounts_append (a b players max_players : UInt8) :
    playerCounts (before ++ ([a, b, players, max_players] ++ rest)) before.length = .ok ((players.toNat : Int), (max_players.toNat : Int)) := by
  unfold playerCounts
  have hlong : (before ++ ([a, b, players, max_players] ++ rest)).length ≥ before.length + 4 := by
    simp only [List.length_append, List.length_cons, List.length_nil]
    omega
  rw [if_pos hlong, byteAt_append, byteAt_append]
  rfl

theorem isForeign_encode (packet : A2sPacket) : isForeign packet.encode = .ok false := by
  unfold isForeign
  have hlong : ¬packet.encode.length < 6 := by
    simp only [A2sPacket.encode, List.length_append, List.length_cons, List.length_nil]
    omega
  rw [if_neg hlong]
  rfl

/-- **The wire format.** What a server encodes is read back, whatever is behind it. -/
theorem parseA2sPacket_encode (packet : A2sPacket) (latency_ms : Option ℚ) (query_port : Int) :
    parseA2sPacket packet.encode latency_ms query_port = .ok {
      responsive := true
      ping_ms := latency_ms
      server_name := packet.server_name.text
      map_name := packet.map_name.text
      folder := packet.folder.text
      game := packet.game.text
      query_port := query_port
      players := packet.players.toNat
      max_players := packet.max_players.toNat } := by
  obtain ⟨before, hencode, hfields⟩ := readFields_encode packet
  unfold parseA2sPacket
  rw [isForeign_encode, hfields, hencode]
  dsimp only
  rw [playerCounts_append]
  rfl

end

/-! ## Malformed replies -/

def HasHeader (data : Bytes) : Prop := data.take 5 = a2sHeader ++ [0x49]

instance (data : Bytes) : Decidable (HasHeader data) := inferInstanceAs (Decidable (data.take 5 = a2sHeader ++ [0x49]))

/-- Fewer than four zero bytes end the strings behind the header. -/
def LacksStrings (data : Bytes) : Prop := HasHeader data ∧ (data.drop 6).count 0 < 4

/-- What is behind the last string that ends. -/
def unended (data : Bytes) : Bytes := (data.drop 6).rtakeWhile (· ≠ 0)

/-- The parser does not raise, and without four strings it reports the default numbers. -/
structure HandledSafely (data : Bytes) (latency_ms : Option ℚ) (query_port : Int) : Prop where
  returns : ∃ info, parseA2sPacket data latency_ms query_port = .ok info
  defaults : LacksStrings data → ∀ info, parseA2sPacket data latency_ms query_port = .ok info → info.players = 0 ∧ info.max_players = 32

section

variable {data a b : Bytes} {offset n : Nat} {fields : List Text} {latency_ms : Option ℚ} {query_port : Int}

theorem byteAt_ok {i : Nat} (h : i < data.length) : byteAt data i = .ok data[i] := by
  unfold byteAt
  rw [List.getElem?_eq_getElem h]

theorem isForeign_ok (data : Bytes) : isForeign data = .ok (decide (¬(6 ≤ data.length ∧ HasHeader data))) := by
  unfold isForeign
  by_cases hlong : data.length < 6
  · rw [if_pos hlong, decide_eq_true (by omega)]
    rfl
  have hbyte : 4 < data.length := by omega
  have htake : data.take 5 = slice data 0 4 ++ [data[4]] := by
    unfold slice
    rw [List.drop_zero, List.take_succ_eq_append_getElem hbyte]
  rw [if_neg hlong, byteAt_ok hbyte]
  by_cases hheader : slice data 0 4 = a2sHeader
  · have hiff : HasHeader data ↔ data[4] = 0x49 := by
      unfold HasHeader
      rw [htake, hheader, List.append_cancel_left_eq, List.singleton_inj]
    rw [if_neg (not_not_intro hheader)]
    have hsame : (data[4] ≠ 0x49) ↔ ¬(6 ≤ data.length ∧ HasHeader data) := by
      rw [hiff, and_iff_right (by omega)]
    exact congrArg Except.ok (decide_eq_decide.mpr hsame)
  · rw [if_pos hheader, decide_eq_true]
    · rfl
    · rintro ⟨-, hhas⟩
      unfold HasHeader at hhas
      rw [htake] at hhas
      exact hheader (List.append_inj_left' hhas rfl)

theorem playerCounts_ok (data : Bytes) (offset : Nat) : ∃ counts, playerCounts data offset = .ok counts := by
  unfold playerCounts
  split
  · rename_i hlong
    rw [byteAt_ok (by omega), byteAt_ok (by omega)]
    exact ⟨_, rfl⟩
  · exact ⟨_, rfl⟩

/-- What is behind the last zero byte is behind each of them. -/
theorem rtakeWhile_behind : (a ++ 0 :: b).rtakeWhile (· ≠ 0) = b.rtakeWhile (· ≠ 0) := by
  unfold List.rtakeWhile
  rw [List.reverse_append, List.reverse_cons, List.append_assoc, List.singleton_append]
  congr 1
  induction b.reverse with
  | nil => rfl
  | cons c cs ih => rw [List.cons_append, List.takeWhile_cons, List.takeWhile_cons, ih]

theorem findNull_none (h : findNull data offset = none) : 0 ∉ data.drop offset := by
  unfold findNull at h
  rw [Option.map_eq_none_iff, List.findIdx?_eq_none_iff] at h
  intro hmem
  exact absurd (h 0 hmem) (by decide)

theorem findNull_some {null_pos : Nat} (h : findNull data offset = some null_pos) :
    ∃ bs, data.drop offset = bs ++ 0 :: data.drop (null_pos + 1) ∧ 0 ∉ bs := by
  unfold findNull at h
  obtain ⟨i, hi, rfl⟩ := Option.map_eq_some_iff.mp h
  obtain ⟨hlt, hzero, hbefore⟩ := List.findIdx?_eq_some_iff_getElem.mp hi
  have hzero : (data.drop offset)[i] = 0 := of_decide_eq_true hzero
  refine ⟨(data.drop offset).take i, ?_, fun hmem => ?_⟩
  · conv_lhs => rw [← List.take_append_drop i (data.drop offset), List.drop_eq_getElem_cons hlt, hzero]
    rw [List.drop_drop, Nat.add_assoc]
  · obtain ⟨j, hj, heq⟩ := List.getElem_of_mem hmem
    rw [List.length_take] at hj
    rw [List.getElem_take] at heq
    exact hbefore j (by omega) (decide_eq_true heq)

/-- When there are too few strings, the reading ends where they do. -/
theorem readFields_short (h : (data.drop offset).count 0 < n) :
    data.drop (readFields n data offset fields).2 = (data.drop offset).rtakeWhile (· ≠ 0) := by
  induction n generalizing offset fields with
  | zero => cases h
  | succ n ih =>
    unfold readFields
    cases hfind : findNull data offset with
    | none =>
      have hnone := findNull_none hfind
      refine (List.rtakeWhile_eq_self_iff.mpr fun b hb => decide_eq_true ?_).symm
      rintro rfl
      exact hnone hb
    | some null_pos =>
      obtain ⟨bs, hdrop, hbs⟩ := findNull_some hfind
      dsimp only
      rw [hdrop, rtakeWhile_behind]
      apply ih
      rw [hdrop, List.count_append, List.count_cons_self] at h
      omega

/-- The counts are taken from the rest that does not end, if it is long enough. -/
theorem playerCounts_short (hdrop : data.drop offset = unended data) {counts : Int × Int} (h : playerCounts data offset = .ok counts) :
    counts = (0, 32) ↔ (unended data).length < 4 := by
  have hlength : (unended data).length = data.length - offset := by rw [← hdrop, List.length_drop]
  unfold playerCounts at h
  by_cases hlong : data.length ≥ offset + 4
  · rw [if_pos hlong, byteAt_ok (by omega), byteAt_ok (by omega)] at h
    cases h
    refine iff_of_false (fun hcounts => ?_) (by omega)
    -- a byte of a string that does not end is not zero
    have hmem : data[offset + 2] ∈ unended data := by
      rw [← hdrop]
      exact List.mem_iff_getElem.mpr ⟨2, by rw [List.length_drop]; omega, List.getElem_drop⟩
    have hne : decide (data[offset + 2] ≠ 0) = true := List.mem_rtakeWhile_imp (p := fun b => decide (b ≠ 0)) hmem
    have hne := of_decide_eq_true hne
    refine hne (UInt8.toNat_inj.mp ?_)
    exact Int.ofNat_inj.mp (Prod.mk.inj hcounts).1
  · rw [if_neg hlong] at h
    cases h
    exact iff_of_true rfl (by omega)

theorem unended_short (h : data.length < 6) : (unended data).length < 4 := by
  unfold unended
  rw [List.drop_eq_nil_of_le (by omega), List.rtakeWhile_nil]
  exact Nat.zero_lt_succ 3

/-- What the parser returns. -/
theorem parseA2sPacket_ok (data : Bytes) (latency_ms : Option ℚ) (query_port : Int) :
    ∃ info, parseA2sPacket data latency_ms query_port = .ok info ∧
      if 6 ≤ data.length ∧ HasHeader data then playerCounts data (readFields 4 data 6 []).2 = .ok (info.players, info.max_players)
      else info = fallback query_port := by
  unfold parseA2sPacket
  rw [isForeign_ok]
  by_cases hown : 6 ≤ data.length ∧ HasHeader data
  · obtain ⟨counts, hcounts⟩ := playerCounts_ok data (readFields 4 data 6 []).2
    simp only [if_pos hown]
    rw [decide_eq_false (not_not_intro hown), hcounts]
    exact ⟨_, rfl, rfl⟩
  · simp only [if_neg hown]
    rw [decide_eq_true hown]
    exact ⟨_, rfl, rfl⟩

/-- **Malformed replies.** Nothing is raised, and without four strings the numbers are the defaults if and only if the rest of the reply
is too short to hold others. -/
theorem handledSafely_iff (data : Bytes) (latency_ms : Option ℚ) (query_port : Int) :
    HandledSafely data latency_ms query_port ↔ (LacksStrings data → (unended data).length < 4) := by
  obtain ⟨info, hinfo, hcounts⟩ := parseA2sPacket_ok data latency_ms query_port
  constructor
  · intro h hlacks
    obtain ⟨hplayers, hmax⟩ := h.defaults hlacks info hinfo
    by_cases hlong : 6 ≤ data.length
    · rw [if_pos ⟨hlong, hlacks.1⟩] at hcounts
      exact (playerCounts_short (readFields_short hlacks.2) hcounts).mp (by rw [hplayers, hmax])
    · exact unended_short (by omega)
  · intro h
    refine ⟨⟨info, hinfo⟩, fun hlacks info' hinfo' => ?_⟩
    cases hinfo.symm.trans hinfo'
    by_cases hlong : 6 ≤ data.length
    · rw [if_pos ⟨hlong, hlacks.1⟩] at hcounts
      have hdefault := (playerCounts_short (readFields_short hlacks.2) hcounts).mpr (h hlacks)
      exact ⟨(Prod.mk.inj hdefault).1, (Prod.mk.inj hdefault).2⟩
    · rw [if_neg fun hown => hlong hown.1] at hcounts
      rw [hcounts]
      exact ⟨rfl, rfl⟩

end

/-! ## A name that does not end -/

/-- A reply that was cut off in the name of the server. -/
def cutReply : Bytes := a2sHeader ++ [0x49, 0x11] ++ utf8 "Palworld"

theorem cut_reply_counts : (parseA2sPacket cutReply none 27015).map (fun info => (info.players, info.max_players)) = .ok (108, 119) := by decide +kernel

/-- Letters of the name are taken for the numbers. -/
theorem letters_counted : ¬∀ data latency_ms query_port, HandledSafely data latency_ms query_port := by
  intro h
  have hlacks : LacksStrings cutReply := by
    refine ⟨?_, ?_⟩
    all_goals decide
  obtain ⟨info, hinfo⟩ := (h cutReply none 27015).returns
  have hcounts := cut_reply_counts
  rw [hinfo] at hcounts
  have hdefaults := (h cutReply none 27015).defaults hlacks info hinfo
  simp only [Except.map, Except.ok.injEq, Prod.mk.injEq, hdefaults] at hcounts
  exact absurd hcounts.1 (by decide)

end Palworld.Tracker

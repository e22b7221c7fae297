import Palworld.Tracker.Ledger

/-!
# The ledger as a history

What the ledger says of a player is a function of the polls with the player in them. It is the
first user id, and the name of the last poll, that it keeps.
-/

open Lib

namespace Palworld.Tracker

open PyAny (ofText)

variable {V : Type} [PyAny V]

/-- The time of a poll, and the players in it. -/
abbrev Poll (V : Type) := Text × List (Fields V)

/-- A record of one player in a poll. -/
abbrev Sighting (V : Type) := Text × Fields V

def pollAll : List (Poll V) → Ledger V → Except KeyError (Ledger V)
  | [], ledger => .ok ledger
  | (now_ts, live_players_raw) :: polls, ledger => do
    let (_, ledger) ← updateAndGetPlayers now_ts ledger live_players_raw
    pollAll polls ledger

def sightingsIn (pid : Text) (now_ts : Text) (ps : List (Fields V)) : List (Sighting V) := (ps.filter (pidOf · = pid)).map fun p => (now_ts, p)

/-- The records of one player, over all polls. -/
def sightings (pid : Text) (polls : List (Poll V)) : List (Sighting V) := polls.flatMap fun poll => sightingsIn pid poll.1 poll.2

/-- The value that was supplied last. -/
def lastSupplied (get : Fields V → Option V) (ss : List (Sighting V)) (default : V) : V := (ss.filterMap fun s => get s.2).getLast?.getD default

def suppliedUserId (p : Fields V) : Option V := p.get? (lit "userId")

/-! ## What is claimed -/

/-- A record that tells the history of a player. -/
structure Faithful (ss : List (Sighting V)) (record : Fields V) : Prop where
  first_seen : ∀ s, ss.head? = some s → record.get? (lit "first_seen") = some (ofText s.1)
  last_seen : ∀ s, ss.getLast? = some s → record.get? (lit "last_seen") = some (ofText s.1)
  name : record.get? (lit "name") = some (lastSupplied suppliedName ss (ofText (lit "Tamer")))
  userId : record.get? (lit "userId") = some (lastSupplied suppliedUserId ss (ofText []))
  tracked : ∀ f ∈ tracked V, record.get? f.1 = some (lastSupplied (·.get? f.1) ss f.2)

/-- Whoever was polled has a record, and no one else, and the records are faithful. -/
structure FaithfulLedger (polls : List (Poll V)) (ledger : Ledger V) : Prop where
  complete : ∀ pid, pid ∈ ids ledger ↔ sightings pid polls ≠ []
  records : ∀ pid record, ledger.get? pid = some record → Faithful (sightings pid polls) record

/-! ## What is kept -/

structure Kept (ss : List (Sighting V)) (record : Fields V) : Prop where
  first_seen : ∀ s, ss.head? = some s → record.get? (lit "first_seen") = some (ofText s.1)
  userId : ∀ s, ss.head? = some s → record.get? (lit "userId") = some ((suppliedUserId s.2).getD (ofText []))
  last_seen : ∀ s, ss.getLast? = some s → record.get? (lit "last_seen") = some (ofText s.1)
  name : ∀ s, ss.getLast? = some s → record.get? (lit "name") = some (nameOf s.2)
  tracked : ∀ f ∈ tracked V, record.get? f.1 = some (lastSupplied (·.get? f.1) ss f.2)

/-- What the ledger has for a player. -/
def KeptFor : List (Sighting V) → Option (Fields V) → Prop
  | [], old => old = none
  | ss, old => ∃ record, old = some record ∧ Kept ss record

section

variable {ss : List (Sighting V)} {s : Sighting V} {old : Option (Fields V)} {record : Fields V} {pid now_ts : Text} {ledger : Ledger V}

theorem keptFor_of_ne (hne : ss ≠ []) : KeptFor ss old ↔ ∃ record, old = some record ∧ Kept ss record := by
  cases ss with
  | nil => exact absurd rfl hne
  | cons s ss => exact Iff.rfl

theorem lastSupplied_snoc {V : Type} {ss : List (Sighting V)} {s : Sighting V} (get : Fields V → Option V) (default : V) :
    lastSupplied get (ss ++ [s]) default = (get s.2).getD (lastSupplied get ss default) := by
  unfold lastSupplied
  rw [List.filterMap_append]
  cases h : get s.2 with
  | none => simp [h]
  | some v => simp [h]

/-- One more record of a player. -/
theorem KeptFor.snoc (h : KeptFor ss old) (now_ts : Text) (p : Fields V) : KeptFor (ss ++ [(now_ts, p)]) (some (recordAfter now_ts p old)) := by
  rw [keptFor_of_ne (by simp)]
  refine ⟨_, rfl, ?_⟩
  have hlast : ∀ s, (ss ++ [(now_ts, p)]).getLast? = some s → s = (now_ts, p) := by
    intro s hs
    rw [List.getLast?_concat] at hs
    exact (Option.some.inj hs).symm
  cases ss with
  | nil =>
    obtain rfl : old = none := h
    refine ⟨?_, ?_, ?_, ?_, fun f hf => ?_⟩
    · rintro _ ⟨⟩
      exact first_seen_new
    · rintro _ ⟨⟩
      exact userId_new
    · intro s hs
      rw [hlast s hs]
      exact last_seen_recordAfter
    · intro s hs
      rw [hlast s hs]
      exact name_recordAfter
    · rw [tracked_recordAfter hf, lastSupplied_snoc]
      rfl
  | cons first ss =>
    obtain ⟨record, rfl, hkept⟩ := h
    refine ⟨?_, ?_, ?_, ?_, fun f hf => ?_⟩
    · intro s hs
      exact first_seen_merged.trans (hkept.first_seen s hs)
    · intro s hs
      exact userId_merged.trans (hkept.userId s hs)
    · intro s hs
      rw [hlast s hs]
      exact last_seen_recordAfter
    · intro s hs
      rw [hlast s hs]
      exact name_recordAfter
    · rw [tracked_recordAfter hf, lastSupplied_snoc, fieldOf, Option.bind_some, hkept.tracked f hf]
      rfl

theorem sightingsIn_cons (p : Fields V) (ps : List (Fields V)) :
    sightingsIn pid now_ts (p :: ps) = (if pidOf p = pid then [(now_ts, p)] else []) ++ sightingsIn pid now_ts ps := by
  unfold sightingsIn
  rw [List.filter_cons]
  by_cases h : pidOf p = pid <;> simp [h]

theorem keptFor_registerAll (before : Text → List (Sighting V)) {ps : List (Fields V)} (h : ∀ pid, KeptFor (before pid) (ledger.get? pid)) (pid : Text) :
    KeptFor (before pid ++ sightingsIn pid now_ts ps) ((registerAll now_ts ledger ps).get? pid) := by
  unfold registerAll
  induction ps generalizing ledger before with
  | nil =>
    have hnone : sightingsIn pid now_ts ([] : List (Fields V)) = [] := rfl
    rw [hnone, List.append_nil]
    exact h pid
  | cons p ps ih =>
    rw [List.foldl_cons, sightingsIn_cons, ← List.append_assoc]
    refine ih (fun pid => before pid ++ if pidOf p = pid then [(now_ts, p)] else []) fun other => ?_
    rw [get?_register]
    by_cases hother : other = pidOf p
    · rw [if_pos hother, if_pos hother.symm, hother]
      exact (h (pidOf p)).snoc now_ts p
    · rw [if_neg hother, if_neg (Ne.symm hother), List.append_nil]
      exact h other

/-- A record that was kept has a beginning. -/
theorem KeptFor.begun (h : KeptFor ss old) : Begun old := by
  cases ss with
  | nil =>
    obtain rfl : old = none := h
    exact begun_none
  | cons first ss =>
    obtain ⟨record, rfl, hkept⟩ := h
    rintro _ ⟨⟩
    rw [hkept.first_seen first rfl]
    simp

/-- The polls go through, and leave what is kept. -/
theorem pollAll_kept (before : Text → List (Sighting V)) {polls : List (Poll V)} (h : ∀ pid, KeptFor (before pid) (ledger.get? pid)) :
    ∃ ledger', pollAll polls ledger = .ok ledger' ∧ ∀ pid, KeptFor (before pid ++ sightings pid polls) (ledger'.get? pid) := by
  induction polls generalizing ledger before with
  | nil => exact ⟨ledger, rfl, fun pid => by simpa [sightings] using h pid⟩
  | cons poll polls ih =>
    obtain ⟨now_ts, ps⟩ := poll
    obtain ⟨active_list, ledger', hmerge⟩ := (mergePlayers_ok now_ts).mpr fun p (_ : p ∈ ps) => (h (pidOf p)).begun
    obtain ⟨-, rfl⟩ := mergePlayers_spec hmerge
    obtain ⟨ledger', hpoll, hkept⟩ := ih (fun pid => before pid ++ sightingsIn pid now_ts ps) fun pid => keptFor_registerAll before h pid
    refine ⟨ledger', bind_ok.mpr ⟨_, updateAndGetPlayers_ok.mpr ⟨active_list, hmerge, rfl⟩, hpoll⟩, fun pid => ?_⟩
    rw [sightings, List.flatMap_cons, ← List.append_assoc]
    exact hkept pid

/-! ## When the two are the same -/

/-- The name of the last record is the one that was supplied last, and the user id of the first record as well. -/
def SuppliedLast (ss : List (Sighting V)) : Prop :=
  ∀ first last, ss.head? = some first → ss.getLast? = some last →
    nameOf last.2 = lastSupplied suppliedName ss (ofText (lit "Tamer")) ∧
      (suppliedUserId first.2).getD (ofText []) = lastSupplied suppliedUserId ss (ofText [])

theorem Kept.faithful_iff (h : Kept ss record) (hne : ss ≠ []) : Faithful ss record ↔ SuppliedLast ss := by
  constructor
  · intro hfaithful first last hfirst hlast
    exact ⟨Option.some.inj ((h.name last hlast).symm.trans hfaithful.name), Option.some.inj ((h.userId first hfirst).symm.trans hfaithful.userId)⟩
  · intro hsupplied
    obtain ⟨hname, hid⟩ := hsupplied (ss.head hne) (ss.getLast hne) (List.head?_eq_some_head hne) (List.getLast?_eq_some_getLast hne)
    exact {
      first_seen := h.first_seen
      last_seen := h.last_seen
      name := (h.name _ (List.getLast?_eq_some_getLast hne)).trans (congrArg some hname)
      userId := (h.userId _ (List.head?_eq_some_head hne)).trans (congrArg some hid)
      tracked := h.tracked }

theorem faithfulLedger_iff {polls : List (Poll V)} (h : ∀ pid, KeptFor (sightings pid polls) (ledger.get? pid)) :
    FaithfulLedger polls ledger ↔ ∀ pid, SuppliedLast (sightings pid polls) := by
  constructor
  · intro hfaithful pid
    by_cases hne : sightings pid polls = []
    · rw [hne]
      rintro _ _ ⟨⟩
    · obtain ⟨record, hrecord, hkept⟩ := (keptFor_of_ne hne).mp (h pid)
      exact (hkept.faithful_iff hne).mp (hfaithful.records pid record hrecord)
  · intro hsupplied
    refine ⟨fun pid => ?_, fun pid record hrecord => ?_⟩
    · rw [mem_ids]
      by_cases hne : sightings pid polls = []
      · have hkept := h pid
        rw [hne] at hkept
        exact iff_of_false (not_not_intro hkept) (not_not_intro hne)
      · obtain ⟨record, hrecord, -⟩ := (keptFor_of_ne hne).mp (h pid)
        exact iff_of_true (by rw [hrecord]; simp) hne
    · by_cases hne : sightings pid polls = []
      · have hkept := h pid
        rw [hne, hrecord] at hkept
        cases hkept
      · obtain ⟨record', hrecord', hkept⟩ := (keptFor_of_ne hne).mp (h pid)
        cases hrecord.symm.trans hrecord'
        exact (hkept.faithful_iff hne).mpr (hsupplied pid)

theorem pollAll_empty (polls : List (Poll V)) :
    ∃ ledger, pollAll polls .empty = .ok ledger ∧ ∀ pid, KeptFor (sightings pid polls) (ledger.get? pid) :=
  pollAll_kept (fun _ => []) fun _ => rfl

end

/-- **The history of the players.** It is faithful if and only if the last record of each player has the name that was supplied last,
and the first record the user id that was. -/
theorem ledger_faithful_iff (polls : List (Poll V)) :
    (∃ ledger, pollAll polls .empty = .ok ledger ∧ FaithfulLedger polls ledger) ↔ ∀ pid, SuppliedLast (sightings pid polls) := by
  obtain ⟨ledger, hpoll, hkept⟩ := pollAll_empty polls
  rw [← faithfulLedger_iff hkept]
  constructor
  · rintro ⟨ledger', hpoll', hfaithful⟩
    cases hpoll.symm.trans hpoll'
    exact hfaithful
  · exact fun h => ⟨ledger, hpoll, h⟩

/-! ## A name that is left out -/

def ann : Fields Cell := Dict.ofList [(lit "playerId", .text (lit "1001")), (lit "name", .text (lit "Ann"))]

def annWithoutName : Fields Cell := Dict.ofList [(lit "playerId", .text (lit "1001"))]

def annPolls : List (Poll Cell) := [(lit "2025-01-01 00:00:00", [ann]), (lit "2025-01-01 00:00:05", [annWithoutName])]

theorem sightings_ann : sightings (lit "1001") annPolls =
    [(lit "2025-01-01 00:00:00", ann), (lit "2025-01-01 00:00:05", annWithoutName)] := rfl

/-- A poll without the name puts the placeholder in its place. -/
theorem name_forgotten : ¬∀ polls : List (Poll Cell), ∃ ledger, pollAll polls .empty = .ok ledger ∧ FaithfulLedger polls ledger := by
  intro h
  obtain ⟨ledger, hpoll, hfaithful⟩ := h annPolls
  obtain ⟨ledger', hpoll', hkept⟩ := pollAll_empty annPolls
  cases hpoll.symm.trans hpoll'
  have hsupplied := (faithfulLedger_iff hkept).mp hfaithful (lit "1001")
  rw [sightings_ann] at hsupplied
  have hname := (hsupplied _ _ rfl rfl).1
  revert hname
  decide +kernel

end Palworld.Tracker

import Palworld.Engine.Countdown
import Palworld.Lib.Str

/-!
# The times that a countdown speaks of

`format_countdown_string` speaks of whole minutes from a minute on. The durations that the
announced texts denote are read back out of the texts.
-/

open Lib

namespace Palworld.Engine

variable {cfg : EngineConfig} {s e : PalEngine} {as : List Act} {i : Nat} {args : RebootArgs} {n r : Nat}

/-! ## Reading a duration -/

/-- The seconds in a unit of time. -/
def unitSeconds (unit : List Char) : Option Nat :=
  if unit = "seconds".toList then some 1
  else if unit = "minute".toList ∨ unit = "minutes".toList then some 60
  else none

/-- The duration at the end of a text: its last two words, without a full stop. -/
def denoted (text : String) : Option Nat :=
  let words := text.toList.reverse.dropWhile (· == '.')
  let unit := (words.takeWhile (· ≠ ' ')).reverse
  let digits := (((words.dropWhile (· ≠ ' ')).drop 1).takeWhile Char.isDigit).reverse
  if digits = [] then none else (unitSeconds unit).map (Nat.ofDigitChars 10 digits 0 * ·)

/-- What an announcement says about the time that remains. -/
def Op.denotes : Op → Option Nat
  | .sendBroadcast message => denoted message
  | .notifyRebootCountdown timeStr .. => denoted timeStr
  | _ => none

/-- The time in whole minutes, from a minute on. -/
def wholeMinutes (r : Nat) : Nat := if r ≥ 60 then r / 60 * 60 else r

theorem denoted_of {text : String} {front digits unit stop : List Char}
    (htext : text.toList = front ++ (digits ++ ' ' :: unit) ++ stop) (hfront : ∀ c ∈ front.getLast?, c.isDigit = false)
    (hdigits : ∀ c ∈ digits, c.isDigit = true) (hne : digits ≠ []) (hunit : ∀ c ∈ unit, c ≠ ' ' ∧ c ≠ '.')
    (hstop : stop = [] ∨ stop = ['.']) (hsome : unit ≠ []) :
    denoted text = (unitSeconds unit).map (Nat.ofDigitChars 10 digits 0 * ·) := by
  have hwords : text.toList.reverse.dropWhile (· == '.') = unit.reverse ++ ' ' :: (digits.reverse ++ front.reverse) := by
    obtain ⟨c, rest, hrev⟩ := List.exists_cons_of_ne_nil (mt List.reverse_eq_nil_iff.mp hsome)
    have hc : c ≠ '.' := (hunit c (List.mem_reverse.mp (hrev ▸ List.mem_cons_self))).2
    rw [htext]
    rcases hstop with rfl | rfl <;> simp [hrev, hc]
  have hspace : ' ' ∉ unit.reverse := fun hmem => (hunit ' ' (List.mem_reverse.mp hmem)).1 rfl
  have hread : (digits.reverse ++ front.reverse).takeWhile Char.isDigit = digits.reverse := by
    rw [List.takeWhile_append_of_pos fun c hc => hdigits c (List.mem_reverse.mp hc)]
    cases hrev : front.reverse with
    | nil => rw [List.takeWhile_nil, List.append_nil]
    | cons c rest =>
      have hlast : front.getLast? = some c := by rw [← List.head?_reverse, hrev, List.head?_cons]
      rw [List.takeWhile_cons_of_neg (by simp [hfront c hlast]), List.append_nil]
  simp only [denoted]
  rw [hwords, takeWhile_ne_stop hspace, dropWhile_ne_stop hspace, List.drop_one, List.tail_cons, hread,
    List.reverse_reverse, List.reverse_reverse, if_neg hne]

/-- What `format_countdown_string` says is the time in whole minutes, wherever it ends a sentence. -/
theorem denoted_format {text : String} {front stop : List Char}
    (htext : text.toList = front ++ (formatCountdownString r).toList ++ stop)
    (hfront : ∀ c ∈ front.getLast?, c.isDigit = false) (hstop : stop = [] ∨ stop = ['.']) :
    denoted text = some (wholeMinutes r) := by
  have hdigits : ∀ k, ∀ c ∈ Nat.toDigits 10 k, c.isDigit = true :=
    fun k c hc => Nat.isDigit_of_mem_toDigits (by decide) (by decide) hc
  have hread : ∀ k unit seconds, (formatCountdownString r).toList = Nat.toDigits 10 k ++ ' ' :: unit →
      (∀ c ∈ unit, c ≠ ' ' ∧ c ≠ '.') → unit ≠ [] → unitSeconds unit = some seconds →
      denoted text = some (k * seconds) := by
    intro k unit seconds hformat hunit hsome hseconds
    rw [hformat] at htext
    rw [denoted_of htext hfront (hdigits k) Nat.toDigits_ne_nil hunit hstop hsome, hseconds, Option.map_some,
      Nat.ofDigitChars_ten_toDigits]
  by_cases hlong : r ≥ 60
  · rw [wholeMinutes, if_pos hlong]
    by_cases hmany : r / 60 > 1
    · apply hread (r / 60) "minutes".toList 60
      · simp [formatCountdownString, hlong, hmany]
      · simp
      · decide
      · decide
    · apply hread (r / 60) "minute".toList 60
      · simp [formatCountdownString, hlong, hmany]
      · simp
      · decide
      · decide
  · rw [wholeMinutes, if_neg hlong, ← Nat.mul_one r]
    apply hread r "seconds".toList 1
    · simp [formatCountdownString, hlong]
    · simp
    · decide
    · decide

/-- Each broadcast of a countdown ends with the time that remains. -/
theorem countdownMessage_ends (args : RebootArgs) (r : Nat) :
    ∃ front, countdownMessage args r = front ++ " in " ++ formatCountdownString r ++ "." := by
  have hbase : ∃ front, (if args.triggerUpdate then "Server updating" ++ (if args.updateVersionTag = "" then "" else
      " to " ++ args.updateVersionTag) ++ " and restarting in " ++ formatCountdownString r ++ "."
      else "Server maintenance restart in " ++ formatCountdownString r ++ ".") =
      front ++ " in " ++ formatCountdownString r ++ "." := by
    split
    · refine ⟨"Server updating" ++ (if args.updateVersionTag = "" then "" else " to " ++ args.updateVersionTag) ++
        " and restarting", ?_⟩
      rw [@String.append_assoc _ " and restarting" " in "]
      rfl
    · exact ⟨"Server maintenance restart", rfl⟩
  obtain ⟨front, hbase⟩ := hbase
  simp only [countdownMessage, withCustomMessage, hbase]
  split
  · exact ⟨front, rfl⟩
  · exact ⟨args.customMessage ++ " - " ++ front, by simp only [String.append_assoc]⟩

theorem broadcastAt_denotes (args : RebootArgs) (r : Nat) : (broadcastAt args r).2.denotes = some (wholeMinutes r) := by
  obtain ⟨front, hfront⟩ := countdownMessage_ends args r
  apply @denoted_format r (countdownMessage args r) (front.toList ++ " in ".toList) ['.']
  · rw [hfront]
    simp
  · simp
  · exact Or.inr rfl

theorem noticeAt_denotes (args : RebootArgs) (r : Nat) : (noticeAt args r).2.denotes = some (wholeMinutes r) :=
  @denoted_format r (formatCountdownString r) [] [] (by simp) (by simp) (Or.inl rfl)

/-! ## What a countdown speaks of -/

/-- Two announcements denote durations that stand in this relation. -/
def Spoken (R : Nat → Nat → Prop) (a b : Nat × Op) : Prop :=
  ∃ d d', a.2.denotes = some d ∧ b.2.denotes = some d' ∧ R d d'

/-- Each announcement denotes the time that remains, and each a shorter one than those before it. -/
def SpokenExactly (announcements : List (Nat × Op)) : Prop :=
  (∀ a ∈ announcements, a.2.denotes = some a.1) ∧ announcements.Pairwise (Spoken (· > ·))

/-- The announcements of a countdown from `n`: only the first can speak of a time that is not the one that remains. -/
structure SpokenDown (n : Nat) (announcements : List (Nat × Op)) : Prop where
  floor : ∀ a ∈ announcements, a.2.denotes = some (wholeMinutes a.1)
  falls : announcements.Pairwise (Spoken (· ≥ ·))
  afterFirst : SpokenExactly announcements.tail
  exact_iff : SpokenExactly announcements ↔ n < 60 ∨ 60 ∣ n

theorem wholeMinutes_le_of_le {r' : Nat} (h : r' ≤ r) : wholeMinutes r' ≤ wholeMinutes r := by
  unfold wholeMinutes
  split <;> split <;> omega

theorem wholeMinutes_eq_iff : wholeMinutes r = r ↔ r < 60 ∨ 60 ∣ r := by
  unfold wholeMinutes
  split <;> omega

/-- Milestones that are whole minutes are spoken of exactly. -/
theorem spokenExactly_map {times : List Nat} {say : Nat → Nat × Op} (hat : ∀ r, (say r).1 = r)
    (hdenotes : ∀ r, (say r).2.denotes = some (wholeMinutes r)) (hwhole : ∀ r ∈ times, wholeMinutes r = r)
    (hdescends : times.Pairwise (· > ·)) : SpokenExactly (times.map say) := by
  constructor
  · simp only [List.mem_map]
    rintro a ⟨r, hr, rfl⟩
    rw [hdenotes, hwhole r hr, hat]
  · rw [List.pairwise_map]
    apply hdescends.imp_of_mem
    intro r r' hr hr' hless
    exact ⟨r, r', by rw [hdenotes, hwhole r hr], by rw [hdenotes, hwhole r' hr'], hless⟩

/-- The intervals that a countdown can announce are whole minutes, or below a minute. -/
theorem spokenDown_of_milestones {intervals times : List Nat} {say : Nat → Nat × Op} (hat : ∀ r, (say r).1 = r)
    (hdenotes : ∀ r, (say r).2.denotes = some (wholeMinutes r)) (hwhole : ∀ r ∈ intervals, wholeMinutes r = r)
    (hn : 0 < n) (htimes : Milestones intervals n times) : SpokenDown n (times.map say) := by
  obtain ⟨hdescends, hmem⟩ := htimes
  have hfirst : ∃ rest, times = n :: rest ∧ ∀ r ∈ rest, r ∈ intervals := by
    cases times with
    | nil => exact absurd ((hmem n).mpr (Or.inl rfl)) List.not_mem_nil
    | cons first rest =>
      rw [List.pairwise_cons] at hdescends
      have hhead : first = n := by
        rcases (hmem first).mp List.mem_cons_self with hhead | ⟨_, _, hle⟩
        · exact hhead
        · rcases List.mem_cons.mp ((hmem n).mpr (Or.inl rfl)) with hhead | htail
          · exact hhead.symm
          · have hless := hdescends.1 n htail
            omega
      subst hhead
      refine ⟨rest, rfl, fun r hr => ?_⟩
      have hless := hdescends.1 r hr
      rcases (hmem r).mp (List.mem_cons_of_mem _ hr) with hsame | ⟨hinterval, _⟩
      · omega
      · exact hinterval
  obtain ⟨rest, rfl, hrest⟩ := hfirst
  constructor
  · simp only [List.mem_map]
    rintro a ⟨r, _, rfl⟩
    rw [hdenotes, hat]
  · rw [List.pairwise_map]
    apply hdescends.imp
    intro r r' hless
    exact ⟨_, _, hdenotes r, hdenotes r', wholeMinutes_le_of_le (Nat.le_of_lt hless)⟩
  · rw [List.map_cons, List.tail_cons]
    exact spokenExactly_map hat hdenotes (fun r hr => hwhole r (hrest r hr)) (List.pairwise_cons.mp hdescends).2
  · rw [← wholeMinutes_eq_iff]
    constructor
    · intro hexact
      have hsaid := hexact.1 (say n) (List.mem_map_of_mem List.mem_cons_self)
      rw [hdenotes, hat] at hsaid
      exact Option.some.inj hsaid
    · intro hfloor
      apply spokenExactly_map hat hdenotes ?_ hdescends
      intro r hr
      rcases List.mem_cons.mp hr with rfl | hr
      · exact hfloor
      · exact hwhole r (hrest r hr)

theorem AnnouncedExactly.spokenDown (h : AnnouncedExactly i args as e) (hn : 0 < args.countdownSeconds) :
    SpokenDown args.countdownSeconds (announced Op.isBroadcast 0 (opsOf i e.trace)) ∧
      SpokenDown args.countdownSeconds (announced Op.isNotice 0 (opsOf i e.trace)) := by
  obtain ⟨⟨times, htimes, hbroadcasts⟩, ⟨notices, hnotices, hnoted⟩, -⟩ := h
  rw [hbroadcasts, hnoted]
  constructor
  · exact spokenDown_of_milestones (fun _ => rfl) (broadcastAt_denotes args) (by decide) hn htimes
  · exact spokenDown_of_milestones (fun _ => rfl) (noticeAt_denotes args) (by decide) hn hnotices

/-- **What a countdown says of the time that remains.** Every announcement speaks of the remaining
seconds, rounded down to whole minutes from a minute on, and never of more than the one before it.
Behind the first each one is exact and less than the one before it; the first is exact when the
countdown starts below a minute or at whole minutes, and only then. -/
theorem countdown_spokenDown (hs : Initial s) (hrun : Run (Step cfg) s as e)
    (hcall : e.calls i = .running args .savingWs) (hstart : 0 < args.countdownSeconds) :
    SpokenDown args.countdownSeconds (announced Op.isBroadcast 0 (opsOf i e.trace)) ∧
      SpokenDown args.countdownSeconds (announced Op.isNotice 0 (opsOf i e.trace)) :=
  (announced_of_saving hs hrun hcall hstart).spokenDown hstart

/-- The run of one second to the end of its loop. -/
theorem countdown_spokenDown_sample : ∃ e, Run (Step sampleConfig) sampleEngine oneSecondOver e ∧
    SpokenDown 1 (announced Op.isBroadcast 0 (opsOf 0 e.trace)) := by
  have hover : (exec (step sampleConfig) sampleEngine oneSecondOver).map (·.calls 0) =
      some (.running (sampleArgs 1) .savingWs) := by decide +kernel
  obtain ⟨e, he, hsaves⟩ := Option.map_eq_some_iff.mp hover
  exact ⟨e, Run.of_exec he, (countdown_spokenDown ⟨_, _, _, rfl⟩ (Run.of_exec he) hsaves Nat.one_pos).1⟩

/-- A countdown from 90 seconds says "1 minute" at 90 and at 60. -/
theorem countdown_says_one_minute_twice : ¬ ∀ cfg s as e i args, Initial s → Run (Step cfg) s as e →
    e.calls i = .running args .savingWs → 0 < args.countdownSeconds →
    SpokenExactly (announced Op.isBroadcast 0 (opsOf i e.trace)) := by
  have hbegins : (exec (step sampleConfig) sampleEngine (sampleCall 0 90 [])).map (·.calls 0) =
      some (.running (sampleArgs 90) .startWs) := by decide +kernel
  obtain ⟨m, hm, hcall⟩ := Option.map_eq_some_iff.mp hbegins
  have hinit : Initial sampleEngine := ⟨_, _, _, rfl⟩
  have hrun := Run.of_exec hm
  have huncancelled : Run (Only (Step sampleConfig) (Uncancelled 0)) sampleEngine (sampleCall 0 90 []) m := by
    apply hrun.only
    simp [sampleCall, Uncancelled]
  have hcounting : Counting 0 _ m (sampleArgs 90) .startWs :=
    ⟨hcall, rfl, tells_run hinit hrun, countsOn_run hinit huncancelled⟩
  obtain ⟨bs, e, hbs, hsaves⟩ := hcounting.finishes sampleConfig
  intro hclaim
  have hall := hrun.append hbs.of_only
  have hspoken := ((announced_of_saving hinit hall hsaves (by decide)).spokenDown (by decide)).1
  have hexact := hspoken.exact_iff.mp (hclaim _ _ _ _ _ _ hinit hall hsaves (by decide))
  exact absurd hexact (by decide)

end Palworld.Engine

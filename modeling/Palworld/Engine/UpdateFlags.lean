import Palworld.Lib.Run
import Palworld.Lib.Text
import Mathlib.Algebra.Order.Ring.Rat
import Mathlib.Data.Fintype.Basic

/-!
# Update requests

The engine asks for an update by flag files. The maintenance script, which the service runs before each start, looks for
them and takes them away once SteamCMD has succeeded. Any of the writes may fail.
-/

open Lib

namespace Palworld.Engine

/-! ## The engine's side -/

structure Flag where
  filled : Bool  -- the file has a byte
  mtime : ℚ

abbrev Flags := Text → Option Flag

def managedFlag : Text := lit "/var/lib/palmanager/update_requested"

def homeFlag : Text := lit "/home/steam/.update_requested"

def candidateFlag (updateFlag : Text) : Fin 3 → Text
  | 0 => updateFlag
  | 1 => managedFlag
  | 2 => homeFlag

/-- What comes of `mkdir` and `write_text` on a flag. -/
inductive Writing
  | refused
  | emptied  -- the file is opened, and the write fails
  | written
  deriving DecidableEq

def setFlag (now : ℚ) (path : Text) (fs : Flags) : Writing → Flags
  | .refused => fs
  | .emptied => Function.update fs path (some ⟨false, now⟩)
  | .written => Function.update fs path (some ⟨true, now⟩)

/-- `_set_update_flags`. -/
def setUpdateFlags (updateFlag : Text) (now : ℚ) (io : Fin 3 → Writing) (fs : Flags) : Flags :=
  [0, 1, 2].foldl (fun fs i => setFlag now (candidateFlag updateFlag i) fs (io i)) fs

/-- What comes of `exists`, `write_text` and `unlink` on a flag that is there. -/
inductive Clearing
  | unknown  -- the error of `exists`, which is not caught
  | refused
  | emptied  -- it cannot be unlinked
  | removed
  deriving DecidableEq

def clearFlag (now : ℚ) (path : Text) (fs : Flags) : Clearing → Flags
  | .unknown | .refused => fs
  | .emptied => if (fs path).isSome then Function.update fs path (some ⟨false, now⟩) else fs
  | .removed => Function.update fs path none

def clearFlags (updateFlag : Text) (now : ℚ) (io : Fin 3 → Clearing) : List (Fin 3) → Flags → Flags
  | [], fs => fs
  | i :: rest, fs =>
    if io i = .unknown then fs
    else clearFlags updateFlag now io rest (clearFlag now (candidateFlag updateFlag i) fs (io i))

/-- `_clear_update_flags`. -/
def clearUpdateFlags (updateFlag : Text) (now : ℚ) (io : Fin 3 → Clearing) (fs : Flags) : Flags :=
  clearFlags updateFlag now io [0, 1, 2] fs

/-! ## The script's side -/

/-- `[ -s path ]`. -/
def isFilled (fs : Flags) (path : Text) : Bool := (fs path).any Flag.filled

/-- `find path -mmin -15`. -/
def isRecent (now : ℚ) (fs : Flags) (path : Text) : Bool := (fs path).any fun flag => now - flag.mtime < 900

def updateRequested (now : ℚ) (fs : Flags) : Bool :=
  if isFilled fs managedFlag || isFilled fs homeFlag then true
  else if (fs managedFlag).isSome || (fs homeFlag).isSome then
    if (fs managedFlag).isSome && isRecent now fs managedFlag then true
    else (fs homeFlag).isSome && isRecent now fs homeFlag
  else false

/-- What a run of the script meets, up to its backups. -/
structure HookIo where
  freeKb : Option Nat         -- `none` where `df` gives no number
  steamcmd : Bool             -- a binary is found
  succeeds : Bool             -- its exit status is 0
  truncates : Text → Bool
  removes : Text → Bool

inductive HookRun
  | noSpace
  | noSteamcmd
  | failed
  | updated
  | bypassed
  deriving DecidableEq

def truncateFlag (now : ℚ) (io : HookIo) (path : Text) (fs : Flags) : Flags :=
  if io.truncates path then Function.update fs path (some ⟨false, now⟩) else fs

def removeFlag (io : HookIo) (path : Text) (fs : Flags) : Flags := if io.removes path then Function.update fs path none else fs

/-- The update step of `palworld-maintenance.sh`. A SteamCMD that fails ends the script at once. -/
def maintain (now : ℚ) (io : HookIo) (fs : Flags) : HookRun × Flags :=
  if io.freeKb.any fun kb => kb < 5242880 then (.noSpace, fs)
  else if updateRequested now fs then
    if !io.steamcmd then (.noSteamcmd, fs)
    else if io.succeeds then
      (.updated, removeFlag io homeFlag (removeFlag io managedFlag (truncateFlag now io homeFlag (truncateFlag now io managedFlag fs))))
    else (.failed, fs)
  else (.bypassed, fs)

/-! ## Runs -/

inductive FlagAction
  | request (now : ℚ) (io : Fin 3 → Writing)    -- a reboot sequence with `trigger_update` begins
  | cancel (now : ℚ) (io : Fin 3 → Clearing)    -- a countdown is cancelled
  | start (now : ℚ) (io : HookIo)               -- the service is started

structure FlagStore where
  flags : Flags
  runs : List HookRun

def FlagStore.act (updateFlag : Text) (s : FlagStore) : FlagAction → FlagStore
  | .request now io => { s with flags := setUpdateFlags updateFlag now io s.flags }
  | .cancel now io => { s with flags := clearUpdateFlags updateFlag now io s.flags }
  | .start now io => { flags := (maintain now io s.flags).2, runs := s.runs ++ [(maintain now io s.flags).1] }

/-- What the flags are for: whether an update is owed. -/
structure Register where
  owed : Bool
  runs : List HookRun

/-- A request gets through if one of the two flags that the script looks at is written. -/
def GetsThrough (updateFlag : Text) (io : Fin 3 → Writing) : Prop :=
  ∃ i, io i = .written ∧ (candidateFlag updateFlag i = managedFlag ∨ candidateFlag updateFlag i = homeFlag)

instance (updateFlag : Text) (io : Fin 3 → Writing) : Decidable (GetsThrough updateFlag io) := inferInstanceAs (Decidable (∃ _, _))

def Register.start (io : HookIo) (r : Register) : HookRun × Bool :=
  if io.freeKb.any fun kb => kb < 5242880 then (.noSpace, r.owed)
  else if r.owed then
    if !io.steamcmd then (.noSteamcmd, true) else if io.succeeds then (.updated, false) else (.failed, true)
  else (.bypassed, false)

def Register.act (updateFlag : Text) (r : Register) : FlagAction → Register
  | .request _ io => { r with owed := r.owed || GetsThrough updateFlag io }
  | .cancel .. => { r with owed := false }
  | .start _ io => { owed := (r.start io).2, runs := r.runs ++ [(r.start io).1] }

/-- Both machines side by side. -/
def Acts (updateFlag : Text) (s : FlagStore × Register) (act : FlagAction) (s' : FlagStore × Register) : Prop :=
  (s.1.act updateFlag act, s.2.act updateFlag act) = s'


/-! ## When nothing is lost -/

/-- No request is cut short after it has opened a flag. -/
def Whole : FlagAction → Prop
  | .request _ io => ∀ i, io i ≠ .emptied
  | .cancel .. | .start .. => True

/-- A cancellation takes away each flag that is there, and so does the script where it has to. -/
def LeavesNoFlag (updateFlag : Text) (fs : Flags) : FlagAction → Prop
  | .request .. => True
  | .cancel _ io => ∀ i, io i ≠ .unknown ∧ (io i = .removed ∨ fs (candidateFlag updateFlag i) = none)
  | .start _ io => io.removes managedFlag = true ∧ io.removes homeFlag = true

variable {updateFlag path : Text} {now : ℚ} {fs : Flags} {s s' : FlagStore × Register} {act : FlagAction} {as : List FlagAction}

def Asked (fs : Flags) : Prop := isFilled fs managedFlag = true ∨ isFilled fs homeFlag = true

def Unasked (fs : Flags) : Prop := fs managedFlag = none ∧ fs homeFlag = none

theorem updateRequested_of_asked (h : Asked fs) (now : ℚ) : updateRequested now fs = true := by
  unfold updateRequested
  rw [if_pos (by simpa [Asked] using h)]

theorem updateRequested_of_unasked (h : Unasked fs) (now : ℚ) : updateRequested now fs = false := by
  obtain ⟨hmanaged, hhome⟩ := h
  simp [updateRequested, isFilled, hmanaged, hhome]

theorem setFlag_self (h : isFilled fs path = true) {other : Text} {io : Writing} (hio : io ≠ .emptied) :
    isFilled (setFlag now other fs io) path = true := by
  cases io with
  | refused => exact h
  | emptied => exact absurd rfl hio
  | written =>
    dsimp only [setFlag, isFilled]
    by_cases hpath : path = other
    · subst hpath
      simp
    · rw [Function.update_of_ne hpath]
      exact h

theorem setFlag_written : isFilled (setFlag now path fs .written) path = true := by
  simp [setFlag, isFilled]

theorem asked_setFlag {i : Fin 3} {io : Writing} (hio : io ≠ .emptied) (h : Asked fs) :
    Asked (setFlag now (candidateFlag updateFlag i) fs io) :=
  h.imp (fun h => setFlag_self h hio) fun h => setFlag_self h hio

theorem unasked_setFlag {i : Fin 3} {io : Writing} (hio : io ≠ .emptied) (h : Unasked fs)
    (helse : io = .written → candidateFlag updateFlag i ≠ managedFlag ∧ candidateFlag updateFlag i ≠ homeFlag) :
    Unasked (setFlag now (candidateFlag updateFlag i) fs io) := by
  cases io with
  | refused => exact h
  | emptied => exact absurd rfl hio
  | written =>
    obtain ⟨hmanaged, hhome⟩ := helse rfl
    dsimp only [Unasked, setFlag]
    rw [Function.update_of_ne (Ne.symm hmanaged), Function.update_of_ne (Ne.symm hhome)]
    exact h

/-- A request that gets through asks, and one that does not changes nothing that the script looks at. -/
theorem setUpdateFlags_spec {io : Fin 3 → Writing} (hio : ∀ i, io i ≠ .emptied) :
    (Asked fs ∨ GetsThrough updateFlag io → Asked (setUpdateFlags updateFlag now io fs)) ∧
      (Unasked fs → ¬ GetsThrough updateFlag io → Unasked (setUpdateFlags updateFlag now io fs)) := by
  constructor
  · rintro (h | ⟨i, hwritten, hpath⟩)
    · exact asked_setFlag (hio 2) (asked_setFlag (hio 1) (asked_setFlag (hio 0) h))
    · have hasked : ∀ fs, Asked (setFlag now (candidateFlag updateFlag i) fs (io i)) := by
        intro fs
        rw [hwritten]
        rcases hpath with hpath | hpath
        · exact .inl (hpath ▸ setFlag_written)
        · exact .inr (hpath ▸ setFlag_written)
      match i, hasked with
      | 0, hasked => exact asked_setFlag (hio 2) (asked_setFlag (hio 1) (hasked fs))
      | 1, hasked => exact asked_setFlag (hio 2) (hasked _)
      | 2, hasked => exact hasked _
  · intro h hthrough
    have helse : ∀ i, io i = .written → candidateFlag updateFlag i ≠ managedFlag ∧ candidateFlag updateFlag i ≠ homeFlag := by
      intro i hwritten
      exact not_or.mp fun hpath => hthrough ⟨i, hwritten, hpath⟩
    exact unasked_setFlag (hio 2) (unasked_setFlag (hio 1) (unasked_setFlag (hio 0) h (helse 0)) (helse 1)) (helse 2)

theorem clearFlag_none {other : Text} {io : Clearing} (h : fs path = none) : clearFlag now other fs io path = none := by
  by_cases hpath : path = other
  · subst hpath
    cases io <;> simp [clearFlag, h]
  · cases io with
    | unknown | refused => exact h
    | emptied =>
      dsimp only [clearFlag]
      split
      · rw [Function.update_of_ne hpath]
        exact h
      · exact h
    | removed =>
      dsimp only [clearFlag]
      rw [Function.update_of_ne hpath]
      exact h

theorem clearUpdateFlags_unasked {io : Fin 3 → Clearing} (h : LeavesNoFlag updateFlag fs (.cancel now io)) :
    Unasked (clearUpdateFlags updateFlag now io fs) := by
  have hgone : ∀ i fs', (fs (candidateFlag updateFlag i) = none → fs' (candidateFlag updateFlag i) = none) →
      clearFlag now (candidateFlag updateFlag i) fs' (io i) (candidateFlag updateFlag i) = none := by
    intro i fs' hkept
    rcases (h i).2 with hremoved | hnone
    · rw [hremoved]
      exact Function.update_self ..
    · exact clearFlag_none (hkept hnone)
  unfold clearUpdateFlags clearFlags clearFlags clearFlags clearFlags
  rw [if_neg (h 0).1, if_neg (h 1).1, if_neg (h 2).1]
  constructor
  · exact clearFlag_none (hgone 1 _ fun hnone => clearFlag_none hnone)
  · exact hgone 2 _ fun hnone => clearFlag_none (clearFlag_none hnone)

theorem removeFlag_unasked {io : HookIo} (hmanaged : io.removes managedFlag = true) (hhome : io.removes homeFlag = true) (fs : Flags) :
    Unasked (removeFlag io homeFlag (removeFlag io managedFlag fs)) := by
  have hne : managedFlag ≠ homeFlag := by decide
  unfold Unasked removeFlag
  rw [if_pos hmanaged, if_pos hhome, Function.update_of_ne hne]
  exact ⟨Function.update_self .., Function.update_self ..⟩

/-! ## The flags and the register -/

/-- An update that is owed is asked for, and each start at which one was owed did what the register says. -/
structure Promised (s : FlagStore × Register) : Prop where
  asked : s.2.owed = true → Asked s.1.flags
  runs : List.Forall₂ (fun run owed => owed ≠ HookRun.bypassed → run = owed) s.1.runs s.2.runs

/-- And no other update is. -/
structure Exact (s : FlagStore × Register) : Prop where
  asked : s.2.owed = true → Asked s.1.flags
  unasked : s.2.owed = false → Unasked s.1.flags
  runs : s.1.runs = s.2.runs

variable (now) in
/-- At a start where an update is owed, the script does what the register says. -/
theorem maintain_owed {io : HookIo} {r : Register} (howed : r.owed = true) (h : Asked fs) :
    (maintain now io fs).1 = (r.start io).1 ∧ ((r.start io).2 = true → (maintain now io fs).2 = fs) := by
  unfold maintain Register.start
  rw [updateRequested_of_asked h, howed]
  split_ifs <;> simp_all

variable (now fs) in
theorem start_unowed {io : HookIo} {r : Register} (howed : r.owed = false) :
    (r.start io).2 = false ∧ ((r.start io).1 ≠ .bypassed → (maintain now io fs).1 = (r.start io).1) := by
  unfold maintain Register.start
  rw [howed]
  split_ifs <;> simp_all

theorem promised_step (hacts : Acts updateFlag s act s') (hwhole : Whole act) (h : Promised s) : Promised s' := by
  obtain ⟨⟨fs, runs⟩, r⟩ := s
  obtain rfl := hacts
  cases act with
  | request now io =>
    refine ⟨fun howed => (setUpdateFlags_spec hwhole).1 ?_, h.runs⟩
    have hcases : r.owed = true ∨ GetsThrough updateFlag io := by simpa [Register.act] using howed
    exact hcases.imp_left h.asked
  | cancel now io => exact ⟨fun howed => (by cases howed), h.runs⟩
  | start now io =>
    cases howed : r.owed with
    | true =>
      obtain ⟨hrun, hkept⟩ := @maintain_owed now fs io r howed (h.asked howed)
      refine ⟨fun hstill => ?_, List.rel_append h.runs (.cons (fun _ => hrun) .nil)⟩
      change Asked (maintain now io fs).2
      rw [hkept hstill]
      exact h.asked howed
    | false =>
      obtain ⟨hdone, hrun⟩ := @start_unowed now fs io r howed
      refine ⟨fun hstill => ?_, List.rel_append h.runs (.cons hrun .nil)⟩
      rw [show (r.start io).2 = true from hstill] at hdone
      cases hdone

theorem maintain_updated {io : HookIo} (h : (maintain now io fs).1 = .updated) (hmanaged : io.removes managedFlag = true)
    (hhome : io.removes homeFlag = true) : Unasked (maintain now io fs).2 := by
  unfold maintain at h ⊢
  split_ifs at h ⊢
  exact removeFlag_unasked hmanaged hhome _

theorem start_owed_false {io : HookIo} {r : Register} (howed : r.owed = true) (h : (r.start io).2 = false) :
    (r.start io).1 = .updated := by
  unfold Register.start at h ⊢
  rw [howed] at h ⊢
  split_ifs at h ⊢ <;> simp_all

theorem maintain_unasked {io : HookIo} {r : Register} (howed : r.owed = false) (h : Unasked fs) :
    maintain now io fs = ((r.start io).1, fs) := by
  unfold maintain Register.start
  rw [updateRequested_of_unasked h, howed]
  split_ifs <;> simp_all

theorem exact_step (hacts : Acts updateFlag s act s') (hwhole : Whole act) (hleaves : LeavesNoFlag updateFlag s.1.flags act)
    (h : Exact s) : Exact s' := by
  obtain ⟨⟨fs, runs⟩, r⟩ := s
  obtain rfl := hacts
  have hruns : runs = r.runs := h.runs
  cases act with
  | request now io =>
    obtain ⟨hasks, hnothing⟩ := @setUpdateFlags_spec updateFlag now fs io hwhole
    refine ⟨fun howed => hasks ?_, fun howed => ?_, hruns⟩
    · have hcases : r.owed = true ∨ GetsThrough updateFlag io := by simpa [Register.act] using howed
      exact hcases.imp_left h.asked
    · have hneither : r.owed = false ∧ ¬ GetsThrough updateFlag io := by simpa [Register.act] using howed
      exact hnothing (h.unasked hneither.1) hneither.2
  | cancel now io => exact ⟨fun howed => (by cases howed), fun _ => clearUpdateFlags_unasked hleaves, hruns⟩
  | start now io =>
    cases howed : r.owed with
    | true =>
      obtain ⟨hrun, hkept⟩ := @maintain_owed now fs io r howed (h.asked howed)
      refine ⟨fun hstill => ?_, fun hdone => ?_, ?_⟩
      · change Asked (maintain now io fs).2
        rw [hkept hstill]
        exact h.asked howed
      · exact maintain_updated (hrun.trans (start_owed_false howed hdone)) hleaves.1 hleaves.2
      · change runs ++ [(maintain now io fs).1] = r.runs ++ [(r.start io).1]
        rw [hrun, hruns]
    | false =>
      have hsame := @maintain_unasked now fs io r howed (h.unasked howed)
      have hstill := (@start_unowed now fs io r howed).1
      refine ⟨fun howed' => ?_, fun _ => ?_, ?_⟩
      · rw [show (r.start io).2 = true from howed'] at hstill
        cases hstill
      · change Unasked (maintain now io fs).2
        rw [hsame]
        exact h.unasked howed
      · change runs ++ [(maintain now io fs).1] = r.runs ++ [(r.start io).1]
        rw [hsame, hruns]

/-- **No request is lost.** Whatever else fails, an update that was asked for and neither made nor called off since is asked for
at every start, and each start at which one was owed ended as the register says, with the update still owed unless SteamCMD
succeeded. -/
theorem update_not_lost (hrun : Run (Acts updateFlag) (⟨fs, []⟩, ⟨false, []⟩) as s) (hwhole : ∀ act ∈ as, Whole act) :
    (s.2.owed = true → ∀ now, updateRequested now s.1.flags = true) ∧
      List.Forall₂ (fun run owed => owed ≠ HookRun.bypassed → run = owed) s.1.runs s.2.runs := by
  have hpromised : Promised s := by
    refine (hrun.only fun act hact _ => hwhole act hact).invariant (fun s act s' h hstep => ?_) ⟨nofun, .nil⟩
    exact promised_step hstep.1 hstep.2 h
  exact ⟨fun howed => updateRequested_of_asked (hpromised.asked howed), hpromised.runs⟩

def fullHook : HookIo := ⟨some 9000000, true, true, fun _ => true, fun _ => true⟩

/-- A SteamCMD that fails is run again at the next start. -/
theorem update_not_lost_failed : ∃ s : FlagStore × Register, s.1.runs = [.failed, .updated] ∧
    (s.2.owed = true → ∀ now, updateRequested now s.1.flags = true) ∧
      List.Forall₂ (fun run owed => owed ≠ HookRun.bypassed → run = owed) s.1.runs s.2.runs := by
  have hrun : Run (Acts managedFlag) (⟨fun _ => none, []⟩, ⟨false, []⟩)
      [.request 0 fun _ => .written, .start 60 { fullHook with succeeds := false }, .start 4000 fullHook] _ :=
    .cons rfl (.cons rfl (.cons rfl (.nil _)))
  exact ⟨_, by decide +kernel, update_not_lost hrun (by simp [Whole])⟩

/-- **The flags are one bit.** Where cancellations and updates leave no flag behind, every start does what the register says, at
any time. -/
theorem update_flags_refine
    (hrun : Run (Only (Acts updateFlag) fun s act => Whole act ∧ LeavesNoFlag updateFlag s.1.flags act)
      (⟨fun _ => none, []⟩, ⟨false, []⟩) as s) :
    s.1.runs = s.2.runs ∧ ∀ now, updateRequested now s.1.flags = s.2.owed := by
  have hexact : Exact s :=
    hrun.invariant (fun s act s' h hstep => exact_step hstep.1 hstep.2.1 hstep.2.2 h) ⟨nofun, fun _ => ⟨rfl, rfl⟩, rfl⟩
  refine ⟨hexact.runs, fun now => ?_⟩
  cases howed : s.2.owed with
  | true => exact updateRequested_of_asked (hexact.asked howed) now
  | false => exact updateRequested_of_unasked (hexact.unasked howed) now

/-- A cancelled update is not run. -/
theorem update_flags_refine_cancelled : ∃ s : FlagStore × Register, s.1.runs.length = 1 ∧ s.1.runs = s.2.runs ∧
    ∀ now, updateRequested now s.1.flags = s.2.owed := by
  have hremoved : ∀ i : Fin 3, Clearing.removed ≠ .unknown ∧ (Clearing.removed = .removed ∨
      setUpdateFlags managedFlag 0 (fun _ => .written) (fun _ => none) (candidateFlag managedFlag i) = none) :=
    fun _ => ⟨nofun, .inl rfl⟩
  have hrun : Run (Only (Acts managedFlag) fun s act => Whole act ∧ LeavesNoFlag managedFlag s.1.flags act)
      (⟨fun _ => none, []⟩, ⟨false, []⟩)
      [.request 0 fun _ => .written, .cancel 30 fun _ => .removed, .start 60 fullHook] _ :=
    .cons ⟨rfl, fun _ => nofun, trivial⟩ (.cons ⟨rfl, trivial, hremoved⟩ (.cons ⟨rfl, trivial, rfl, rfl⟩ (.nil _)))
  exact ⟨_, rfl, update_flags_refine hrun⟩

/-- A flag that the cancellation could empty and not unlink still asks for the update, for a quarter of an hour. -/
example : (maintain 930 fullHook (clearUpdateFlags managedFlag 60 (fun _ => .emptied) fun _ => some ⟨true, 0⟩)).1 = .updated ∧
    (maintain 960 fullHook (clearUpdateFlags managedFlag 60 (fun _ => .emptied) fun _ => some ⟨true, 0⟩)).1 = .bypassed := by
  decide +kernel

end Palworld.Engine

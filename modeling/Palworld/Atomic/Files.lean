import Palworld.Lib.Dict
import Palworld.Lib.Glob
import Palworld.Lib.Program
import Palworld.Lib.AtomicFile
import Mathlib.Data.Rat.Defs

/-!
# The files beside a target

What the calls of an atomic write do to the directory of its target. Each may fail, and a write or
a copy that fails may leave a part of what it was to leave.
-/

open Lib

namespace Palworld.Atomic

structure File where
  content : Bytes
  st_mode : Nat
  st_mtime : ℚ
  /-- The content has reached the medium. -/
  synced : Bool
  deriving DecidableEq

/-- The files by name. Beside them, what the name of the target has stood for since the names last reached the medium, and every content
that the target has been given. -/
structure Folder where
  files : Dict Text File
  past : List (Option File)
  history : List Bytes

inductive OSError
  | osError
  deriving DecidableEq

/-! ## Names -/

def isRandomChar (c : Char) : Bool := c.isLower || c.isDigit || c == '_'

/-- What `tempfile` draws for a name. -/
structure RandomName where
  chars : Text
  drawn : chars.all isRandomChar = true

def stageName (random : RandomName) : Text := ".tmp_pal_io_".toList ++ (random.chars ++ ".tmp".toList)

def backupStem (target : Text) : Text := target ++ ".bak.".toList

def backupName (target timestamp_str : Text) : Text := backupStem target ++ timestamp_str

/-- A rotated backup of the target. -/
def IsBackup (target name : Text) : Prop := backupStem target <+: name

instance (target name : Text) : Decidable (IsBackup target name) := inferInstanceAs (Decidable (backupStem target <+: name))

/-! ## Calls -/

inductive Op
  | mkdir
  | pathExists (name : Text)
  | stat (name : Text)
  | namedTemporaryFile
  | write (name : Text) (content : Bytes)   -- and the flush
  | fsync (name : Text)
  | chmod (name : Text) (mode : Nat)
  | utcnow
  | copy2 (src dst : Text)
  | glob (pattern : Text)
  | unlink (name : Text)
  | replace (src dst : Text)
  | fsyncDirectory

@[reducible] def Op.Result : Op → Type
  | pathExists _ => Bool
  | stat _ => File
  | namedTemporaryFile | utcnow => Text
  | glob _ => List Text
  | _ => Unit

def fileCalls : Calls := ⟨Op, fun op => Except OSError op.Result⟩

/-- What the host does at a call. A write that fails leaves a part of the content, a copy that fails what it likes. -/
structure Choice where
  works : Bool
  random : RandomName
  now : ℚ
  timestamp_str : Text
  part : Nat
  left : Option File

namespace Folder

variable (target : Text)

def get? (s : Folder) (name : Text) : Option File := s.files.get? name

/-- The name stands for something else from now on. -/
def pastOf (name : Text) (s : Folder) : List (Option File) := if name = target then s.get? target :: s.past else s.past

def put (name : Text) (file : File) (s : Folder) : Folder := { s with files := s.files.set name file, past := s.pastOf target name }

def remove (name : Text) (s : Folder) : Folder := { s with files := s.files.filter (· ≠ name), past := s.pastOf target name }

end Folder

def Op.run (target : Text) (choice : Choice) : (op : Op) → Folder → Except OSError op.Result × Folder
  | mkdir, s => if choice.works then (.ok (), s) else (.error .osError, s)
  | pathExists name, s => if choice.works then (.ok (s.get? name).isSome, s) else (.error .osError, s)
  | stat name, s =>
    match choice.works, s.get? name with
    | true, some file => (.ok file, s)
    | _, _ => (.error .osError, s)
  | namedTemporaryFile, s =>
    if choice.works ∧ s.get? (stageName choice.random) = none then
      (.ok (stageName choice.random), s.put target (stageName choice.random) ⟨[], 0o600, choice.now, false⟩)
    else (.error .osError, s)
  | write name content, s =>
    match s.get? name with
    | none => (.error .osError, s)
    | some file =>
      if choice.works then (.ok (), s.put target name { file with content, st_mtime := choice.now, synced := false })
      else (.error .osError, s.put target name { file with content := content.take choice.part, st_mtime := choice.now, synced := false })
  | fsync name, s =>
    match choice.works, s.get? name with
    | true, some file => (.ok (), s.put target name { file with synced := true })
    | _, _ => (.error .osError, s)
  | chmod name mode, s =>
    match choice.works, s.get? name with
    | true, some file => (.ok (), s.put target name { file with st_mode := mode })
    | _, _ => (.error .osError, s)
  | utcnow, s => (.ok choice.timestamp_str, s)
  | copy2 src dst, s =>
    match s.get? src with
    | none => (.error .osError, s)
    | some file =>
      if choice.works then (.ok (), s.put target dst { file with synced := false })
      else
        match choice.left with
        | none => (.error .osError, s)
        | some left => (.error .osError, s.put target dst left)
  | glob pattern, s => if choice.works then (.ok ((s.files.entries.map Prod.fst).filter (fnmatch pattern)), s) else (.error .osError, s)
  | unlink name, s => if choice.works then (.ok (), s.remove target name) else (.error .osError, s)
  | replace src dst, s =>
    match choice.works, s.get? src with
    | true, some file =>
      (.ok (), { (s.remove target src).put target dst file with
        history := if dst = target then s.history ++ [file.content] else s.history })
    | _, _ => (.error .osError, s)
  | fsyncDirectory, s => if choice.works then (.ok (), { s with past := [] }) else (.error .osError, s)

/-- What a call may answer and leave, of the choices that are allowed. -/
def Does (target : Text) (allowed : Folder → Op → Choice → Prop) (op : Op) (s : Folder) (answer : Except OSError op.Result) (t : Folder) : Prop :=
  ∃ choice, allowed s op choice ∧ op.run target choice s = (answer, t)

/-! ## What a call leaves -/

section

variable {target name other : Text} {file : File} {s : Folder} {choice : Choice}

@[simp] theorem get?_put : (s.put target name file).get? other = if other = name then some file else s.get? other := Dict.get?_set

theorem get?_put_self : (s.put target name file).get? name = some file := get?_put.trans (if_pos rfl)

@[simp] theorem get?_remove : (s.remove target name).get? other = if other = name then none else s.get? other := by
  unfold Folder.get? Folder.remove
  rw [Dict.get?_filter]
  by_cases h : other = name <;> simp [h]

@[simp] theorem past_put (h : name ≠ target) : (s.put target name file).past = s.past := if_neg h

@[simp] theorem past_remove (h : name ≠ target) : (s.remove target name).past = s.past := if_neg h

/-- The calls that change nothing. -/
def Op.reads : Op → Bool
  | mkdir | pathExists _ | stat _ | utcnow | glob _ => true
  | _ => false

theorem run_reads {op : Op} (h : op.reads = true) : (op.run target choice s).2 = s := by
  cases op with
  | mkdir | pathExists | glob | stat =>
    simp only [Op.run]
    split <;> rfl
  | utcnow => rfl
  | namedTemporaryFile | write | fsync | chmod | copy2 | unlink | replace | fsyncDirectory => cases h

section

variable {K : Folder → Prop}

/-- What any file under the name keeps, a call on that file keeps. -/
theorem kept_write (hs : K s) (hput : ∀ file, K (s.put target name file)) (content : Bytes) (choice : Choice) :
    K ((Op.write name content).run target choice s).2 := by
  simp only [Op.run]
  split
  · exact hs
  · split
    · exact hput _
    · exact hput _

theorem kept_fsync (hs : K s) (hput : ∀ file, K (s.put target name file)) (choice : Choice) :
    K ((Op.fsync name).run target choice s).2 := by
  simp only [Op.run]
  split
  · exact hput _
  · exact hs

theorem kept_chmod (hs : K s) (hput : ∀ file, K (s.put target name file)) (mode : Nat) (choice : Choice) :
    K ((Op.chmod name mode).run target choice s).2 := by
  simp only [Op.run]
  split
  · exact hput _
  · exact hs

theorem kept_namedTemporaryFile (hs : K s) (hput : ∀ file, K (s.put target (stageName choice.random) file)) :
    K (Op.namedTemporaryFile.run target choice s).2 := by
  simp only [Op.run]
  split
  · exact hput _
  · exact hs

theorem kept_unlink (hs : K s) (hremove : K (s.remove target name)) (choice : Choice) : K ((Op.unlink name).run target choice s).2 := by
  simp only [Op.run]
  split
  · exact hremove
  · exact hs

end

theorem drawn_of_ok {tmp_path : Text} (h : (Op.namedTemporaryFile.run target choice s).1 = .ok tmp_path) : tmp_path = stageName choice.random := by
  simp only [Op.run] at h
  split at h
  · cases h
    rfl
  · cases h

theorem backup_ne_target (timestamp_str : Text) : backupName target timestamp_str ≠ target := by
  intro h
  have hlength := congrArg List.length h
  simp only [backupName, backupStem, List.length_append] at hlength
  have hmark : (".bak.".toList).length = 5 := rfl
  omega

theorem target_not_backup : ¬IsBackup target target := by
  intro h
  have hlength := h.length_le
  simp only [backupStem, List.length_append] at hlength
  have hmark : (".bak.".toList).length = 5 := rfl
  omega

theorem dot_notMem_random (random : RandomName) : '.' ∉ random.chars := by
  intro h
  have hdrawn := List.all_eq_true.mp random.drawn '.' h
  revert hdrawn
  decide

/-- The name of a staging file has two dots, and the name of a backup two after whatever begins it. -/
theorem stage_not_backup (random : RandomName) : ¬IsBackup target (stageName random) := by
  rintro ⟨behind, h⟩
  have hdots := congrArg (List.count '.') h
  have hrandom := List.count_eq_zero.2 (dot_notMem_random random)
  unfold backupStem stageName at h hdots
  simp only [List.count_append, hrandom] at hdots
  have hmark : (".bak.".toList).count '.' = 2 := by decide
  have hhead : (".tmp_pal_io_".toList).count '.' = 1 := by decide
  have hend : (".tmp".toList).count '.' = 1 := by decide
  cases target with
  | nil => exact absurd (List.cons.inj (List.cons.inj h).2).1 (by decide)
  | cons c target =>
    obtain rfl : c = '.' := (List.cons.inj h).1
    rw [List.count_cons_self] at hdots
    omega

theorem stage_ne_backup (random : RandomName) (timestamp_str : Text) : stageName random ≠ backupName target timestamp_str := by
  intro h
  have hbackup : IsBackup target (stageName random) := h ▸ List.prefix_append _ _
  exact stage_not_backup random hbackup

/-- A run with choices that are allowed is a run. -/
theorem reaches_exec {α : Type} (target : Text) {allowed : Folder → Op → Choice → Prop} {choices : List Choice}
    (hallowed : ∀ choice ∈ choices, ∀ op s, allowed s op choice) (start : Program fileCalls α × Folder) :
    Program.Reaches (Does target allowed) start (Program.exec (C := fileCalls) (Op.run target) choices start) :=
  Program.reaches_exec (fun choice hchoice op s => ⟨choice, hallowed choice hchoice op s, rfl⟩) start

end

end Palworld.Atomic

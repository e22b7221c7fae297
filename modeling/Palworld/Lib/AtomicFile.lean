import Mathlib.Tactic.Common
import Mathlib.Logic.Function.Basic

/-!
# Files that are replaced as a whole

A write goes to a staging file, is flushed, and the staging file takes the place of the
target. What is found later depends on where the writer stopped and, after a loss of
power, on what the directory had been flushed with.
-/

namespace Lib

abbrev Bytes := List UInt8

def utf8 (s : String) : Bytes := s.toByteArray.data.toList

/-- One effective call to the file system. -/
inductive FileOp (ν : Type)
  | create                     -- the staging file, empty
  | write (content : Bytes)
  | sync                       -- the staging file reaches the medium
  | chmod
  | replace (target : ν)       -- the staging file takes the name
  | syncDir                    -- the names reach the medium
  | unlink                     -- the staging file is removed
  deriving DecidableEq

/-- The staging file, the files as they are seen, and the files that a loss of power leaves for certain. -/
structure Disk (ν : Type) where
  stage : Option Bytes
  view : ν → Option Bytes
  durable : ν → Option Bytes

variable {ν : Type} {d : Disk ν} {p target : ν} {c content : Bytes} {ops more : List (FileOp ν)}

section

variable [DecidableEq ν]

def Disk.settled (files : ν → Option Bytes) : Disk ν := ⟨none, files, files⟩

def FileOp.run (d : Disk ν) : FileOp ν → Disk ν
  | .create => { d with stage := some [] }
  | .write content => { d with stage := some content }
  | .sync | .chmod => d
  | .replace target =>
    match d.stage with
    | some content => { d with stage := none, view := Function.update d.view target (some content) }
    | none => d
  | .syncDir => { d with durable := d.view }
  | .unlink => { d with stage := none }

def Disk.run (d : Disk ν) (ops : List (FileOp ν)) : Disk ν := ops.foldl FileOp.run d

/-- What is found under a name. After a loss of power, what was not flushed is there or is not. -/
def Disk.found (d : Disk ν) (loss : Option (ν → Bool)) (p : ν) : Option Bytes :=
  match loss with
  | none => d.view p
  | some kept => if kept p then d.view p else d.durable p

/-- The replacement of the name is followed by a flush of the names. -/
def Synced (p : ν) : List (FileOp ν) → Prop
  | [] => False
  | op :: ops => op = .replace p ∧ .syncDir ∈ ops ∨ Synced p ops

instance decidableSynced (p : ν) : (ops : List (FileOp ν)) → Decidable (Synced p ops)
  | [] => inferInstanceAs (Decidable False)
  | op :: ops =>
    have := decidableSynced p ops
    inferInstanceAs (Decidable (op = .replace p ∧ .syncDir ∈ ops ∨ Synced p ops))

/-- The replacement has taken place, and it has survived. -/
def InEffect (loss : Option (ν → Bool)) (p : ν) (ops : List (FileOp ν)) : Prop :=
  .replace p ∈ ops ∧
    match loss with
    | none => True
    | some kept => kept p = true ∨ Synced p ops

instance (loss : Option (ν → Bool)) (p : ν) (ops : List (FileOp ν)) : Decidable (InEffect loss p ops) := by
  unfold InEffect
  cases loss <;> infer_instance

/-- Whenever the name is replaced, it is by that content. -/
def Installs (p : ν) (c : Bytes) : Disk ν → List (FileOp ν) → Prop
  | _, [] => True
  | d, op :: ops => (op = .replace p → d.stage = some c) ∧ Installs p c (op.run d) ops

end

/-! ## Replacements that are flushed -/

theorem Synced.syncDir_mem (h : Synced p ops) : .syncDir ∈ ops := by
  induction ops with
  | nil => exact absurd h id
  | cons op ops ih =>
    rcases h with ⟨-, hmem⟩ | hrest
    · exact List.mem_cons_of_mem _ hmem
    · exact List.mem_cons_of_mem _ (ih hrest)

theorem Synced.replace_mem (h : Synced p ops) : .replace p ∈ ops := by
  induction ops with
  | nil => exact absurd h id
  | cons op ops ih =>
    rcases h with ⟨rfl, -⟩ | hrest
    · exact List.mem_cons_self
    · exact List.mem_cons_of_mem _ (ih hrest)

theorem synced_append : Synced p (ops ++ more) ↔ Synced p ops ∨ .replace p ∈ ops ∧ .syncDir ∈ more ∨ Synced p more := by
  induction ops with
  | nil => simp [Synced]
  | cons op ops ih =>
    simp only [List.cons_append, Synced, ih, List.mem_append, List.mem_cons, eq_comm (a := FileOp.replace p)]
    tauto

/-! ## Runs -/

section

variable [DecidableEq ν]

theorem installs_append : Installs p c d (ops ++ more) ↔ Installs p c d ops ∧ Installs p c (d.run ops) more := by
  induction ops generalizing d with
  | nil => simp [Installs, Disk.run]
  | cons op ops ih => simp only [List.cons_append, Installs, ih, Disk.run, List.foldl_cons, and_assoc]

theorem installs_take (h : Installs p c d ops) (n : Nat) : Installs p c d (ops.take n) := by
  rw [← List.take_append_drop n ops, installs_append] at h
  exact h.1

theorem view_op (op : FileOp ν) (h : op = .replace p → d.stage = some c) :
    (op.run d).view p = if op = .replace p then some c else d.view p := by
  cases op with
  | replace target =>
    by_cases htarget : target = p
    · subst htarget
      simp [FileOp.run, h rfl]
    · have hne : p ≠ target := Ne.symm htarget
      cases hstage : d.stage <;> simp [FileOp.run, hstage, htarget, hne]
  | create | write | sync | chmod | syncDir | unlink => simp [FileOp.run]

theorem durable_op (op : FileOp ν) : (op.run d).durable p = if op = .syncDir then d.view p else d.durable p := by
  cases op with
  | replace target => cases hstage : d.stage <;> simp [FileOp.run, hstage]
  | create | write | sync | chmod | syncDir | unlink => simp [FileOp.run]

theorem view_run (h : Installs p c d ops) : (d.run ops).view p = if .replace p ∈ ops then some c else d.view p := by
  induction ops generalizing d with
  | nil => simp [Disk.run]
  | cons op ops ih =>
    have hrest := ih h.2
    rw [view_op op h.1] at hrest
    rw [Disk.run, List.foldl_cons, ← Disk.run, hrest]
    by_cases hop : op = .replace p
    · simp [hop]
    · simp [hop, Ne.symm hop]

theorem durable_run (h : Installs p c d ops) : (d.run ops).durable p =
    if Synced p ops then some c else if .syncDir ∈ ops then d.view p else d.durable p := by
  induction ops generalizing d with
  | nil => simp [Disk.run, Synced]
  | cons op ops ih =>
    have hrest := ih h.2
    rw [view_op op h.1, durable_op] at hrest
    rw [Disk.run, List.foldl_cons, ← Disk.run, hrest]
    have hmem : Synced p ops → .syncDir ∈ ops := Synced.syncDir_mem
    by_cases hreplace : op = .replace p
    · subst hreplace
      simp only [Synced, true_and, if_true, List.mem_cons, reduceCtorEq, false_or, if_false]
      split_ifs <;> tauto
    · simp only [Synced, hreplace, false_and, false_or, if_false, List.mem_cons]
      by_cases hsync : op = .syncDir
      · subst hsync
        simp
      · simp [hsync, Ne.symm hsync]

/-- **What is found under a name**: the new content if its replacement is in effect, otherwise the old one. -/
theorem found_run {files : ν → Option Bytes} {loss : Option (ν → Bool)} (h : Installs p c (Disk.settled files) ops) :
    ((Disk.settled files).run ops).found loss p = if InEffect loss p ops then some c else files p := by
  have hview := view_run h
  have hdurable := durable_run h
  cases loss with
  | none => simpa [Disk.found, InEffect, Disk.settled] using hview
  | some kept =>
    have hmem : Synced p ops → .replace p ∈ ops := Synced.replace_mem
    simp only [Disk.found, hview, hdurable]
    simp only [InEffect, Disk.settled, ite_self]
    by_cases hkept : kept p = true <;> by_cases hsynced : Synced p ops <;> simp [hkept, hsynced, hmem]

end

/-! ## One atomic write -/

structure WriteIo where
  creates : Bool   -- the directory and the staging file
  writes : Bool
  syncs : Bool
  chmods : Bool
  replaces : Bool
  syncsDir : Bool
  unlinks : Bool

def cleanUp (io : WriteIo) : List (FileOp ν) := if io.unlinks then [.unlink] else []

/-- The calls of one write that take effect, and whether it returns. A failing `chmod` and a failing flush
of the directory are logged only. -/
def atomicWriteFile (io : WriteIo) (target : ν) (content : Bytes) : List (FileOp ν) × Bool :=
  if !io.creates then ([], false)
  else if !io.writes then (.create :: cleanUp io, false)
  else if !io.syncs then (.create :: .write content :: cleanUp io, false)
  else
    let staged := .create :: .write content :: .sync :: if io.chmods then [.chmod] else []
    if !io.replaces then (staged ++ cleanUp io, false)
    else (staged ++ .replace target :: if io.syncsDir then [.syncDir] else [], true)

def WriteIo.returns (io : WriteIo) : Bool := io.creates && io.writes && io.syncs && io.replaces

def WriteIo.replacesAt (io : WriteIo) : Nat := if io.chmods then 5 else 4

def WriteIo.calls (io : WriteIo) : Nat := if io.syncsDir then io.replacesAt + 1 else io.replacesAt

section Writes

variable {io : WriteIo} {n : Nat}

theorem installs_atomicWriteFile [DecidableEq ν] (h : target = p → content = c) : Installs p c d (atomicWriteFile io target content).1 := by
  unfold atomicWriteFile cleanUp
  split_ifs <;> simp [Installs, FileOp.run] <;> exact h

theorem atomicWriteFile_returns : (atomicWriteFile io target content).2 = io.returns := by
  unfold atomicWriteFile WriteIo.returns
  split_ifs <;> simp_all

theorem length_atomicWriteFile (h : io.returns = true) : (atomicWriteFile io target content).1.length = io.calls := by
  simp only [WriteIo.returns, Bool.and_eq_true] at h
  unfold WriteIo.calls WriteIo.replacesAt
  cases hchmods : io.chmods <;> cases hsyncsDir : io.syncsDir <;> simp [atomicWriteFile, h, hchmods, hsyncsDir]

theorem take_raised (h : io.returns = false) (op : FileOp ν) (hop : op = .replace p ∨ op = .syncDir) :
    op ∉ ((atomicWriteFile io target content).1).take n := by
  intro hmem
  have hall := List.mem_of_mem_take hmem
  unfold WriteIo.returns at h
  unfold atomicWriteFile cleanUp at hall
  split_ifs at hall <;> rcases hop with rfl | rfl <;> simp_all

def WriteIo.stages (io : WriteIo) (content : Bytes) : List (FileOp ν) :=
  .create :: .write content :: .sync :: if io.chmods then [.chmod] else []

theorem stages_take {op : FileOp ν} (hop : op = .replace p ∨ op = .syncDir) : op ∉ (io.stages content).take n := by
  intro hmem
  have hall := List.mem_of_mem_take hmem
  unfold WriteIo.stages at hall
  split_ifs at hall <;> rcases hop with rfl | rfl <;> simp at hall

/-- The first `n` calls of a write that returns: the staging, then the replacement, then the flush. -/
theorem take_returned (h : io.returns = true) : ((atomicWriteFile io target content).1).take n =
    (io.stages content).take n ++
      if io.replacesAt ≤ n then .replace target :: if io.syncsDir = true ∧ io.replacesAt < n then [.syncDir] else []
      else [] := by
  simp only [WriteIo.returns, Bool.and_eq_true] at h
  unfold WriteIo.stages WriteIo.replacesAt
  cases hchmods : io.chmods <;> cases hsyncsDir : io.syncsDir <;>
    rcases n with _ | _ | _ | _ | _ | _ | n <;> simp [atomicWriteFile, h, hchmods, hsyncsDir]

/-- A write stopped after `n` calls has replaced its target if it got that far, and no other name. -/
theorem replace_mem_take : .replace p ∈ ((atomicWriteFile io target content).1).take n ↔
    io.returns = true ∧ target = p ∧ io.replacesAt ≤ n := by
  by_cases hreturns : io.returns = true
  · have hstages : .replace p ∉ (io.stages content).take n := stages_take (.inl rfl)
    rw [take_returned hreturns, List.mem_append, eq_comm (a := target)]
    split_ifs <;> simp_all
  · simp only [hreturns, Bool.false_eq_true, false_and, iff_false]
    exact take_raised (by simpa using hreturns) _ (.inl rfl)

theorem syncDir_mem_take : .syncDir ∈ ((atomicWriteFile io target content).1).take n ↔
    io.returns = true ∧ io.syncsDir = true ∧ io.replacesAt < n := by
  by_cases hreturns : io.returns = true
  · have hstages : .syncDir ∉ (io.stages content).take n := stages_take (p := target) (.inr rfl)
    rw [take_returned hreturns]
    split_ifs <;> simp_all
    omega
  · simp only [hreturns, Bool.false_eq_true, false_and, iff_false]
    exact take_raised (p := target) (by simpa using hreturns) _ (.inr rfl)

theorem synced_take : Synced p (((atomicWriteFile io target content).1).take n) ↔
    io.returns = true ∧ target = p ∧ io.syncsDir = true ∧ io.replacesAt < n := by
  by_cases hreturns : io.returns = true
  · have hstages : .replace p ∉ (io.stages content).take n := stages_take (.inl rfl)
    have hnot : ¬ Synced p ((io.stages content).take n) := fun hsynced => hstages hsynced.replace_mem
    rw [take_returned hreturns, synced_append]
    by_cases hreplaced : io.replacesAt ≤ n
    · by_cases hflushed : io.syncsDir = true ∧ io.replacesAt < n
      · simp [hreplaced, hflushed, hnot, hstages, hreturns, Synced]
      · simp [hreplaced, hflushed, hnot, hstages, hreturns, Synced]
    · have hshort : ¬ io.replacesAt < n := by omega
      simp [hreplaced, hshort, hnot, Synced]
  · simp only [hreturns, Bool.false_eq_true, false_and, iff_false]
    intro hsynced
    exact take_raised (by simpa using hreturns) _ (.inl rfl) hsynced.replace_mem

end Writes

end Lib

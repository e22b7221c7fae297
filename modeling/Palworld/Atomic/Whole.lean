import Palworld.Atomic.Write
import Palworld.Lib.Locked

/-!
# The target is always whole

Threads write one target under one lock. At whatever point they stop, the target is what it was or
what one of them has written, and a call that raises leaves nothing behind.
-/

open Lib Program

namespace Palworld.Atomic

/-! ## What a crash finds -/

/-- What a loss of power may make of an entry. A file that has not reached the medium may hold anything. -/
def Survives : Option File → Option Bytes → Prop
  | none, x => x = none
  | some file, x => file.synced = true → x = some file.content

/-- What may be found under the name of the target after the process or the power fails. -/
def Found (target : Text) (s : Folder) (x : Option Bytes) : Prop :=
  x = (s.get? target).map File.content ∨ ∃ entry ∈ s.get? target :: s.past, Survives entry x

/-- The staging file that a call draws is not the target, and the removal of a staging file goes through. -/
def Tidies (target : Text) (_ : Folder) (op : Op) (choice : Choice) : Prop :=
  (op = .namedTemporaryFile → stageName choice.random ≠ target) ∧ ∀ random, op = .unlink (stageName random) → choice.works = true

/-! ## One call -/

/-- The complete content of a call, on the medium. -/
def IsNew (raw : Bytes) (file : File) : Prop := file.content = raw ∧ file.synced = true

/-- A staging file lies beside the target. -/
structure Litter (target : Text) (s : Folder) (name : Text) : Prop where
  stage : ∃ random, name = stageName random
  beside : name ≠ target
  there : s.get? name ≠ none

/-- The target holds what it held in `m` or the new content, and there is one staging file at most that was not there. -/
structure OldOrNew (target : Text) (raw : Bytes) (m s : Folder) : Prop where
  now : s.get? target = m.get? target ∨ ∃ file, s.get? target = some file ∧ IsNew raw file
  past : ∀ entry ∈ s.past, entry ∈ m.past ∨ entry = m.get? target ∨ ∃ file, entry = some file ∧ IsNew raw file
  litter : ∃ tmp_path, ∀ name, Litter target s name → Litter target m name ∨ some name = tmp_path

/-- Nothing has come of the call but its staging file. -/
structure Staging (target : Text) (tmp_path : Option Text) (m s : Folder) : Prop where
  same : s.get? target = m.get? target
  past : s.past = m.past
  litter : ∀ name, Litter target s name → Litter target m name ∨ some name = tmp_path

/-- The staging file, if it is still there, is complete. -/
structure ToReplace (target tmp_path : Text) (raw : Bytes) (m s : Folder) : Prop extends Staging target (some tmp_path) m s where
  complete : ∀ file, s.get? tmp_path = some file → IsNew raw file

/-- The target is replaced, and no staging file is left. -/
structure Replaced (target : Text) (raw : Bytes) (m s : Folder) : Prop where
  now : ∃ file, s.get? target = some file ∧ IsNew raw file
  past : ∀ entry ∈ s.past, entry ∈ m.past ∨ entry = m.get? target
  litter : ∀ name, Litter target s name → Litter target m name

section

variable {target tmp_path name other : Text} {tmp : Option Text} {raw : Bytes} {m s : Folder} {file : File} {op : Op}

theorem Staging.oldOrNew (h : Staging target tmp m s) : OldOrNew target raw m s :=
  ⟨.inl h.same, fun _ hentry => .inl (h.past ▸ hentry), tmp, h.litter⟩

theorem Replaced.oldOrNew (h : Replaced target raw m s) : OldOrNew target raw m s :=
  ⟨.inr h.now, fun entry hentry => (h.past entry hentry).imp_right .inl, none, fun name hname => .inl (h.litter name hname)⟩

theorem Staging.start : Staging target none m m := ⟨rfl, rfl, fun _ hname => .inl hname⟩

theorem Staging.put (h : Staging target tmp m s) (hne : name ≠ target) (hname : ∀ random, name = stageName random → some name = tmp) :
    Staging target tmp m (s.put target name file) := by
  refine ⟨?_, ?_, fun other hother => ?_⟩
  · rw [get?_put, if_neg hne.symm, h.same]
  · rw [past_put hne, h.past]
  · obtain ⟨⟨random, hrandom⟩, hbeside, hthere⟩ := hother
    by_cases hown : other = name
    · rw [hown] at hrandom ⊢
      exact .inr (hname random hrandom)
    · rw [get?_put, if_neg hown] at hthere
      exact h.litter other ⟨⟨random, hrandom⟩, hbeside, hthere⟩

theorem Litter.of_remove (h : Litter target (s.remove target name) other) : other ≠ name ∧ Litter target s other := by
  have hthere := h.there
  rw [get?_remove] at hthere
  split at hthere
  · exact absurd rfl hthere
  · rename_i hother
    exact ⟨hother, h.stage, h.beside, hthere⟩

theorem Staging.remove (h : Staging target tmp m s) (hne : name ≠ target) : Staging target tmp m (s.remove target name) := by
  refine ⟨?_, ?_, fun other hother => h.litter other hother.of_remove.2⟩
  · rw [get?_remove, if_neg hne.symm, h.same]
  · rw [past_remove hne, h.past]

/-- The staging file itself is removed. -/
theorem Staging.tidied (h : Staging target (some tmp_path) m s) (hne : tmp_path ≠ target) : Staging target none m (s.remove target tmp_path) := by
  refine ⟨(h.remove hne).same, (h.remove hne).past, fun other hother => ?_⟩
  obtain ⟨hother, hlitter⟩ := hother.of_remove
  rcases h.litter other hlitter with hold | hown
  · exact .inl hold
  · exact absurd (Option.some.inj hown) hother

theorem Staging.put_stage (h : Staging target (some tmp_path) m s) (hne : tmp_path ≠ target) (file : File) :
    Staging target (some tmp_path) m (s.put target tmp_path file) := h.put hne fun _ _ => rfl

theorem ToReplace.put_backup (h : ToReplace target tmp_path raw m s) (random : RandomName) (htmp : tmp_path = stageName random)
    (timestamp_str : Text) : ToReplace target tmp_path raw m (s.put target (backupName target timestamp_str) file) := by
  refine ⟨h.toStaging.put (backup_ne_target timestamp_str) fun other hother => absurd hother.symm (stage_ne_backup other timestamp_str), ?_⟩
  intro found hfound
  rw [get?_put, if_neg (htmp ▸ stage_ne_backup random timestamp_str)] at hfound
  exact h.complete found hfound

theorem ToReplace.remove (h : ToReplace target tmp_path raw m s) (hne : name ≠ target) : ToReplace target tmp_path raw m (s.remove target name) := by
  refine ⟨h.toStaging.remove hne, fun found hfound => ?_⟩
  rw [get?_remove] at hfound
  split at hfound
  · cases hfound
  · exact h.complete found hfound

/-! ### The calls of a write -/

variable {choice : Choice}

theorem run_write (raw : Bytes) (choice : Choice) (hne : tmp_path ≠ target) (h : Staging target (some tmp_path) m s) :
    Staging target (some tmp_path) m ((Op.write tmp_path raw).run target choice s).2 ∧
      (((Op.write tmp_path raw).run target choice s).1 = .ok () →
        ∀ file, ((Op.write tmp_path raw).run target choice s).2.get? tmp_path = some file → file.content = raw) := by
  simp only [Op.run]
  cases s.get? tmp_path with
  | none => exact ⟨h, fun hok => by cases hok⟩
  | some file =>
    cases choice.works with
    | false => exact ⟨h.put_stage hne _, fun hok => by cases hok⟩
    | true =>
      refine ⟨h.put_stage hne _, fun _ found hfound => ?_⟩
      have hwritten := hfound.symm.trans get?_put_self
      rw [Option.some.inj hwritten]

theorem run_fsync (choice : Choice) (hne : tmp_path ≠ target) (h : Staging target (some tmp_path) m s)
    (hcontent : ∀ file, s.get? tmp_path = some file → file.content = raw) :
    Staging target (some tmp_path) m ((Op.fsync tmp_path).run target choice s).2 ∧
      (((Op.fsync tmp_path).run target choice s).1 = .ok () → ToReplace target tmp_path raw m ((Op.fsync tmp_path).run target choice s).2) := by
  simp only [Op.run]
  cases choice.works with
  | false => exact ⟨h, fun hok => by cases hok⟩
  | true =>
    cases hfile : s.get? tmp_path with
    | none => exact ⟨h, fun hok => by cases hok⟩
    | some file =>
      refine ⟨h.put_stage hne _, fun _ => ⟨h.put_stage hne _, fun found hfound => ?_⟩⟩
      have hsynced := hfound.symm.trans get?_put_self
      rw [Option.some.inj hsynced]
      exact ⟨hcontent file hfile, rfl⟩

theorem run_chmod (hne : tmp_path ≠ target) (h : ToReplace target tmp_path raw m s) (mode : Nat) :
    ToReplace target tmp_path raw m ((Op.chmod tmp_path mode).run target choice s).2 := by
  simp only [Op.run]
  cases choice.works with
  | false => exact h
  | true =>
    cases hfile : s.get? tmp_path with
    | none => exact h
    | some file =>
      refine ⟨h.toStaging.put_stage hne _, fun found hfound => ?_⟩
      have hchanged := hfound.symm.trans get?_put_self
      rw [Option.some.inj hchanged]
      exact h.complete file hfile

/-- What is left after the last call that may raise. -/
def AfterReplace (target tmp_path : Text) (raw : Bytes) (m : Folder) {α : Type} : Except OSError α → Folder → Prop
  | .ok _, t => Replaced target raw m t
  | .error _, t => Staging target (some tmp_path) m t

/-- The replacement takes the complete staging file or nothing. -/
theorem run_replace (choice : Choice) (hne : tmp_path ≠ target) (h : ToReplace target tmp_path raw m s) :
    AfterReplace target tmp_path raw m ((Op.replace tmp_path target).run target choice s).1 ((Op.replace tmp_path target).run target choice s).2 := by
  simp only [Op.run]
  cases choice.works with
  | false => exact h.toStaging
  | true =>
    cases hfile : s.get? tmp_path with
    | none => exact h.toStaging
    | some file =>
      have hnow : ((s.remove target tmp_path).put target target file).get? target = some file := get?_put_self
      refine ⟨⟨file, hnow, h.complete file hfile⟩, fun entry hentry => ?_, fun name hname => ?_⟩
      · have hpast : entry ∈ (s.remove target tmp_path).get? target :: (s.remove target tmp_path).past := by
          simpa [Folder.put, Folder.pastOf] using hentry
        rw [get?_remove, if_neg hne.symm, past_remove hne, h.same, h.past] at hpast
        exact (List.mem_cons.mp hpast).symm
      · have hthere : ((s.remove target tmp_path).put target target file).get? name ≠ none := hname.there
        rw [get?_put, if_neg hname.beside] at hthere
        have hlitter : Litter target (s.remove target tmp_path) name := ⟨hname.stage, hname.beside, hthere⟩
        exact ((h.toStaging.tidied hne).litter name hlitter).resolve_right (by simp)

/-! ### The functions -/

/-- No name that the pruning removes is the target. -/
theorem prunes_toReplace (hpattern : fnmatch (backupStem target ++ ['*']) target = false) :
    Prunes (ToReplace target tmp_path raw m) target (Tidies target) := by
  intro s choice name h hmatch _
  have hne : name ≠ target := by
    rintro rfl
    rw [hpattern] at hmatch
    cases hmatch
  simp only [Op.run]
  split
  · exact h.remove hne
  · exact h

theorem copies_toReplace (random : RandomName) (htmp : tmp_path = stageName random) (h : ToReplace target tmp_path raw m s)
    (timestamp_str : Text) :
    ToReplace target tmp_path raw m ((Op.copy2 target (backupName target timestamp_str)).run target choice s).2 := by
  simp only [Op.run]
  split
  · exact h
  · split
    · exact h.put_backup random htmp timestamp_str
    · split
      · exact h
      · exact h.put_backup random htmp timestamp_str

theorem stageAndReplace_spec {call : Call} (random : RandomName) (htmp : tmp_path = stageName random) (hne : tmp_path ≠ target)
    (hpattern : fnmatch (backupStem target ++ ['*']) target = false) (target_mode : Nat) (h : Staging target (some tmp_path) m s) :
    (stageAndReplace target tmp_path call target_mode).run.Always (Does target (Tidies target)) (OldOrNew target call.raw_bytes m)
      (AfterReplace target tmp_path call.raw_bytes m) s := by
  have hI : ∀ t, ToReplace target tmp_path call.raw_bytes m t → OldOrNew target call.raw_bytes m t := fun t ht => ht.toStaging.oldOrNew
  unfold stageAndReplace
  apply always_then
  refine always_perform h.oldOrNew fun choice _ => ?_
  obtain ⟨hwrite, hcontent⟩ := run_write call.raw_bytes choice hne h
  refine ⟨hwrite.oldOrNew, ?_⟩
  cases hanswer : ((Op.write tmp_path call.raw_bytes).run target choice s).1 with
  | error err => exact hwrite
  | ok _ =>
    apply always_then
    refine always_perform hwrite.oldOrNew fun choice' _ => ?_
    obtain ⟨hfsync, hready⟩ := run_fsync choice' hne hwrite (hcontent hanswer)
    refine ⟨hfsync.oldOrNew, ?_⟩
    cases hanswer' : ((Op.fsync tmp_path).run target choice' ((Op.write tmp_path call.raw_bytes).run target choice s).2).1 with
    | error err => exact hfsync
    | ok _ =>
      -- from here on the staging file is complete
      have hready := hready hanswer'
      apply always_then
      apply always_lift
      refine (keeps_attempt hI hready fun choice _ => run_chmod hne hready target_mode).post fun _ t _ ht => ?_
      dsimp only [Rest]
      apply always_then
      have hbackup : (if call.make_backup then createBackupSnapshot target call.max_backups else pure none : Io (Option Text)).run.Always
          (Does target (Tidies target)) (OldOrNew target call.raw_bytes m) (fun _ t => ToReplace target tmp_path call.raw_bytes m t) t := by
        split
        · exact keeps_createBackupSnapshot hI ht (prunes_toReplace hpattern)
            (fun u _ timestamp_str hu _ => copies_toReplace random htmp hu timestamp_str) call.max_backups
        · exact keeps_return hI ht
      refine hbackup.post fun backup_path u _ hu => ?_
      cases backup_path with
      | error err => exact hu.toStaging
      | ok backup_path =>
        apply always_then
        refine always_perform (hI u hu) fun choice _ => ?_
        have hreplace := run_replace choice hne hu
        cases hanswer'' : ((Op.replace tmp_path target).run target choice u).1 with
        | error err =>
          rw [hanswer''] at hreplace
          exact ⟨hreplace.oldOrNew, hreplace⟩
        | ok _ =>
          rw [hanswer''] at hreplace
          refine ⟨hreplace.oldOrNew, ?_⟩
          dsimp only [Rest]
          exact always_return hreplace.oldOrNew hreplace

/-- What is left after a call. -/
def AfterCall (target : Text) (raw : Bytes) (m : Folder) : Except OSError AtomicWriteResult → Folder → Prop
  | .ok _, t => Replaced target raw m t
  | .error _, t => Staging target none m t

/-- A staging file that has been drawn is there, and no other is new. -/
theorem run_namedTemporaryFile (h : Staging target none m s) (hdrawn : stageName choice.random ≠ target) :
    match (Op.namedTemporaryFile.run target choice s).1 with
    | .ok tmp_path => tmp_path = stageName choice.random ∧ Staging target (some tmp_path) m (Op.namedTemporaryFile.run target choice s).2
    | .error _ => Staging target none m (Op.namedTemporaryFile.run target choice s).2 := by
  simp only [Op.run]
  split
  · rename_i heq
    split at heq
    · cases heq
      rename_i hfree
      rw [if_pos hfree]
      refine ⟨rfl, Staging.put ⟨h.same, h.past, fun name hname => ?_⟩ hdrawn fun _ _ => rfl⟩
      exact .inl ((h.litter name hname).resolve_right (by simp))
    · cases heq
  · rename_i heq
    split at heq
    · cases heq
    · rename_i hfree
      rw [if_neg hfree]
      exact h

theorem fsyncDirectory_replaced (h : Replaced target raw m s) : Replaced target raw m (Op.fsyncDirectory.run target choice s).2 := by
  simp only [Op.run]
  split
  · exact ⟨h.now, fun _ hentry => (by cases hentry), fun name hname => h.litter name ⟨hname.stage, hname.beside, hname.there⟩⟩
  · exact h

theorem atomicWriteFile_spec (hpattern : fnmatch (backupStem target ++ ['*']) target = false) (call : Call) (m : Folder) :
    (atomicWriteFile target call).run.Always (Does target (Tidies target)) (OldOrNew target call.raw_bytes m)
      (AfterCall target call.raw_bytes m) m := by
  have hI : ∀ t, Staging target none m t → OldOrNew target call.raw_bytes m t := fun t ht => ht.oldOrNew
  unfold atomicWriteFile
  apply always_then
  refine always_reads rfl (hI m .start) fun answer => ?_
  cases answer with
  | error err => exact Staging.start
  | ok _ =>
    apply always_then
    refine (keeps_resolveTargetMode hI .start call.mode).post fun target_mode t _ ht => ?_
    cases target_mode with
    | error err => exact ht
    | ok target_mode =>
      apply always_then
      refine always_perform (hI t ht) fun choice htidies => ?_
      have hdrawn := htidies.1 rfl
      have hcreate := run_namedTemporaryFile ht hdrawn
      cases hanswer : (Op.namedTemporaryFile.run target choice t).1 with
      | error err =>
        rw [hanswer] at hcreate
        exact ⟨hI _ hcreate, hcreate⟩
      | ok tmp_path =>
        rw [hanswer] at hcreate
        obtain ⟨htmp, hcreate⟩ := hcreate
        have hne : tmp_path ≠ target := htmp ▸ hdrawn
        refine ⟨hcreate.oldOrNew, ?_⟩
        dsimp only [Rest]
        apply always_then
        apply always_tryCatch
        refine (stageAndReplace_spec choice.random htmp hne hpattern target_mode hcreate).post fun backup_path u _ hu => ?_
        cases backup_path with
        | error err =>
          -- the staging file is removed before the error goes on
          apply always_then
          apply always_lift
          apply always_attempt
          refine always_perform hu.oldOrNew fun choice' htidies' => ?_
          have hworks := htidies'.2 choice.random (by rw [htmp])
          have htidied : Staging target none m ((Op.unlink tmp_path).run target choice' u).2 := by
            simp only [Op.run, hworks]
            exact hu.tidied hne
          refine ⟨hI _ htidied, ?_⟩
          dsimp only [Rest]
          exact always_throw (hI _ htidied) htidied
        | ok backup_path =>
          dsimp only [Rest]
          apply always_then
          have hR : ∀ v, Replaced target call.raw_bytes m v → OldOrNew target call.raw_bytes m v := fun v hv => hv.oldOrNew
          have hflush : (if call.sync_directory then liftM (attempt (perform .fsyncDirectory)) else pure none : Io (Option Unit)).run.Always
              (Does target (Tidies target)) (OldOrNew target call.raw_bytes m)
              (fun answer v => (∃ flushed, answer = .ok flushed) ∧ Replaced target call.raw_bytes m v) u := by
            split
            · exact always_lift ((keeps_attempt hR hu fun _ _ => fsyncDirectory_replaced hu).post fun flushed v _ hv => ⟨⟨flushed, rfl⟩, hv⟩)
            · exact always_return (hR u hu) ⟨⟨none, rfl⟩, hu⟩
          refine hflush.post fun answer v _ hv => ?_
          obtain ⟨⟨flushed, rfl⟩, hv⟩ := hv
          dsimp only [Rest]
          exact always_return (hR v hv) hv

end

/-! ## Every interleaving -/

/-- Threads that write one target, each with its own call. -/
abbrev Writers (τ : Type) := Workers fileCalls τ Folder (Except OSError AtomicWriteResult)

section

variable {τ : Type} (target : Text) (calls : τ → Call)

def writer (t : τ) : Program fileCalls (Except OSError AtomicWriteResult) := (atomicWriteFile target (calls t)).run

/-- The content of the last call that has returned, or what there was before any. -/
def lastWritten (old : Option Bytes) : List (τ × Except OSError AtomicWriteResult) → Option Bytes
  | [] => old
  | (t, .ok _) :: results => lastWritten (some (calls t).raw_bytes) results
  | (_, .error _) :: results => lastWritten old results

/-- A call has got the lock, now or before. -/
def Begun (w : Writers τ) (t : τ) : Prop := w.holder = some t ∨ ∃ result, (t, .ok result) ∈ w.results

/-- The guarantee of the atomic write. -/
structure WholeTarget (s : Folder) (w : Writers τ) : Prop where
  now : (w.store.get? target).map File.content = (s.get? target).map File.content ∨
    ∃ t, Begun w t ∧ (w.store.get? target).map File.content = some (calls t).raw_bytes
  found : ∀ x, Found target w.store x → Found target s x ∨ ∃ t, Begun w t ∧ x = some (calls t).raw_bytes
  settled : w.holder = none → (w.store.get? target).map File.content = lastWritten calls ((s.get? target).map File.content) w.results
  without : w.holder = none → ∀ before t err after, w.results = before ++ (t, .error err) :: after →
    (w.store.get? target).map File.content = lastWritten calls ((s.get? target).map File.content) (before ++ after)
  tidy : w.holder = none → ∀ name, Litter target w.store name → Litter target s name

end

section

variable {τ : Type} {target : Text} {calls : τ → Call} {s m u : Folder} {results before after : List (τ × Except OSError AtomicWriteResult)}

theorem lastWritten_ok (t : τ) (result : AtomicWriteResult) (old : Option Bytes) :
    lastWritten calls old (results ++ [(t, .ok result)]) = some (calls t).raw_bytes := by
  induction results generalizing old with
  | nil => rfl
  | cons head results ih =>
    rcases head with ⟨t', _ | _⟩
    · exact ih _
    · exact ih _

theorem lastWritten_error (t : τ) (err : OSError) (old : Option Bytes) :
    lastWritten calls old (before ++ (t, .error err) :: after) = lastWritten calls old (before ++ after) := by
  induction before generalizing old with
  | nil => rfl
  | cons head before ih =>
    rcases head with ⟨t', _ | _⟩
    · exact ih _
    · exact ih _

/-- What holds between the calls. -/
structure Between (target : Text) (calls : τ → Call) (s : Folder) (results : List (τ × Except OSError AtomicWriteResult)) (m : Folder) : Prop where
  entries : ∀ entry ∈ m.get? target :: m.past, entry ∈ s.get? target :: s.past ∨
    ∃ t result file, (t, .ok result) ∈ results ∧ entry = some file ∧ IsNew (calls t).raw_bytes file
  now : m.get? target = s.get? target ∨ ∃ t result file, (t, .ok result) ∈ results ∧ m.get? target = some file ∧ IsNew (calls t).raw_bytes file
  settled : (m.get? target).map File.content = lastWritten calls ((s.get? target).map File.content) results
  tidy : ∀ name, Litter target m name → Litter target s name

theorem between_start : Between target calls s [] s := ⟨fun _ hentry => .inl hentry, .inl rfl, rfl, fun _ hname => hname⟩

theorem between_call (hpattern : fnmatch (backupStem target ++ ['*']) target = false) {t : τ} {a : Except OSError AtomicWriteResult}
    (h : Between target calls s results m) (hreaches : Reaches (Does target (Tidies target)) (writer target calls t, m) (.done a, u)) :
    Between target calls s (results ++ [(t, a)]) u := by
  have hafter := ((atomicWriteFile_spec hpattern (calls t) m).reaches hreaches).2
  have hmem : ∀ t' result, (t', Except.ok result) ∈ results → (t', Except.ok result) ∈ results ++ [(t, a)] := by
    intro t' result hresult
    exact List.mem_append_left _ hresult
  have hold : ∀ entry ∈ m.get? target :: m.past, entry ∈ s.get? target :: s.past ∨
      ∃ t' result file, (t', .ok result) ∈ results ++ [(t, a)] ∧ entry = some file ∧ IsNew (calls t').raw_bytes file := by
    intro entry hentry
    rcases h.entries entry hentry with hbefore | ⟨t', result, file, hresult, hfile⟩
    · exact .inl hbefore
    · exact .inr ⟨t', result, file, hmem t' result hresult, hfile⟩
  cases a with
  | ok result =>
    have hafter : Replaced target (calls t).raw_bytes m u := hafter
    obtain ⟨file, hfile, hnew⟩ := hafter.now
    refine ⟨fun entry hentry => ?_, .inr ⟨t, result, file, by simp, hfile, hnew⟩, ?_, fun name hname => h.tidy name (hafter.litter name hname)⟩
    · rcases List.mem_cons.mp hentry with rfl | hpast
      · exact .inr ⟨t, result, file, by simp, hfile, hnew⟩
      · rcases hafter.past entry hpast with hpast | rfl
        · exact hold entry (List.mem_cons_of_mem _ hpast)
        · exact hold _ List.mem_cons_self
    · rw [lastWritten_ok, hfile, Option.map_some, hnew.1]
  | error err =>
    have hafter : Staging target none m u := hafter
    refine ⟨fun entry hentry => ?_, ?_, ?_, fun name hname => h.tidy name ((hafter.litter name hname).resolve_right (by simp))⟩
    · rw [hafter.same, hafter.past] at hentry
      exact hold entry hentry
    · rw [hafter.same]
      rcases h.now with hsame | ⟨t', result, file, hresult, hfile⟩
      · exact .inl hsame
      · exact .inr ⟨t', result, file, hmem t' result hresult, hfile⟩
    · rw [lastWritten_error, List.append_nil, hafter.same, h.settled]

theorem between_serial (hpattern : fnmatch (backupStem target ++ ['*']) target = false)
    (h : Workers.Serial (Does target (Tidies target)) (writer target calls) s results m) : Between target calls s results m :=
  h.invariant between_start fun _ _ _ _ _ hbefore hlast => between_call hpattern hbefore hlast

/-- What the name of the target stands for, or has stood for, is old or the complete content of a call that has begun. -/
structure EntriesWhole (target : Text) (calls : τ → Call) (s : Folder) (w : Writers τ) : Prop where
  now : w.store.get? target = s.get? target ∨ ∃ t file, Begun w t ∧ w.store.get? target = some file ∧ IsNew (calls t).raw_bytes file
  entries : ∀ entry ∈ w.store.get? target :: w.store.past, entry ∈ s.get? target :: s.past ∨
    ∃ t file, Begun w t ∧ entry = some file ∧ IsNew (calls t).raw_bytes file

theorem entriesWhole [DecidableEq τ] {w : Writers τ} (hpattern : fnmatch (backupStem target ++ ['*']) target = false)
    (hserialized : Workers.Serialized (Does target (Tidies target)) (writer target calls) s w) : EntriesWhole target calls s w := by
  cases hholder : w.holder with
  | none =>
    have h := between_serial hpattern (hserialized.free hholder)
    refine ⟨?_, fun entry hentry => ?_⟩
    · rcases h.now with hsame | ⟨t, result, file, hresult, hfile⟩
      · exact .inl hsame
      · exact .inr ⟨t, file, .inr ⟨result, hresult⟩, hfile⟩
    · rcases h.entries entry hentry with hbefore | ⟨t, result, file, hresult, hfile⟩
      · exact .inl hbefore
      · exact .inr ⟨t, file, .inr ⟨result, hresult⟩, hfile⟩
  | some t =>
    obtain ⟨p, m, -, hserial, hreaches⟩ := hserialized.held t hholder
    have h := between_serial hpattern hserial
    have hcall := ((atomicWriteFile_spec hpattern (calls t) m).reaches hreaches).now
    have hold : ∀ entry ∈ m.get? target :: m.past, entry ∈ s.get? target :: s.past ∨
        ∃ t file, Begun w t ∧ entry = some file ∧ IsNew (calls t).raw_bytes file := by
      intro entry hentry
      rcases h.entries entry hentry with hbefore | ⟨t', result, file, hresult, hfile⟩
      · exact .inl hbefore
      · exact .inr ⟨t', file, .inr ⟨result, hresult⟩, hfile⟩
    refine ⟨?_, fun entry hentry => ?_⟩
    · rcases hcall.now with hsame | ⟨file, hfile⟩
      · rw [hsame]
        rcases h.now with hsame | ⟨t', result, file, hresult, hfile⟩
        · exact .inl hsame
        · exact .inr ⟨t', file, .inr ⟨result, hresult⟩, hfile⟩
      · exact .inr ⟨t, file, .inl hholder, hfile⟩
    · rcases List.mem_cons.mp hentry with rfl | hpast
      · rcases hcall.now with hsame | ⟨file, hfile⟩
        · rw [hsame]
          exact hold _ List.mem_cons_self
        · exact .inr ⟨t, file, .inl hholder, hfile⟩
      · rcases hcall.past entry hpast with hpast | rfl | ⟨file, hfile⟩
        · exact hold entry (List.mem_cons_of_mem _ hpast)
        · exact hold _ List.mem_cons_self
        · exact .inr ⟨t, file, .inl hholder, hfile⟩

theorem EntriesWhole.found [DecidableEq τ] {w : Writers τ} (h : EntriesWhole target calls s w) {x : Option Bytes} (hx : Found target w.store x) :
    Found target s x ∨ ∃ t, Begun w t ∧ x = some (calls t).raw_bytes := by
  rcases hx with rfl | ⟨entry, hentry, hsurvives⟩
  · rcases h.now with hsame | ⟨t, file, hbegun, hfile, hnew⟩
    · rw [hsame]
      exact .inl (.inl rfl)
    · rw [hfile, Option.map_some, hnew.1]
      exact .inr ⟨t, hbegun, rfl⟩
  · rcases h.entries entry hentry with hbefore | ⟨t, file, hbegun, rfl, hnew⟩
    · exact .inl (.inr ⟨entry, hbefore, hsurvives⟩)
    · exact .inr ⟨t, hbegun, (hsurvives hnew.2).trans (congrArg some hnew.1)⟩

/-- **The atomic write.** At every point of every interleaving the target is whole, and a call that raises is as if it had not been. -/
theorem target_whole [DecidableEq τ] {ts : List τ} {w : Writers τ} (hpattern : fnmatch (backupStem target ++ ['*']) target = false)
    (hrun : Run (Workers.Step (Does target (Tidies target)) (writer target calls)) (Workers.start s) ts w) : WholeTarget target calls s w := by
  have hserialized := Workers.serialized_run hrun
  have hwhole := entriesWhole hpattern hserialized
  refine ⟨?_, fun x hx => hwhole.found hx, fun hfree => ?_, fun hfree before t err after hresults => ?_, fun hfree => ?_⟩
  · rcases hwhole.now with hsame | ⟨t, file, hbegun, hfile, hnew⟩
    · exact .inl (by rw [hsame])
    · exact .inr ⟨t, hbegun, by rw [hfile, Option.map_some, hnew.1]⟩
  · exact (between_serial hpattern (hserialized.free hfree)).settled
  · rw [(between_serial hpattern (hserialized.free hfree)).settled, hresults, lastWritten_error]
  · exact (between_serial hpattern (hserialized.free hfree)).tidy

end

/-! ## A name that matches its own pattern -/

def drawnName : RandomName := ⟨"k3_q81zv".toList, rfl⟩

/-- The host lets a call through. -/
def granted : Choice :=
  { works := true, random := drawnName, now := 2, timestamp_str := "20250101_000000_000000".toList, part := 0, left := none }

/-- A directory with one file. -/
def folderWith (name : Text) (file : File) : Folder := ⟨Dict.empty.set name file, [], [file.content]⟩

def oldSettings : File := { content := utf8 "old", st_mode := 0o644, st_mtime := 1, synced := true }

def newSettings : Call := { raw_bytes := utf8 "new", max_backups := 0, make_backup := true, mode := none, sync_directory := true }

/-- The brackets stand for one character, and the name is such a character and `.bak.` and more. -/
def bracketName : Text := "[.bak.[]".toList

/-- The folder in the middle of the pruning. -/
def prunedFolder : Folder :=
  (exec (C := fileCalls) (Op.run bracketName) (List.replicate 16 granted)
    (writer bracketName (fun _ : Unit => newSettings) (), folderWith bracketName oldSettings)).2

theorem pruned_target : prunedFolder.get? bracketName = none := by decide

theorem bracket_tidies (choice : Choice) (hchoice : choice ∈ List.replicate 16 granted) (op : Op) (s : Folder) :
    Tidies bracketName s op choice := by
  rw [List.eq_of_mem_replicate hchoice]
  exact ⟨fun _ => by decide, fun _ _ => rfl⟩

/-- The pruning takes the target for a backup. -/
theorem target_pruned : ¬∀ (ts : List Unit) (w : Writers Unit),
    Run (Workers.Step (Does bracketName (Tidies bracketName)) (writer bracketName fun _ => newSettings))
      (Workers.start (folderWith bracketName oldSettings)) ts w →
    WholeTarget bracketName (fun _ => newSettings) (folderWith bracketName oldSettings) w := by
  intro h
  have hreaches := reaches_exec bracketName bracket_tidies (writer bracketName (fun _ : Unit => newSettings) (), folderWith bracketName oldSettings)
  obtain ⟨ts, hrun⟩ := Workers.run_alone (w := Workers.start _) rfl rfl hreaches
  have hnow := (h ts _ hrun).now
  have hnone : ((prunedFolder.get? bracketName).map File.content) = none := by rw [pruned_target, Option.map_none]
  rcases hnow with hold | ⟨_, _, hnew⟩
  · exact absurd (hnone.symm.trans hold) (by decide)
  · exact absurd (hnone.symm.trans hnew) (by simp)

def iniName : Text := "settings.ini".toList

/-! ## Two writers -/

theorem drawnName_ne : stageName drawnName ≠ iniName := by decide

def rivals (rival : Bool) : Call := { newSettings with raw_bytes := if rival then utf8 "rival" else utf8 "new", max_backups := 5 }

/-- The host lets all through but some calls. -/
def refusing (refused : Op → Bool) (op : Op) : Choice := { granted with works := !refused op }

/-- A writer to its end. -/
def writtenBy (rival : Bool) (refused : Op → Bool) (s : Folder) : Program fileCalls (Except OSError AtomicWriteResult) × Folder :=
  exec (C := fileCalls) (fun host op => op.run iniName (refusing host op)) (List.replicate 24 refused) (writer iniName rivals rival, s)

theorem reaches_writtenBy {allowed : Folder → Op → Choice → Prop} {refused : Op → Bool} {rival : Bool} {s : Folder}
    {result : Except OSError AtomicWriteResult} (hallowed : ∀ op s, allowed s op (refusing refused op))
    (hdone : (writtenBy rival refused s).1 = .done result) :
    Reaches (Does iniName allowed) (writer iniName rivals rival, s) (.done result, (writtenBy rival refused s).2) := by
  rw [← hdone]
  refine Program.reaches_exec (fun host hhost op s => ?_) _
  rw [List.eq_of_mem_replicate hhost]
  exact ⟨refusing refused op, hallowed op s, rfl⟩

/-- The first writer, for which everything works, and after it the second. -/
theorem run_rivals {allowed : Folder → Op → Choice → Prop} {refused : Op → Bool} {s : Folder} {first second : Except OSError AtomicWriteResult}
    (hgranted : ∀ op s, allowed s op granted) (hallowed : ∀ op s, allowed s op (refusing refused op))
    (hfirst : (writtenBy false (fun _ => false) s).1 = .done first)
    (hsecond : (writtenBy true refused (writtenBy false (fun _ => false) s).2).1 = .done second) :
    ∃ ts w, Run (Workers.Step (Does iniName allowed) (writer iniName rivals)) (Workers.start s) ts w ∧
      w.results = [(false, first), (true, second)] := by
  obtain ⟨ts, hrun⟩ := Workers.run_finished (w := Workers.start s) (t := false) rfl rfl (reaches_writtenBy hgranted hfirst)
  obtain ⟨ts', hrun'⟩ := Workers.run_finished (t := true)
    (w := ⟨(writtenBy false (fun _ => false) s).2, none, Function.update (fun _ => .idle) false .over, [(false, first)]⟩) rfl rfl
    (reaches_writtenBy hallowed hsecond)
  exact ⟨ts ++ ts', _, hrun.append hrun', rfl⟩

def refusesReplace : Op → Bool
  | .replace .. => true
  | _ => false

/-- The second writer cannot put its file in the place of the target. -/
theorem target_whole_rivals : fnmatch (backupStem iniName ++ ['*']) iniName = false ∧ ∃ (w : Writers Bool) (result : AtomicWriteResult),
    w.results = [(false, .ok result), (true, .error .osError)] ∧ WholeTarget iniName rivals (folderWith iniName oldSettings) w := by
  have hpattern : fnmatch (backupStem iniName ++ ['*']) iniName = false := by decide
  have htidies : ∀ op s, Tidies iniName s op (refusing refusesReplace op) := by
    refine fun op s => ⟨fun _ => drawnName_ne, fun random hop => ?_⟩
    rw [hop]
    rfl
  have hgranted : ∀ op s, Tidies iniName s op granted := fun op s => ⟨fun _ => drawnName_ne, fun _ _ => rfl⟩
  obtain ⟨ts, w, hrun, hresults⟩ := run_rivals (s := folderWith iniName oldSettings) hgranted htidies rfl rfl
  exact ⟨hpattern, w, _, hresults, target_whole hpattern hrun⟩

end Palworld.Atomic

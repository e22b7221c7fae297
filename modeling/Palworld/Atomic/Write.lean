import Palworld.Atomic.Files
import Mathlib.Data.List.Lex
import Mathlib.Data.List.Sort
import Mathlib.Data.Char
import Mathlib.Data.Prod.Lex
import Mathlib.Algebra.Order.Field.Rat

/-!
# An atomic write

A staging file is written, flushed and renamed onto the target. The old content may be copied to a
backup before that, and the oldest backups removed.
-/

open Lib Program

namespace Palworld.Atomic

abbrev Io := ExceptT OSError (Program fileCalls)

def perform (op : Op) : Io op.Result := ExceptT.mk (ask (C := fileCalls) op)

/-- The arguments of `atomic_write_file` beside the target. The content is encoded. -/
structure Call where
  raw_bytes : Bytes
  max_backups : Int
  make_backup : Bool
  mode : Option Nat
  sync_directory : Bool

structure AtomicWriteResult where
  target_path : Text
  bytes_written : Nat
  backup_path : Option Text

/-- `_resolve_target_mode`. -/
def resolveTargetMode (target : Text) (explicit_mode : Option Nat) : Io Nat :=
  match explicit_mode with
  | some mode => pure mode
  | none => do
    let found : Bool ← perform (.pathExists target)
    if found then
      match ← liftM (attempt (perform (.stat target))) with
      | some file => pure (file.st_mode % 512)
      | none => pure 0o644
    else pure 0o644

/-- A backup, with the time it was last modified as far as it can be read. -/
def sortKey (name : Text) : Program fileCalls (ℚ × Text) := do
  match ← attempt (perform (.stat name)) with
  | some file => pure (file.st_mtime, name)
  | none => pure (0, name)

/-- The order of `(st_mtime, name)` pairs. -/
abbrev KeyLe (a b : ℚ × Text) : Prop := toLex a ≤ toLex b

/-- `_prune_backups`. -/
def pruneBackups (target : Text) (max_backups : Int) : Program fileCalls Unit :=
  if max_backups < 0 then pure ()
  else do
    match ← attempt (perform (.glob (backupStem target ++ ['*']))) with
    | none => pure ()
    | some candidates => do
      let keys ← mapEach sortKey candidates
      let excess := keys.length - max_backups
      (((keys.insertionSort KeyLe).take excess.toNat).map Prod.snd).forM fun old => do
        let _ ← attempt (perform (.unlink old))
        pure ()

/-- `_create_backup_snapshot`. -/
def createBackupSnapshot (target : Text) (max_backups : Int) : Io (Option Text) := do
  let found : Bool ← perform (.pathExists target)
  if found then
    match ← liftM (attempt (perform (.stat target))) with
    | none => pure none
    | some file =>
      if file.content.length = 0 then pure none
      else do
        let timestamp_str ← perform .utcnow
        match ← liftM (attempt (perform (.copy2 target (backupName target timestamp_str)))) with
        | none => pure none
        | some _ => do
          liftM (pruneBackups target max_backups)
          pure (some (backupName target timestamp_str))
  else pure none

/-- What is done between the creation of the staging file and the end of the replacement. -/
def stageAndReplace (target tmp_path : Text) (call : Call) (target_mode : Nat) : Io (Option Text) := do
  perform (.write tmp_path call.raw_bytes)
  perform (.fsync tmp_path)
  let _ ← liftM (attempt (perform (.chmod tmp_path target_mode)))
  let backup_path ← (if call.make_backup then createBackupSnapshot target call.max_backups else pure none : Io (Option Text))
  perform (.replace tmp_path target)
  pure backup_path

/-- `atomic_write_file`, with the lock held. -/
def atomicWriteFile (target : Text) (call : Call) : Io AtomicWriteResult := do
  perform .mkdir
  let target_mode ← resolveTargetMode target call.mode
  let tmp_path ← perform .namedTemporaryFile
  let backup_path ← tryCatch (stageAndReplace target tmp_path call target_mode) fun err => do
    let _ ← liftM (attempt (perform (.unlink tmp_path)))
    throw err
  let _ ← (if call.sync_directory then liftM (attempt (perform .fsyncDirectory)) else pure none : Io (Option Unit))
  pure { target_path := target, bytes_written := call.raw_bytes.length, backup_path }

/-! ## What the steps keep -/

section

variable {target : Text} {allowed : Folder → Op → Choice → Prop} {I K : Folder → Prop} {op : Op} {s : Folder}

theorem always_perform {Q : Except OSError op.Result → Folder → Prop} (hI : I s)
    (h : ∀ choice, allowed s op choice → I (op.run target choice s).2 ∧ Q (op.run target choice s).1 (op.run target choice s).2) :
    (perform op).run.Always (Does target allowed) I Q s := by
  refine always_ask hI fun answer t hdoes => ?_
  obtain ⟨choice, hallowed, hrun⟩ := hdoes
  have hchoice := h choice hallowed
  rwa [hrun] at hchoice

/-- A call that changes nothing. -/
theorem always_reads {Q : Except OSError op.Result → Folder → Prop} (hreads : op.reads = true) (hI : I s) (h : ∀ answer, Q answer s) :
    (perform op).run.Always (Does target allowed) I Q s := by
  refine always_perform hI fun choice _ => ?_
  rw [run_reads hreads]
  exact ⟨hI, h _⟩

theorem keeps_return {α : Type} {a : α} (hI : ∀ t, K t → I t) (hs : K s) :
    (pure a : Io α).run.Always (Does target allowed) I (fun _ t => K t) s := always_return (hI s hs) hs

theorem keeps_pure {α : Type} {a : α} (hI : ∀ t, K t → I t) (hs : K s) :
    (pure a : Program fileCalls α).Always (Does target allowed) I (fun _ t => K t) s := always_pure (hI s hs) hs

theorem keeps_reads (hreads : op.reads = true) (hI : ∀ t, K t → I t) (hs : K s) :
    (perform op).run.Always (Does target allowed) I (fun _ t => K t) s := always_reads hreads (hI s hs) fun _ => hs

/-- A call that may fail, where it does not matter whether it does. -/
theorem keeps_attempt (hI : ∀ t, K t → I t) (hs : K s) (h : ∀ choice, allowed s op choice → K (op.run target choice s).2) :
    (attempt (perform op)).Always (Does target allowed) I (fun _ t => K t) s := by
  apply always_attempt
  exact always_perform (hI s hs) fun choice hallowed => ⟨hI _ (h choice hallowed), h choice hallowed⟩

theorem keeps_reading (hreads : op.reads = true) (hI : ∀ t, K t → I t) (hs : K s) :
    (attempt (perform op)).Always (Does target allowed) I (fun _ t => K t) s :=
  keeps_attempt hI hs fun choice _ => by rwa [run_reads hreads]

theorem keeps_resolveTargetMode (hI : ∀ t, K t → I t) (hs : K s) (mode : Option Nat) :
    (resolveTargetMode target mode).run.Always (Does target allowed) I (fun _ t => K t) s := by
  unfold resolveTargetMode
  cases mode with
  | some mode => exact keeps_return hI hs
  | none =>
    apply keeps_then (keeps_reads rfl hI hs)
    intro found t _ ht
    cases found with
    | false => exact keeps_return hI ht
    | true =>
      apply keeps_then (always_lift (keeps_reading rfl hI ht))
      intro file u _ hu
      cases file with
      | none => exact keeps_return hI hu
      | some file => exact keeps_return hI hu

/-- What is removed by a pruning matches the pattern. -/
def Prunes (K : Folder → Prop) (target : Text) (allowed : Folder → Op → Choice → Prop) : Prop :=
  ∀ s choice name, K s → fnmatch (backupStem target ++ ['*']) name = true → allowed s (.unlink name) choice →
    K ((Op.unlink name).run target choice s).2

theorem keeps_sortKey (hI : ∀ t, K t → I t) (hs : K s) (name : Text) :
    (sortKey name).Always (Does target allowed) I (fun key t => K t ∧ key.2 = name) s := by
  unfold sortKey
  apply always_bind
  refine (keeps_reading rfl hI hs).post fun file t hIt hKt => ?_
  cases file with
  | none => exact always_pure hIt ⟨hKt, rfl⟩
  | some file => exact always_pure hIt ⟨hKt, rfl⟩

theorem mem_of_forall₂ {names : List Text} {keys : List (ℚ × Text)} (h : List.Forall₂ (fun name key => key.2 = name) names keys)
    {key : ℚ × Text} (hkey : key ∈ keys) : key.2 ∈ names := by
  induction h with
  | nil => cases hkey
  | cons hhead _ ih =>
    rcases List.mem_cons.mp hkey with rfl | hkey
    · rw [hhead]
      exact List.mem_cons_self
    · exact List.mem_cons_of_mem _ (ih hkey)

/-- The rounds of a pruning, for names that match the pattern. -/
theorem keeps_unlinks (hI : ∀ t, K t → I t) (hs : K s) (hprunes : Prunes K target allowed) {names : List Text}
    (hnames : ∀ name ∈ names, fnmatch (backupStem target ++ ['*']) name = true) :
    (names.forM fun old => do
      let _ ← attempt (perform (.unlink old))
      pure ()).Always (Does target allowed) I (fun _ t => K t) s := by
  refine (always_forM (J := fun names t => K t ∧ ∀ name ∈ names, fnmatch (backupStem target ++ ['*']) name = true)
    ⟨hs, hnames⟩ (fun old rest t ht => ?_) fun t ht => hI t ht.1).post fun _ t _ ht => ht.1
  apply always_bind
  refine (keeps_attempt hI ht.1 fun choice hallowed => hprunes t choice old ht.1 (ht.2 old List.mem_cons_self) hallowed).post
    fun _ u hIu hKu => ?_
  exact always_pure hIu ⟨hKu, fun name hname => ht.2 name (List.mem_cons_of_mem _ hname)⟩

theorem keeps_pruneBackups (hI : ∀ t, K t → I t) (hs : K s) (hprunes : Prunes K target allowed) (max_backups : Int) :
    (pruneBackups target max_backups).Always (Does target allowed) I (fun _ t => K t) s := by
  unfold pruneBackups
  split
  · exact keeps_pure hI hs
  apply always_bind
  apply always_attempt
  refine always_perform (hI s hs) fun choice _ => ?_
  rw [run_reads rfl]
  refine ⟨hI s hs, ?_⟩
  cases hworks : choice.works with
  | false =>
    simp only [Op.run, hworks]
    exact keeps_pure hI hs
  | true =>
    simp only [Op.run, hworks]
    apply always_bind
    refine (always_mapEach hs hI fun name t ht => keeps_sortKey hI ht name).post fun keys t _ hkeys => ?_
    refine keeps_unlinks hI hkeys.1 hprunes fun name hname => ?_
    -- every candidate matches the pattern
    obtain ⟨key, hkey, rfl⟩ := List.mem_map.mp hname
    have hcandidate := mem_of_forall₂ hkeys.2 ((List.perm_insertionSort KeyLe keys).mem_iff.mp (List.mem_of_mem_take hkey))
    exact (List.mem_filter.mp hcandidate).2

theorem keeps_createBackupSnapshot (hI : ∀ t, K t → I t) (hs : K s) (hprunes : Prunes K target allowed)
    (hcopies : ∀ s choice timestamp_str, K s → allowed s (.copy2 target (backupName target timestamp_str)) choice →
      K ((Op.copy2 target (backupName target timestamp_str)).run target choice s).2) (max_backups : Int) :
    (createBackupSnapshot target max_backups).run.Always (Does target allowed) I (fun _ t => K t) s := by
  unfold createBackupSnapshot
  apply keeps_then (keeps_reads rfl hI hs)
  intro found t _ ht
  cases found with
  | false => exact keeps_return hI ht
  | true =>
    apply keeps_then (always_lift (keeps_reading rfl hI ht))
    intro file u _ hu
    cases file with
    | none => exact keeps_return hI hu
    | some file =>
      dsimp only
      split
      · exact keeps_return hI hu
      apply keeps_then (keeps_reads rfl hI hu)
      intro timestamp_str v _ hv
      apply keeps_then (always_lift (keeps_attempt hI hv fun choice hallowed => hcopies v choice timestamp_str hv hallowed))
      intro copied w _ hw
      cases copied with
      | none => exact keeps_return hI hw
      | some _ =>
        apply keeps_then (always_lift (keeps_pruneBackups hI hw hprunes max_backups))
        intro _ x _ hx
        exact keeps_return hI hx

end

end Palworld.Atomic

import Palworld.Atomic.Whole

/-!
# Every backup is genuine

A backup holds what the target once held. The copy is not cleaned up when it fails, so this is true
as long as no failing copy leaves a part of the target.
-/

open Lib Program

namespace Palworld.Atomic

structure Genuine (target : Text) (s : Folder) : Prop where
  backups : ∀ name file, IsBackup target name → s.get? name = some file → file.content ∈ s.history
  known : ∀ file, s.get? target = some file → file.content ∈ s.history

/-- A copy that fails leaves nothing, or what the target once held. -/
def CopiesWhole (target : Text) (s : Folder) (op : Op) (choice : Choice) : Prop :=
  (op = .namedTemporaryFile → stageName choice.random ≠ target) ∧
    ∀ dst, op = .copy2 target dst → choice.works = false → ∀ left, choice.left = some left → left.content ∈ s.history

section

variable {target tmp_path name : Text} {random : RandomName} {s : Folder} {file : File} {choice : Choice}

theorem Genuine.put_stage (h : Genuine target s) (hne : stageName random ≠ target) (file : File) :
    Genuine target (s.put target (stageName random) file) := by
  refine ⟨fun name found hbackup hfound => ?_, fun found hfound => ?_⟩
  · have hother : name ≠ stageName random := by
      rintro rfl
      exact stage_not_backup random hbackup
    rw [get?_put, if_neg hother] at hfound
    exact h.backups name found hbackup hfound
  · rw [get?_put, if_neg hne.symm] at hfound
    exact h.known found hfound

theorem Genuine.put_backup (h : Genuine target s) (timestamp_str : Text) (hcontent : file.content ∈ s.history) :
    Genuine target (s.put target (backupName target timestamp_str) file) := by
  refine ⟨fun name found hbackup hfound => ?_, fun found hfound => ?_⟩
  · rw [get?_put] at hfound
    split at hfound
    · cases hfound
      exact hcontent
    · exact h.backups name found hbackup hfound
  · rw [get?_put, if_neg (backup_ne_target timestamp_str).symm] at hfound
    exact h.known found hfound

theorem Genuine.remove (h : Genuine target s) (name : Text) : Genuine target (s.remove target name) := by
  refine ⟨fun other found hbackup hfound => ?_, fun found hfound => ?_⟩
  · rw [get?_remove] at hfound
    split at hfound
    · cases hfound
    · exact h.backups other found hbackup hfound
  · rw [get?_remove] at hfound
    split at hfound
    · cases hfound
    · exact h.known found hfound

/-- What stands in for the target is remembered. -/
theorem Genuine.replace (h : Genuine target s) (file : File) :
    Genuine target { s.put target target file with history := s.history ++ [file.content] } := by
  refine ⟨fun name found hbackup hfound => ?_, fun found hfound => ?_⟩
  · have hother : name ≠ target := by
      rintro rfl
      exact target_not_backup hbackup
    have hfound : (s.put target target file).get? name = some found := hfound
    rw [get?_put, if_neg hother] at hfound
    exact List.mem_append_left _ (h.backups name found hbackup hfound)
  · have hfound : (s.put target target file).get? target = some found := hfound
    rw [get?_put_self] at hfound
    cases hfound
    exact List.mem_append_right _ (List.mem_singleton.mpr rfl)

/-! ### The calls of a write -/

theorem genuine_copy2 (timestamp_str : Text) (h : Genuine target s)
    (hallowed : CopiesWhole target s (.copy2 target (backupName target timestamp_str)) choice) :
    Genuine target ((Op.copy2 target (backupName target timestamp_str)).run target choice s).2 := by
  simp only [Op.run]
  cases hfile : s.get? target with
  | none => exact h
  | some file =>
    cases hworks : choice.works with
    | true => exact h.put_backup timestamp_str (h.known file hfile)
    | false =>
      cases hleft : choice.left with
      | none => exact h
      | some left => exact h.put_backup timestamp_str (hallowed.2 _ rfl hworks left hleft)

theorem genuine_replace (h : Genuine target s) : Genuine target ((Op.replace tmp_path target).run target choice s).2 := by
  simp only [Op.run, if_true]
  split
  · rename_i file _ _
    exact (h.remove tmp_path).replace file
  · exact h

theorem genuine_fsyncDirectory (h : Genuine target s) : Genuine target (Op.fsyncDirectory.run target choice s).2 := by
  simp only [Op.run]
  split
  · exact ⟨h.backups, h.known⟩
  · exact h

/-! ### The functions -/

theorem genuine_stageAndReplace (h : Genuine target s) (hne : stageName random ≠ target) (call : Call) (target_mode : Nat) :
    (stageAndReplace target (stageName random) call target_mode).run.Always (Does target (CopiesWhole target)) (Genuine target)
      (fun _ t => Genuine target t) s := by
  have hI : ∀ t, Genuine target t → Genuine target t := fun _ ht => ht
  unfold stageAndReplace
  apply keeps_then
  · exact always_perform h fun choice _ => ⟨kept_write h (h.put_stage hne) _ choice, kept_write h (h.put_stage hne) _ choice⟩
  intro _ t _ ht
  apply keeps_then
  · exact always_perform ht fun choice _ => ⟨kept_fsync ht (ht.put_stage hne) choice, kept_fsync ht (ht.put_stage hne) choice⟩
  intro _ t _ ht
  apply keeps_then
  · exact always_lift (keeps_attempt hI ht fun choice _ => kept_chmod ht (ht.put_stage hne) target_mode choice)
  intro _ t _ ht
  have hprunes : Prunes (Genuine target) target (CopiesWhole target) := fun _ choice name hu _ _ => kept_unlink hu (hu.remove name) choice
  have hbackup : (if call.make_backup then createBackupSnapshot target call.max_backups else pure none : Io (Option Text)).run.Always
      (Does target (CopiesWhole target)) (Genuine target) (fun _ t => Genuine target t) t := by
    split
    · exact keeps_createBackupSnapshot hI ht hprunes (fun _ _ timestamp_str hu hallowed => genuine_copy2 timestamp_str hu hallowed) _
    · exact keeps_return hI ht
  apply keeps_then hbackup
  intro _ t _ ht
  apply keeps_then
  · exact always_perform ht fun choice _ => ⟨genuine_replace ht, genuine_replace ht⟩
  intro _ t _ ht
  exact keeps_return hI ht

theorem genuine_atomicWriteFile (h : Genuine target s) (call : Call) :
    (atomicWriteFile target call).run.Always (Does target (CopiesWhole target)) (Genuine target) (fun _ t => Genuine target t) s := by
  have hI : ∀ t, Genuine target t → Genuine target t := fun _ ht => ht
  unfold atomicWriteFile
  apply keeps_then (keeps_reads rfl hI h)
  intro _ t _ ht
  apply keeps_then (keeps_resolveTargetMode hI ht call.mode)
  intro target_mode t _ ht
  apply always_then
  refine always_perform ht fun choice hallowed => ?_
  have hdrawn := kept_namedTemporaryFile ht (ht.put_stage (hallowed.1 rfl))
  refine ⟨hdrawn, ?_⟩
  cases hanswer : (Op.namedTemporaryFile.run target choice t).1 with
  | error err => exact hdrawn
  | ok tmp_path =>
    obtain rfl := drawn_of_ok hanswer
    apply keeps_then
    · apply always_tryCatch
      refine (genuine_stageAndReplace hdrawn (hallowed.1 rfl) call target_mode).post fun result u _ hu => ?_
      cases result with
      | ok backup_path => exact hu
      | error err =>
        apply keeps_then (always_lift (keeps_attempt hI hu fun choice _ => kept_unlink hu (hu.remove _) choice))
        intro _ v _ hv
        exact always_throw hv hv
    intro backup_path u _ hu
    apply keeps_then
    · split
      · exact always_lift (keeps_attempt hI hu fun choice _ => genuine_fsyncDirectory hu)
      · exact keeps_return hI hu
    intro _ v _ hv
    exact keeps_return hI hv

end

section

variable {τ : Type} {target : Text} {calls : τ → Call} {s : Folder}

theorem genuine_serial {results : List (τ × Except OSError AtomicWriteResult)} {m : Folder} (hstart : Genuine target s)
    (h : Workers.Serial (Does target (CopiesWhole target)) (writer target calls) s results m) : Genuine target m :=
  h.invariant (J := fun _ m => Genuine target m) hstart fun _ _ t _ _ hbefore hlast => ((genuine_atomicWriteFile hbefore (calls t)).reaches hlast).2

/-- **Genuine backups.** At every point of every interleaving each backup of the target holds what the target once held. -/
theorem backups_genuine [DecidableEq τ] {ts : List τ} {w : Writers τ} (hstart : Genuine target s)
    (hrun : Run (Workers.Step (Does target (CopiesWhole target)) (writer target calls)) (Workers.start s) ts w) : Genuine target w.store := by
  have hserialized := Workers.serialized_run hrun
  cases hholder : w.holder with
  | none => exact genuine_serial hstart (hserialized.free hholder)
  | some t =>
    obtain ⟨p, m, -, hserial, hreaches⟩ := hserialized.held t hholder
    exact ((genuine_atomicWriteFile (genuine_serial hstart hserial) (calls t)).reaches hreaches).now

end

/-! ## A copy that fails in the middle -/

theorem genuine_oldSettings : Genuine iniName (folderWith iniName oldSettings) := by
  have hget : ∀ name file, (folderWith iniName oldSettings).get? name = some file → name = iniName ∧ file = oldSettings := by
    intro name file hfile
    have hset : (folderWith iniName oldSettings).get? name = if name = iniName then some oldSettings else none := Dict.get?_set
    rw [hset] at hfile
    split at hfile
    · exact ⟨‹_›, (Option.some.inj hfile).symm⟩
    · cases hfile
  refine ⟨fun name file hbackup hfile => ?_, fun file hfile => ?_⟩
  · obtain ⟨rfl, -⟩ := hget name file hfile
    exact absurd hbackup target_not_backup
  · obtain ⟨-, rfl⟩ := hget iniName file hfile
    exact List.mem_singleton.mpr rfl

/-- Copies may fail as they like. -/
def Copies (target : Text) (_ : Folder) (op : Op) (choice : Choice) : Prop := op = .namedTemporaryFile → stageName choice.random ≠ target

/-- The medium is full after one byte of the copy. -/
def fullMedium : Choice := { granted with works := false, left := some { oldSettings with content := utf8 "o" } }

def partCopied : List Choice := List.replicate 10 granted ++ fullMedium :: List.replicate 4 granted

def partCopiedWriter : Unit → Program fileCalls (Except OSError AtomicWriteResult) := writer iniName fun _ => { newSettings with max_backups := 5 }

/-- The end of a call of which the copy fails. -/
def litteredEnd : Program fileCalls (Except OSError AtomicWriteResult) × Folder :=
  exec (C := fileCalls) (Op.run iniName) partCopied (partCopiedWriter (), folderWith iniName oldSettings)

theorem litteredEnd_done : ∃ result, litteredEnd.1 = .done (.ok result) := ⟨_, rfl⟩

theorem littered_backup :
    (litteredEnd.2.get? (backupName iniName granted.timestamp_str)).map File.content = some (utf8 "o") ∧
      litteredEnd.2.history = [utf8 "old", utf8 "new"] := by decide

theorem partCopied_copies (choice : Choice) (hchoice : choice ∈ partCopied) (op : Op) (s : Folder) : Copies iniName s op choice := by
  have hrandom : choice.random = drawnName := by
    rcases List.mem_append.mp hchoice with hgranted | hlater
    · rw [List.eq_of_mem_replicate hgranted]
      rfl
    · rcases List.mem_cons.mp hlater with rfl | hgranted
      · rfl
      · rw [List.eq_of_mem_replicate hgranted]
        rfl
  intro _
  rw [hrandom]
  decide

/-- The part that a failing copy has left stays as a backup. -/
theorem backup_of_part : Genuine iniName (folderWith iniName oldSettings) ∧ ¬∀ (ts : List Unit) (w : Writers Unit),
    Run (Workers.Step (Does iniName (Copies iniName)) partCopiedWriter) (Workers.start (folderWith iniName oldSettings)) ts w →
    w.holder = none → Genuine iniName w.store := by
  refine ⟨genuine_oldSettings, fun h => ?_⟩
  obtain ⟨result, hdone⟩ := litteredEnd_done
  have hreaches : Reaches (Does iniName (Copies iniName)) (partCopiedWriter (), folderWith iniName oldSettings) (.done (.ok result), litteredEnd.2) :=
    hdone ▸ reaches_exec iniName partCopied_copies (partCopiedWriter (), folderWith iniName oldSettings)
  obtain ⟨ts, hrun⟩ := Workers.run_finished (w := Workers.start _) rfl rfl hreaches
  have hgenuine := h ts _ hrun rfl
  obtain ⟨hbackup, hhistory⟩ := littered_backup
  obtain ⟨file, hfile, hcontent⟩ := Option.map_eq_some_iff.mp hbackup
  have hmem := hgenuine.backups _ file (List.prefix_append _ _) hfile
  rw [hcontent, hhistory] at hmem
  revert hmem
  decide

def refusesCopy : Op → Bool
  | .copy2 .. => true
  | _ => false

/-- The copy of the second writer fails before it has left anything. -/
theorem backups_genuine_rivals : ∃ (w : Writers Bool) (first second : AtomicWriteResult), w.results = [(false, .ok first), (true, .ok second)] ∧
    first.backup_path ≠ none ∧ second.backup_path = none ∧ Genuine iniName w.store := by
  have hcopies : ∀ op s, CopiesWhole iniName s op (refusing refusesCopy op) :=
    fun op s => ⟨fun _ => drawnName_ne, fun _ _ _ left hleft => by cases hleft⟩
  have hgranted : ∀ op s, CopiesWhole iniName s op granted := fun op s => ⟨fun _ => drawnName_ne, fun _ _ hworks => by cases hworks⟩
  obtain ⟨ts, w, hrun, hresults⟩ := run_rivals (s := folderWith iniName oldSettings) hgranted hcopies rfl rfl
  exact ⟨w, _, _, hresults, by decide, rfl, backups_genuine genuine_oldSettings hrun⟩

end Palworld.Atomic

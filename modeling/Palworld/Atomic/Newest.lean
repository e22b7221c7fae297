import Palworld.Atomic.Genuine
import Palworld.Lib.Ranks

/-!
# The newest backup

A copy takes over the time of the target, and the backups are ranked by their times. The newest
backup is kept if and only if fewer backups than are to be kept rank above it.
-/

open Lib Program

namespace Palworld.Atomic

/-! ## The backups of a folder -/

def backups (target : Text) (s : Folder) : List Text := (s.files.entries.map Prod.fst).filter (IsBackup target ·)

def mtimeOf (s : Folder) (name : Text) : ℚ := ((s.get? name).map File.st_mtime).getD 0

/-- What a backup is ranked by. -/
def keyOf (s : Folder) (name : Text) : ℚ × Text := (mtimeOf s name, name)

def ranked (target : Text) (s : Folder) : List (ℚ × Text) := ((backups target s).map (keyOf s)).insertionSort KeyLe

/-- The backups that a pruning removes. -/
def excess (target : Text) (max_backups : Int) (s : Folder) : List Text :=
  ((ranked target s).take ((backups target s).length - max_backups).toNat).map Prod.snd

/-- The backups that rank above a copy of the target under the name `dst`. -/
def above (target dst : Text) (m : Folder) : List Text :=
  (backups target m).filter fun other => other ≠ dst ∧ toLex (mtimeOf m target, dst) < toLex (keyOf m other)

section

variable {target name dst : Text} {s t u m : Folder}

theorem mem_backups : name ∈ backups target s ↔ IsBackup target name ∧ s.get? name ≠ none := by
  unfold backups
  rw [List.mem_filter, decide_eq_true_eq, and_comm]
  refine and_congr_right fun _ => ?_
  have hkeys : ¬ s.get? name = none ↔ ¬ name ∉ s.files.entries.map Prod.fst := not_congr lookup_eq_none
  rw [not_not] at hkeys
  exact hkeys.symm

theorem nodup_backups : (backups target s).Nodup := s.files.nodup.filter _

/-- The same files under the names of backups. -/
def SameBackups (target : Text) (s t : Folder) : Prop := ∀ name, IsBackup target name → s.get? name = t.get? name

theorem SameBackups.perm (h : SameBackups target s t) : (backups target s).Perm (backups target t) := by
  rw [List.perm_ext_iff_of_nodup nodup_backups nodup_backups]
  intro name
  rw [mem_backups, mem_backups]
  refine and_congr_right fun hbackup => ?_
  rw [h name hbackup]

theorem ranked_perm : (ranked target s).Perm ((backups target s).map (keyOf s)) := List.perm_insertionSort _ _

theorem length_ranked : (ranked target s).length = (backups target s).length := by
  rw [ranked_perm.length_eq, List.length_map]

theorem keyOf_injective : Function.Injective (keyOf s) := fun _ _ h => (Prod.mk.inj h).2

theorem sorted_ranked : (ranked target s).Pairwise fun a b => toLex a < toLex b := by
  have hle : (ranked target s).Pairwise KeyLe := List.pairwise_insertionSort _ _
  have hne : (ranked target s).Nodup := ranked_perm.nodup_iff.mpr (nodup_backups.map keyOf_injective)
  exact (hle.and hne).imp fun h => lt_of_le_of_ne h.1 fun heq => h.2 (toLex.injective heq)

theorem mem_ranked_iff : keyOf s name ∈ ranked target s ↔ name ∈ backups target s := by
  rw [ranked_perm.mem_iff, List.mem_map_of_injective keyOf_injective]

theorem mem_excess {max_backups : Int} :
    name ∈ excess target max_backups s ↔ keyOf s name ∈ (ranked target s).take ((backups target s).length - max_backups).toNat := by
  unfold excess
  constructor
  · intro h
    obtain ⟨key, hkey, rfl⟩ := List.mem_map.mp h
    obtain ⟨other, -, rfl⟩ := List.mem_map.mp (ranked_perm.mem_iff.mp (List.mem_of_mem_take hkey))
    exact hkey
  · intro h
    exact List.mem_map.mpr ⟨_, h, rfl⟩

/-- A backup is kept if fewer than that many rank above it. -/
theorem notMem_excess_iff {max_backups : Int} (hmax : 0 ≤ max_backups) (hname : name ∈ backups target s) :
    name ∉ excess target max_backups s ↔
      (((backups target s).filter fun other => toLex (keyOf s name) < toLex (keyOf s other)).length : Int) < max_backups := by
  obtain ⟨n, rfl⟩ := Int.eq_ofNat_of_zero_le hmax
  have hcount : (((backups target s).length : Int) - (n : Int)).toNat = (ranked target s).length - n := by
    rw [length_ranked]
    omega
  have hfilter : ((ranked target s).filter fun key => toLex (keyOf s name) < toLex key).length =
      ((backups target s).filter fun other => toLex (keyOf s name) < toLex (keyOf s other)).length := by
    rw [(ranked_perm.filter _).length_eq, List.filter_map, List.length_map]
    rfl
  rw [mem_excess, hcount, notMem_take_iff_above sorted_ranked (mem_ranked_iff.mpr hname), hfilter]
  exact Nat.cast_lt.symm

/-- What a pruning leaves. -/
def Pruned (target : Text) (max_backups : Int) (s t : Folder) : Prop :=
  ∀ name, t.get? name = if name ∈ excess target max_backups s then none else s.get? name

theorem Pruned.length_le {max_backups : Int} (hmax : 0 ≤ max_backups) (h : Pruned target max_backups s t) :
    ((backups target t).length : Int) ≤ max_backups := by
  have hsub : backups target t ⊆ ((ranked target s).drop ((backups target s).length - max_backups).toNat).map Prod.snd := by
    intro name hname
    obtain ⟨hbackup, hthere⟩ := mem_backups.mp hname
    rw [h name] at hthere
    split at hthere
    · exact absurd rfl hthere
    · rename_i hkept
      have hmem : keyOf s name ∈ ranked target s := mem_ranked_iff.mpr (mem_backups.mpr ⟨hbackup, hthere⟩)
      rw [← List.take_append_drop ((backups target s).length - max_backups).toNat (ranked target s), List.mem_append] at hmem
      have hlater := hmem.resolve_left fun hearlier => hkept (mem_excess.mpr hearlier)
      exact List.mem_map.mpr ⟨_, hlater, rfl⟩
  have hlength := (List.subperm_of_subset nodup_backups hsub).length_le
  rw [List.length_map, List.length_drop, length_ranked] at hlength
  omega

end

/-! ## The pruning -/

/-- The staging file is not the target, the clock shows `timestamp_str`, and the backups can be listed, ranked and removed. -/
structure Prunable (target timestamp_str : Text) (op : Op) (choice : Choice) : Prop where
  drawn : op = .namedTemporaryFile → stageName choice.random ≠ target
  now : op = .utcnow → choice.timestamp_str = timestamp_str
  lists : ∀ pattern, op = .glob pattern → choice.works = true
  ranks : ∀ name, IsBackup target name → op = .stat name → choice.works = true
  unlinks : ∀ name, IsBackup target name → op = .unlink name → choice.works = true

section

variable {target timestamp_str name : Text} {s t u m : Folder} {I : Folder → Prop}

theorem sortKey_spec (hI : I s) (hbackup : IsBackup target name) :
    (sortKey name).Always (Does target fun _ => Prunable target timestamp_str) I (fun key t => t = s ∧ key = keyOf s name) s := by
  unfold sortKey
  apply always_bind
  apply always_attempt
  refine always_perform hI fun choice hallowed => ?_
  have hworks := hallowed.ranks name hbackup rfl
  rw [run_reads rfl]
  refine ⟨hI, ?_⟩
  cases hfile : s.get? name with
  | none =>
    simp only [Op.run, hworks, hfile]
    exact always_pure hI ⟨rfl, by simp [keyOf, mtimeOf, hfile]⟩
  | some file =>
    simp only [Op.run, hworks, hfile]
    exact always_pure hI ⟨rfl, by simp [keyOf, mtimeOf, hfile]⟩

theorem sortKeys_spec (hI : I s) {names : List Text} (hnames : ∀ name ∈ names, IsBackup target name) :
    (mapEach sortKey names).Always (Does target fun _ => Prunable target timestamp_str) I (fun keys t => t = s ∧ keys = names.map (keyOf s)) s := by
  induction names with
  | nil => exact always_pure hI ⟨rfl, rfl⟩
  | cons name names ih =>
    unfold mapEach
    apply always_bind
    refine (sortKey_spec hI (hnames name List.mem_cons_self)).post fun key t _ hkey => ?_
    obtain ⟨rfl, rfl⟩ := hkey
    apply always_bind
    refine (ih fun other hother => hnames other (List.mem_cons_of_mem _ hother)).post fun keys t _ hkeys => ?_
    obtain ⟨rfl, rfl⟩ := hkeys
    exact always_pure hI ⟨rfl, rfl⟩

theorem unlinks_spec {names : List Text} (hnames : ∀ name ∈ names, IsBackup target name)
    (hI : ∀ t, (∀ name, t.get? name = s.get? name ∨ t.get? name = none) → t.get? target = s.get? target → I t) :
    (names.forM fun old => do
      let _ ← attempt (perform (.unlink old))
      pure ()).Always (Does target fun _ => Prunable target timestamp_str) I
        (fun _ t => ∀ name, t.get? name = if name ∈ names then none else s.get? name) s := by
  have hround : ∀ t : Folder, (∃ gone : List Text, (∀ name ∈ gone, IsBackup target name) ∧ ∀ name, t.get? name = if name ∈ gone then none else s.get? name) → I t := by
    rintro t ⟨gone, hgone, hget⟩
    refine hI t (fun name => ?_) ?_
    · rw [hget]
      split
      · exact .inr rfl
      · exact .inl rfl
    · rw [hget, if_neg fun hmem => target_not_backup (hgone target hmem)]
  refine (always_forM (J := fun rest t => ∃ gone : List Text, gone ++ rest = names ∧ ∀ name, t.get? name = if name ∈ gone then none else s.get? name)
    ⟨[], rfl, fun name => by simp⟩ ?_ ?_).post ?_
  · rintro old rest t ⟨gone, hsplit, hget⟩
    have hold : IsBackup target old := hnames old (hsplit ▸ by simp)
    have hgone : ∀ name ∈ gone, IsBackup target name := fun name hname => hnames name (hsplit ▸ List.mem_append_left _ hname)
    apply always_bind
    apply always_attempt
    refine always_perform (hround t ⟨gone, hgone, hget⟩) fun choice hallowed => ?_
    have hnow : ∀ name, (t.remove target old).get? name = if name ∈ gone ++ [old] then none else s.get? name := by
      intro name
      rw [get?_remove, hget]
      by_cases h : name = old <;> simp [h]
    have hkept : I (t.remove target old) := hround _ ⟨gone ++ [old], by simpa using fun name hname => hname.elim (hgone name) (· ▸ hold), hnow⟩
    simp only [Op.run, hallowed.unlinks old hold rfl, if_true]
    exact ⟨hkept, always_pure hkept ⟨gone ++ [old], by simpa using hsplit, hnow⟩⟩
  · rintro t ⟨gone, hsplit, hget⟩
    rw [List.append_nil] at hsplit
    exact hround t ⟨gone, hsplit ▸ hnames, hget⟩
  · rintro _ t _ ⟨gone, hsplit, hget⟩
    rw [List.append_nil] at hsplit
    exact hsplit ▸ hget

/-- The excess is what is removed. -/
theorem pruneBackups_spec (hverbatim : isVerbatim target = true) {max_backups : Int} (hmax : 0 ≤ max_backups)
    (hI : ∀ t, (∀ name, t.get? name = s.get? name ∨ t.get? name = none) → t.get? target = s.get? target → I t) :
    (pruneBackups target max_backups).Always (Does target fun _ => Prunable target timestamp_str) I (fun _ t => Pruned target max_backups s t) s := by
  have hIs : I s := hI s (fun _ => .inl rfl) rfl
  have hstem : isVerbatim (backupStem target) = true := by
    unfold backupStem isVerbatim
    rw [List.all_append, Bool.and_eq_true]
    exact ⟨hverbatim, by decide⟩
  have hcandidates : (s.files.entries.map Prod.fst).filter (fnmatch (backupStem target ++ ['*'])) = backups target s := by
    unfold backups
    refine List.filter_congr fun name _ => ?_
    rw [Bool.eq_iff_iff, fnmatch_verbatim hstem, decide_eq_true_eq]
    rfl
  unfold pruneBackups
  rw [if_neg (by omega)]
  apply always_bind
  apply always_attempt
  refine always_perform hIs fun choice hallowed => ?_
  rw [run_reads rfl]
  refine ⟨hIs, ?_⟩
  simp only [Op.run, hallowed.lists _ rfl, if_true, hcandidates]
  apply always_bind
  refine (sortKeys_spec hIs fun name hname => (mem_backups.mp hname).1).post fun keys t _ hkeys => ?_
  obtain ⟨rfl, rfl⟩ := hkeys
  rw [List.length_map]
  refine unlinks_spec (fun name hname => ?_) hI
  obtain ⟨key, hkey, rfl⟩ := List.mem_map.mp hname
  obtain ⟨other, hother, rfl⟩ := List.mem_map.mp (ranked_perm.mem_iff.mp (List.mem_of_mem_take hkey))
  exact (mem_backups.mp hother).1

end

/-! ## One write -/

/-- The target and its backups are what they were. -/
structure Beside (target : Text) (m s : Folder) : Prop where
  same : s.get? target = m.get? target
  backups : SameBackups target s m

/-- The backup is there, and holds what the target held. -/
def Holds (target dst : Text) (m t : Folder) : Prop := ∃ file, t.get? dst = some file ∧ (m.get? target).map File.content = some file.content

/-- The copy of the target is kept if fewer backups than are to be kept rank above it, and no more are kept than are to be kept. -/
structure Rotated (target dst : Text) (max_backups : Int) (m t : Folder) : Prop where
  kept : Holds target dst m t ↔ ((above target dst m).length : Int) < max_backups
  count : ((backups target t).length : Int) ≤ max_backups

/-- What is left after the backup. -/
def AfterSnapshot (target timestamp_str : Text) (max_backups : Int) (m : Folder) : Except OSError (Option Text) → Folder → Prop
  | .ok (some backup_path), t => backup_path = backupName target timestamp_str ∧ Rotated target (backupName target timestamp_str) max_backups m t
  | _, _ => True

/-- What is left after the write. -/
def AfterWrite (target timestamp_str : Text) (max_backups : Int) (m : Folder) : Except OSError AtomicWriteResult → Folder → Prop
  | .ok result, t => AfterSnapshot target timestamp_str max_backups m (.ok result.backup_path) t
  | _, _ => True

section

variable {target timestamp_str name dst : Text} {max_backups : Int} {random : RandomName} {s t u m : Folder} {file : File} {choice : Choice}

theorem Beside.put_stage (h : Beside target m s) (hne : stageName random ≠ target) (file : File) :
    Beside target m (s.put target (stageName random) file) := by
  refine ⟨?_, fun name hbackup => ?_⟩
  · rw [get?_put, if_neg hne.symm, h.same]
  · have hother : name ≠ stageName random := by
      rintro rfl
      exact stage_not_backup random hbackup
    rw [get?_put, if_neg hother, h.backups name hbackup]

/-- The copy ranks by the time of the target. -/
theorem above_copy (h : Beside target m s) (hfile : m.get? target = some file) (hbackup : IsBackup target dst) (synced : Bool) :
    ((backups target (s.put target dst { file with synced })).filter fun other =>
      toLex (keyOf (s.put target dst { file with synced }) dst) < toLex (keyOf (s.put target dst { file with synced }) other)).length =
        (above target dst m).length := by
  have hkey : keyOf (s.put target dst { file with synced }) dst = (mtimeOf m target, dst) := by
    simp [keyOf, mtimeOf, hfile]
  have hother : ∀ other, other ≠ dst → IsBackup target other → (s.put target dst { file with synced }).get? other = m.get? other := by
    intro other hne hbackup
    rw [get?_put, if_neg hne, h.backups other hbackup]
  have hrank : ∀ other, other ≠ dst → IsBackup target other → keyOf (s.put target dst { file with synced }) other = keyOf m other := by
    intro other hne hbackup
    unfold keyOf mtimeOf
    rw [hother other hne hbackup]
  refine List.Perm.length_eq ((List.perm_ext_iff_of_nodup (nodup_backups.filter _) (nodup_backups.filter _)).mpr fun other => ?_)
  rw [List.mem_filter, List.mem_filter, decide_eq_true_eq, decide_eq_true_eq, mem_backups, mem_backups, hkey]
  by_cases hne : other = dst
  · subst hne
    rw [hkey]
    simp
  · constructor
    · rintro ⟨⟨hown, hthere⟩, hlt⟩
      rw [hother other hne hown] at hthere
      refine ⟨⟨hown, hthere⟩, hne, ?_⟩
      rwa [hrank other hne hown] at hlt
    · rintro ⟨⟨hown, hthere⟩, -, hlt⟩
      refine ⟨⟨hown, by rwa [hother other hne hown]⟩, ?_⟩
      rwa [hrank other hne hown]

theorem rotated_of_pruned (hmax : 0 ≤ max_backups) (h : Beside target m s) (hfile : m.get? target = some file) (hbackup : IsBackup target dst)
    (hpruned : Pruned target max_backups (s.put target dst { file with synced := false }) t) : Rotated target dst max_backups m t := by
  have hcopy : (s.put target dst { file with synced := false }).get? dst = some { file with synced := false } := get?_put_self
  have hmem : dst ∈ backups target (s.put target dst { file with synced := false }) := mem_backups.mpr ⟨hbackup, by rw [hcopy]; simp⟩
  refine ⟨?_, hpruned.length_le hmax⟩
  unfold Holds
  rw [← above_copy h hfile hbackup false, ← notMem_excess_iff hmax hmem, hpruned dst, hcopy, hfile]
  split
  · rename_i hgone
    simp [hgone]
  · rename_i hkept
    simp [hkept]

theorem Rotated.same (h : Rotated target dst max_backups m s) (hbackup : IsBackup target dst) (hsame : SameBackups target t s) :
    Rotated target dst max_backups m t := by
  refine ⟨?_, ?_⟩
  · rw [Holds, hsame dst hbackup]
    exact h.kept
  · rw [hsame.perm.length_eq]
    exact h.count

theorem AfterSnapshot.same {result : Except OSError (Option Text)} (h : AfterSnapshot target timestamp_str max_backups m result s)
    (hsame : SameBackups target t s) : AfterSnapshot target timestamp_str max_backups m result t := by
  match result with
  | .ok (some backup_path) => exact ⟨h.1, h.2.same (List.prefix_append _ _) hsame⟩
  | .ok none => exact trivial
  | .error _ => exact trivial

theorem snapshot_done {backup_path : Option Text} (h : AfterSnapshot target timestamp_str max_backups m (.ok backup_path) s) :
    (pure backup_path : Io (Option Text)).run.Always (Does target fun _ => Prunable target timestamp_str) (fun _ => True)
      (AfterSnapshot target timestamp_str max_backups m) s := always_return trivial h

theorem createBackupSnapshot_spec (hverbatim : isVerbatim target = true) (hmax : 0 ≤ max_backups) (h : Beside target m s) :
    (createBackupSnapshot target max_backups).run.Always (Does target fun _ => Prunable target timestamp_str) (fun _ => True)
      (AfterSnapshot target timestamp_str max_backups m) s := by
  unfold createBackupSnapshot
  apply always_then
  refine always_reads rfl trivial fun found => ?_
  match found with
  | .error _ => exact trivial
  | .ok false => exact snapshot_done trivial
  | .ok true =>
    apply always_then
    apply always_lift
    apply always_attempt
    refine always_reads rfl trivial fun answer => ?_
    match answer with
    | .error _ => exact snapshot_done trivial
    | .ok found =>
      dsimp only [Rest, Except.toOption]
      split
      · exact snapshot_done trivial
      apply always_then
      refine always_perform trivial fun choice hallowed => ⟨trivial, ?_⟩
      obtain rfl := hallowed.now rfl
      dsimp only [Rest, Op.run]
      apply always_then
      apply always_lift
      apply always_attempt
      refine always_perform trivial fun copied _ => ⟨trivial, ?_⟩
      simp only [Op.run]
      cases hfile : s.get? target with
      | none => exact snapshot_done trivial
      | some file =>
        cases copied.works with
        | false =>
          cases copied.left with
          | none => exact snapshot_done trivial
          | some left => exact snapshot_done trivial
        | true =>
          apply always_then
          apply always_lift
          refine (pruneBackups_spec hverbatim hmax fun _ _ _ => trivial).post fun _ t _ hpruned => ?_
          exact snapshot_done ⟨rfl, rotated_of_pruned hmax h (h.same ▸ hfile) (List.prefix_append _ _) hpruned⟩

theorem sameBackups_replace (random : RandomName) (choice : Choice) : SameBackups target ((Op.replace (stageName random) target).run target choice s).2 s := by
  simp only [Op.run]
  split
  · rename_i file _ _
    intro name hbackup
    have htarget : name ≠ target := by
      rintro rfl
      exact target_not_backup hbackup
    have hstage : name ≠ stageName random := by
      rintro rfl
      exact stage_not_backup random hbackup
    show ((s.remove target (stageName random)).put target target file).get? name = s.get? name
    rw [get?_put, if_neg htarget, get?_remove, if_neg hstage]
  · exact fun _ _ => rfl

theorem stageAndReplace_rotates {call : Call} (hverbatim : isVerbatim target = true) (hmax : 0 ≤ call.max_backups)
    (hne : stageName random ≠ target) (target_mode : Nat) (h : Beside target m s) :
    (stageAndReplace target (stageName random) call target_mode).run.Always (Does target fun _ => Prunable target timestamp_str) (fun _ => True)
      (AfterSnapshot target timestamp_str call.max_backups m) s := by
  unfold stageAndReplace
  apply always_then
  refine always_perform trivial fun choice _ => ⟨trivial, ?_⟩
  have hwrite := kept_write h (h.put_stage hne) call.raw_bytes choice
  cases ((Op.write (stageName random) call.raw_bytes).run target choice s).1 with
  | error err => exact trivial
  | ok _ =>
    apply always_then
    refine always_perform trivial fun choice' _ => ⟨trivial, ?_⟩
    have hfsync := kept_fsync hwrite (hwrite.put_stage hne) choice'
    cases ((Op.fsync (stageName random)).run target choice' ((Op.write (stageName random) call.raw_bytes).run target choice s).2).1 with
    | error err => exact trivial
    | ok _ =>
      apply always_then
      apply always_lift
      refine (keeps_attempt (K := Beside target m) (fun _ _ => trivial) hfsync fun choice _ => kept_chmod hfsync (hfsync.put_stage hne) target_mode choice).post
        fun _ t _ ht => ?_
      dsimp only [Rest]
      apply always_then
      have hbackup : (if call.make_backup then createBackupSnapshot target call.max_backups else pure none : Io (Option Text)).run.Always
          (Does target fun _ => Prunable target timestamp_str) (fun _ => True) (AfterSnapshot target timestamp_str call.max_backups m) t := by
        split
        · exact createBackupSnapshot_spec hverbatim hmax ht
        · exact snapshot_done trivial
      refine hbackup.post fun backup_path u _ hu => ?_
      cases backup_path with
      | error err => exact trivial
      | ok backup_path =>
        apply always_then
        refine always_perform trivial fun choice _ => ⟨trivial, ?_⟩
        have hreplace := hu.same (sameBackups_replace random choice)
        cases ((Op.replace (stageName random) target).run target choice u).1 with
        | error err => exact trivial
        | ok _ => exact snapshot_done hreplace

/-- A write rotates the backups. -/
theorem atomicWriteFile_rotates {call : Call} (hverbatim : isVerbatim target = true) (hmax : 0 ≤ call.max_backups) (m : Folder) :
    (atomicWriteFile target call).run.Always (Does target fun _ => Prunable target timestamp_str) (fun _ => True)
      (AfterWrite target timestamp_str call.max_backups m) m := by
  have hstart : Beside target m m := ⟨rfl, fun _ _ => rfl⟩
  unfold atomicWriteFile
  apply always_then
  refine (keeps_reads (K := Beside target m) rfl (fun _ _ => trivial) hstart).post fun made t _ ht => ?_
  cases made with
  | error err => exact trivial
  | ok _ =>
    apply always_then
    refine (keeps_resolveTargetMode (K := Beside target m) (fun _ _ => trivial) ht call.mode).post fun target_mode t _ ht => ?_
    cases target_mode with
    | error err => exact trivial
    | ok target_mode =>
      apply always_then
      refine always_perform trivial fun choice hallowed => ⟨trivial, ?_⟩
      have hne := hallowed.drawn rfl
      have hdrawn := kept_namedTemporaryFile ht (ht.put_stage hne)
      cases hanswer : (Op.namedTemporaryFile.run target choice t).1 with
      | error err => exact trivial
      | ok tmp_path =>
        obtain rfl := drawn_of_ok hanswer
        apply always_then
        apply always_tryCatch
        refine (stageAndReplace_rotates hverbatim hmax hne target_mode hdrawn).post fun result u _ hu => ?_
        cases result with
        | ok backup_path =>
          apply always_then
          have hsync : (if call.sync_directory then liftM (attempt (perform .fsyncDirectory)) else pure none : Io (Option Unit)).run.Always
              (Does target fun _ => Prunable target timestamp_str) (fun _ => True)
              (fun _ v => AfterSnapshot target timestamp_str call.max_backups m (.ok backup_path) v) u := by
            split
            · apply always_lift
              refine keeps_attempt (fun _ _ => trivial) hu fun choice _ => hu.same ?_
              simp only [Op.run]
              split <;> exact fun _ _ => rfl
            · exact keeps_return (fun _ _ => trivial) hu
          refine hsync.post fun synced v _ hv => ?_
          cases synced with
          | error err => exact trivial
          | ok _ => exact ⟨trivial, hv⟩
        | error err =>
          apply always_then
          apply always_lift
          refine (keeps_attempt (K := fun _ => True) (fun _ _ => trivial) trivial fun _ _ => trivial).post fun _ v _ _ => ?_
          exact ⟨trivial, trivial⟩

end

/-! ## Writes and replacements -/

/-- A write, of which the backup bears `timestamp_str`, or a file that takes the place of the target by another hand. -/
inductive Event
  | write (args : Call) (timestamp_str : Text) (result : Except OSError AtomicWriteResult)
  | replaced (file : File)

/-- What an event makes of a folder. A write is with backups on. -/
def Event.Step (target : Text) (m : Folder) : Event → Folder → Prop
  | write args timestamp_str result, t => args.make_backup = true ∧ 1 ≤ args.max_backups ∧
    Reaches (Does target fun _ => Prunable target timestamp_str) (atomicWriteFile target args, m) (.done result, t)
  | replaced file, t => t = m.put target target file

/-- Fewer backups than are to be kept rank above the new one. -/
def Event.RanksHigh (target : Text) (m : Folder) : Event → Prop
  | write args timestamp_str _ => ((above target (backupName target timestamp_str) m).length : Int) < args.max_backups
  | replaced _ => True

/-- The backup that a write returns holds what the write has replaced, and no more backups are left than are to be kept. -/
def Event.KeepsNewest (target : Text) (m : Folder) : Event → Folder → Prop
  | write args _ (.ok result), t => ∀ backup_path, result.backup_path = some backup_path →
    Holds target backup_path m t ∧ ((backups target t).length : Int) ≤ args.max_backups
  | _, _ => True

section

variable {target timestamp_str : Text} {s t m : Folder} {e : Event}

theorem rotated_of_step {call : Call} {result : AtomicWriteResult} {backup_path : Text} (hverbatim : isVerbatim target = true)
    (hstep : Event.Step target m (.write call timestamp_str (.ok result)) t) (hpath : result.backup_path = some backup_path) :
    backup_path = backupName target timestamp_str ∧ Rotated target (backupName target timestamp_str) call.max_backups m t := by
  obtain ⟨-, hmax, hreaches⟩ := hstep
  have hafter : AfterSnapshot target timestamp_str call.max_backups m (.ok result.backup_path) t :=
    ((atomicWriteFile_rotates hverbatim (by omega) m).reaches hreaches).2
  rw [hpath] at hafter
  exact hafter

/-- A write that has made a backup keeps it if and only if the backup ranks high. -/
theorem keepsNewest_iff {call : Call} {result : AtomicWriteResult} {backup_path : Text} (hverbatim : isVerbatim target = true)
    (hstep : Event.Step target m (.write call timestamp_str (.ok result)) t) (hpath : result.backup_path = some backup_path) :
    Event.KeepsNewest target m (.write call timestamp_str (.ok result)) t ↔ Event.RanksHigh target m (.write call timestamp_str (.ok result)) := by
  obtain ⟨rfl, hrotated⟩ := rotated_of_step hverbatim hstep hpath
  constructor
  · intro h
    exact hrotated.kept.mp (h _ hpath).1
  · intro h path hsome
    obtain rfl := Option.some.inj (hpath.symm.trans hsome)
    exact ⟨hrotated.kept.mpr h, hrotated.count⟩

theorem keepsNewest_of_ranksHigh (hverbatim : isVerbatim target = true) (h : Only (Event.Step target) (Event.RanksHigh target) m e t) :
    Event.KeepsNewest target m e t := by
  match e, h with
  | .write _ _ (.ok _), h =>
    intro backup_path hpath
    exact (keepsNewest_iff hverbatim h.1 hpath).mpr h.2 backup_path hpath
  | .write _ _ (.error _), _ => exact trivial
  | .replaced _, _ => exact trivial

/-- **The newest backup.** In every run whose backups rank high, every write keeps the newest. -/
theorem newest_kept {events : List Event} (hverbatim : isVerbatim target = true)
    (hrun : Run (Only (Event.Step target) (Event.RanksHigh target)) s events t) :
    Run (fun m e t => Event.Step target m e t ∧ Event.KeepsNewest target m e t) s events t :=
  hrun.mono fun _ _ _ h => ⟨h.1, keepsNewest_of_ranksHigh hverbatim h⟩

end

/-! ## A target with an older time -/

def oneBackup : Call := { newSettings with max_backups := 1 }

/-- The host lets a call through, and the clock shows `timestamp_str`. -/
def grantedAt (timestamp_str : Text) : Choice := { granted with timestamp_str }

/-- A write that everything works for. -/
def writtenAt (timestamp_str : Text) (m : Folder) : Program fileCalls (Except OSError AtomicWriteResult) × Folder :=
  exec (C := fileCalls) (Op.run iniName) (List.replicate 20 (grantedAt timestamp_str)) (atomicWriteFile iniName oneBackup, m)

theorem writtenAt_step {timestamp_str : Text} {m : Folder} {result : Except OSError AtomicWriteResult}
    (hdone : (writtenAt timestamp_str m).1 = .done result) :
    Event.Step iniName m (.write oneBackup timestamp_str result) (writtenAt timestamp_str m).2 := by
  have hprunable : ∀ choice ∈ List.replicate 20 (grantedAt timestamp_str), ∀ (op : Op) (_ : Folder), Prunable iniName timestamp_str op choice := by
    intro choice hchoice op _
    rw [List.eq_of_mem_replicate hchoice]
    exact ⟨fun _ => drawnName_ne, fun _ => rfl, fun _ _ => rfl, fun _ _ _ => rfl, fun _ _ _ => rfl⟩
  exact ⟨rfl, by decide, hdone ▸ reaches_exec iniName hprunable _⟩

def firstAt : Text := "20250101_000000_000000".toList

def secondAt : Text := "20250102_000000_000000".toList

def restoredSettings : File := { content := utf8 "restored", st_mode := 0o644, st_mtime := 0, synced := true }

/-- The file after the first write, and the file that is put in its place. -/
def restoredFolder : Folder := (writtenAt firstAt (folderWith iniName oldSettings)).2.put iniName iniName restoredSettings

def resultAt (timestamp_str : Text) : AtomicWriteResult :=
  { target_path := iniName, bytes_written := 3, backup_path := some (backupName iniName timestamp_str) }

theorem firstAt_done : (writtenAt firstAt (folderWith iniName oldSettings)).1 = .done (.ok (resultAt firstAt)) := rfl

theorem secondAt_done : (writtenAt secondAt restoredFolder).1 = .done (.ok (resultAt secondAt)) := rfl

theorem secondAt_gone : (writtenAt secondAt restoredFolder).2.get? (backupName iniName secondAt) = none := by decide

/-- The copy of a file with an older time ranks below the backup that is there, and is removed at once. -/
theorem newest_removed : ¬∀ (events : List Event) (t : Folder), Run (Event.Step iniName) (folderWith iniName oldSettings) events t →
    Run (fun m e t => Event.Step iniName m e t ∧ Event.KeepsNewest iniName m e t) (folderWith iniName oldSettings) events t := by
  intro h
  have hrun := h [.write oneBackup firstAt (.ok (resultAt firstAt)), .replaced restoredSettings, .write oneBackup secondAt (.ok (resultAt secondAt))] _
    (.cons (writtenAt_step firstAt_done) (.cons rfl (.one (writtenAt_step secondAt_done))))
  cases hrun with
  | cons _ hrun =>
    cases hrun with
    | cons _ hrun =>
      cases hrun with
      | cons hlast hnil =>
        cases hnil
        obtain ⟨file, hfile, -⟩ := (hlast.2 _ rfl).1
        cases secondAt_gone.symm.trans hfile

/-- Two writes after each other, of which the second removes the backup of the first. -/
theorem newest_kept_twice : isVerbatim iniName = true ∧
    Run (fun m e t => Event.Step iniName m e t ∧ Event.KeepsNewest iniName m e t) (folderWith iniName oldSettings)
      [.write oneBackup firstAt (.ok (resultAt firstAt)), .write oneBackup secondAt (.ok (resultAt secondAt))]
      (writtenAt secondAt (writtenAt firstAt (folderWith iniName oldSettings)).2).2 ∧
    (writtenAt firstAt (folderWith iniName oldSettings)).2.get? (backupName iniName firstAt) ≠ none ∧
    (writtenAt secondAt (writtenAt firstAt (folderWith iniName oldSettings)).2).2.get? (backupName iniName firstAt) = none := by
  have hverbatim : isVerbatim iniName = true := by decide
  have hfirst : Event.RanksHigh iniName (folderWith iniName oldSettings) (.write oneBackup firstAt (.ok (resultAt firstAt))) :=
    show ((above iniName (backupName iniName firstAt) (folderWith iniName oldSettings)).length : Int) < 1 by decide
  have hsecond : Event.RanksHigh iniName (writtenAt firstAt (folderWith iniName oldSettings)).2
      (.write oneBackup secondAt (.ok (resultAt secondAt))) :=
    show ((above iniName (backupName iniName secondAt) (writtenAt firstAt (folderWith iniName oldSettings)).2).length : Int) < 1 by decide
  have hdone : (writtenAt secondAt (writtenAt firstAt (folderWith iniName oldSettings)).2).1 = .done (.ok (resultAt secondAt)) := rfl
  exact ⟨hverbatim, newest_kept hverbatim (.cons ⟨writtenAt_step firstAt_done, hfirst⟩ (.one ⟨writtenAt_step hdone, hsecond⟩)),
    by decide, by decide⟩

end Palworld.Atomic

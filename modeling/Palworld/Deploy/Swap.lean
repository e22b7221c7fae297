import Mathlib.Tactic.Tauto
import Palworld.Lib.Directory

/-!
# A swap whose renames may fail

The old release is moved aside, the staged one takes its place, and the old one is archived or
removed. Where the staged one cannot take the place, the old one is moved back. Where there is no
old release, the staged one is moved, by a copy if a rename does not do.
-/

open Lib

namespace Palworld.Deploy

/-! ## The swap -/

/-- The places of a swap, and the tree before it. Nothing bears a name with this time stamp yet. -/
structure SwapSite (α : Type) where
  parent : Loc
  name : Text
  timestamp_str : Text
  staged_dir : Loc
  backup_dir : Option Loc
  before : Dirs α
  grounded : before.Grounded
  timestamp_new : ∀ l, name ++ ".old.".toList ++ timestamp_str ∈ l ∨ name ++ ".backup.".toList ++ timestamp_str ∈ l → before l = none

namespace SwapSite

variable {α : Type} (site : SwapSite α)

def target_dir : Loc := site.parent ++ [site.name]

def tombstone : Loc := site.parent ++ [site.name ++ ".old.".toList ++ site.timestamp_str]

def archiveName : Text := site.name ++ ".backup.".toList ++ site.timestamp_str

end SwapSite

/-- How the host meets each step. -/
structure SwapHost (α : Type) where
  parents : Option Nat
  initial : Bool
  initialMove : Dirs.Moving α
  aside : Bool
  swap : Bool
  rollback : Bool
  backupParents : Option Nat
  archive : Bool
  archiveMove : Dirs.Moving α
  cleanup : Option (Dirs α)

section

variable {α : Type} (site : SwapSite α) (host : SwapHost α)

/-- `_perform_initial_target_move`. -/
def performInitialTargetMove (t : Dirs α) : Bool × Dirs α := t.renameOrMove host.initial host.initialMove site.staged_dir site.target_dir

/-- `_swap_directories_with_rollback`. -/
def swapDirectoriesWithRollback (t : Dirs α) : Bool × Dirs α :=
  match t.rename host.aside site.target_dir site.tombstone with
  | none => (false, t)
  | some t =>
    match t.rename host.swap site.staged_dir site.target_dir with
    | some t => (true, t)
    | none =>
      match t.rename host.rollback site.tombstone site.target_dir with
      | some t => (false, t)
      | none => (false, t)

/-- Where the tombstone goes. -/
def archiveDest (backup : Loc) (t : Dirs α) : Loc := if Dirs.isDir (t backup) then backup ++ [site.archiveName] else backup

/-- `_archive_or_cleanup_tombstone`. -/
def archiveOrCleanupTombstone (t : Dirs α) : Dirs α :=
  match site.backup_dir with
  | none => (t.rmtree host.cleanup site.tombstone).2
  | some backup =>
    match t.mkdirs host.backupParents backup.dropLast with
    | (false, t) => (t.rmtree host.cleanup site.tombstone).2
    | (true, t) =>
      match t.renameOrMove host.archive host.archiveMove site.tombstone (archiveDest site backup t) with
      | (true, t) => t
      | (false, t) => (t.rmtree host.cleanup site.tombstone).2

/-- `execute_atomic_swap`, with the tree it leaves. -/
def executeAtomicSwap : Bool × Dirs α :=
  if Dirs.isDir (site.before site.staged_dir) = false then (false, site.before)
  else if site.staged_dir = site.target_dir then (false, site.before)
  else
    match site.before.mkdirs host.parents site.parent with
    | (false, t) => (false, t)
    | (true, t) =>
      if t site.target_dir = none then performInitialTargetMove site host t
      else
        match swapDirectoriesWithRollback site host t with
        | (false, t) => (false, t)
        | (true, t) => (true, archiveOrCleanupTombstone site host t)

/-- The target holds the staged tree exactly where the swap says so, and otherwise what it held. -/
structure SwapsOrKeeps : Prop where
  live : (executeAtomicSwap site host).1 = true ↔ Dirs.isDir (site.before site.staged_dir) = true ∧
    (executeAtomicSwap site host).2.below site.target_dir = site.before.below site.staged_dir
  kept : (executeAtomicSwap site host).1 = false →
    (executeAtomicSwap site host).2.below site.target_dir = site.before.below site.target_dir

/-! ## When it does -/

/-- Onto an absent target: a rename goes through, or the copy and the removal do, or the failing copy leaves nothing. -/
def MovesCleanly : Prop :=
  site.staged_dir <+: site.target_dir ∨ host.initial = true ∨ host.initialMove.lets = true ∨
    (host.initialMove.copied = none ∧ host.initialMove.removed = none) ∨ host.initialMove.copied = some fun _ => none

/-- The old release can be moved aside and the staged one into its place. -/
def Swaps : Prop :=
  ¬site.staged_dir <+: site.target_dir ∧ ¬site.target_dir <+: site.staged_dir ∧ host.aside = true ∧ host.swap = true

/-- What the archiving writes where it writes. -/
def archived : Dirs α :=
  if host.archive = true then site.before.below site.target_dir else host.archiveMove.leaves (site.before.below site.target_dir)

/-- An archive inside the new release changes nothing there: no directory is made for it, and nothing is written. -/
structure ArchiveKeeps (sub : Loc) : Prop where
  made : ((site.before.below site.staged_dir).mkdirs (host.backupParents.map (· - site.target_dir.length)) sub.dropLast).2 =
    site.before.below site.staged_dir
  written : ((site.before.below site.staged_dir).mkdirs (host.backupParents.map (· - site.target_dir.length)) sub.dropLast).1 = true →
    Dirs.takes (site.before site.target_dir)
      (site.before (site.staged_dir ++ archiveDest site sub (site.before.below site.staged_dir))) = true →
    archived site host = site.before.below (site.staged_dir ++ archiveDest site sub (site.before.below site.staged_dir))

structure SwapsCleanly : Prop where
  moved : Dirs.isDir (site.before site.staged_dir) = true → site.before site.target_dir = none →
    (site.before.mkdirs host.parents site.parent).1 = true → MovesCleanly site host
  refused : Dirs.isDir (site.before site.staged_dir) = true → site.before site.target_dir ≠ none → ¬Swaps site host →
    site.before.below site.target_dir ≠ site.before.below site.staged_dir
  swapped : Dirs.isDir (site.before site.staged_dir) = true → site.before site.target_dir ≠ none → Swaps site host →
    ∀ sub, site.backup_dir = some (site.target_dir ++ sub) → ArchiveKeeps site host sub

end

/-! ## The places -/

namespace SwapSite

variable {α : Type} {site : SwapSite α}

theorem name_ne (mark : Text) (h : mark ≠ []) : site.name ≠ site.name ++ mark ++ site.timestamp_str := by
  intro heq
  have hlength := congrArg List.length heq
  have hpositive := List.length_pos_of_ne_nil h
  simp only [List.length_append] at hlength
  omega

theorem target_tombstone : Unrelated site.target_dir site.tombstone := unrelated_siblings (site.name_ne _ (by decide))

theorem archiveName_new {l : Loc} (h : site.archiveName ∈ l) : site.before l = none := site.timestamp_new l (.inr h)

theorem tombstone_new (l : Loc) : site.before (site.tombstone ++ l) = none :=
  site.timestamp_new _ (.inl (by simp [tombstone]))

theorem tombstone_root : site.before site.tombstone = none := by
  simpa using site.tombstone_new []

/-- The tombstone has nothing to do with what stands beside it. -/
theorem tombstone_unrelated {l : Loc} (hsome : site.before l ≠ none) (hinside : ¬l <+: site.target_dir) : Unrelated site.tombstone l := by
  constructor
  · rintro ⟨m, rfl⟩
    exact hsome (site.tombstone_new m)
  · intro hpre
    rcases List.prefix_concat_iff.1 hpre with heq | hparent
    · rw [heq] at hsome
      exact hsome site.tombstone_root
    · exact hinside (hparent.trans (List.prefix_append _ _))

/-- The places above an old target are directories. -/
theorem above_target {l : Loc} (htarget : site.before site.target_dir ≠ none) (hl : l <+: site.parent) :
    Dirs.isDir (site.before l) = true := by
  obtain ⟨m, hm⟩ := hl
  refine site.grounded l (m ++ [site.name]) (by simp) ?_
  rwa [← List.append_assoc, hm]

theorem target_dropLast : site.target_dir.dropLast = site.parent := List.dropLast_concat

theorem tombstone_dropLast : site.tombstone.dropLast = site.parent := List.dropLast_concat

theorem target_not_above : ¬site.target_dir <+: site.parent := by
  simpa [target_dir] using not_below_parent site.parent site.name []

/-- Nothing is below an absent target. -/
theorem below_absent (htarget : site.before site.target_dir = none) : site.before.below site.target_dir = fun _ => none := by
  funext l
  by_contra hsome
  by_cases hl : l = []
  · subst hl
    exact hsome (by simpa using htarget)
  · have hdir := site.grounded site.target_dir l hl hsome
    rw [htarget] at hdir
    cases hdir

end SwapSite

/-! ## The first release -/

section

variable {α : Type} {site : SwapSite α} {host : SwapHost α} {t : Dirs α}

theorem run_not_dir (host : SwapHost α) (hdir : ¬Dirs.isDir (site.before site.staged_dir) = true) : executeAtomicSwap site host = (false, site.before) :=
  if_pos (by simpa using hdir)

/-- A staged directory that is not in an absent target. -/
theorem staged_unrelated (hdir : Dirs.isDir (site.before site.staged_dir) = true) (htarget : site.before site.target_dir = none)
    (hinside : ¬site.staged_dir <+: site.target_dir) : Unrelated site.staged_dir site.target_dir := by
  refine ⟨hinside, ?_⟩
  rintro ⟨m, hm⟩
  have hnone := congrFun (site.below_absent htarget) m
  rw [Dirs.below_apply, hm] at hnone
  exact Dirs.isDir_ne_none hdir hnone

/-- What the first move answers and leaves at the target. -/
theorem initial_spec (host : SwapHost α) (hapart : Unrelated site.staged_dir site.target_dir) (hdir : Dirs.isDir (t site.staged_dir) = true)
    (htarget : t site.target_dir = none) (hparent : Dirs.isDir (t site.parent) = true) :
    (performInitialTargetMove site host t).1 =
        (host.initial || host.initialMove.lets || host.initialMove.copied.isNone && host.initialMove.removed.isNone) ∧
      (performInitialTargetMove site host t).2.below site.target_dir =
        if host.initial || host.initialMove.lets then t.below site.staged_dir else host.initialMove.copied.getD (t.below site.staged_dir) := by
  have hdst : Dirs.isDir (t site.target_dir.dropLast) = true := by rwa [site.target_dropLast]
  have htakes : Dirs.takes (t site.staged_dir) (t site.target_dir) = true := by
    rw [htarget]
    exact Dirs.takes_none (Dirs.isDir_ne_none hdir)
  unfold performInitialTargetMove
  rw [Dirs.renameOrMove_eq]
  refine ⟨Dirs.move_fst _ hapart hdst htakes hdir, ?_⟩
  funext l
  rw [Dirs.below_apply, Dirs.move_of_not _ hapart hdst (hapart.append l), if_pos htakes, Dirs.replaced_self]
  rfl

theorem run_absent (hdir : Dirs.isDir (site.before site.staged_dir) = true) (htarget : site.before site.target_dir = none) :
    executeAtomicSwap site host =
      if (site.before.mkdirs host.parents site.parent).1 then
        performInitialTargetMove site host (site.before.mkdirs host.parents site.parent).2
      else (false, (site.before.mkdirs host.parents site.parent).2) := by
  have hne : site.staged_dir ≠ site.target_dir := by
    intro heq
    rw [heq, htarget] at hdir
    cases hdir
  have hstill : (site.before.mkdirs host.parents site.parent).2 site.target_dir = none := by
    rw [Dirs.mkdirs_of_not site.target_not_above, htarget]
  unfold executeAtomicSwap
  rw [if_neg (by simp [hdir]), if_neg hne]
  rcases hmade : site.before.mkdirs host.parents site.parent with ⟨made, t⟩
  rw [hmade] at hstill
  cases made with
  | false => rfl
  | true => exact if_pos hstill

theorem staged_not_empty (hdir : Dirs.isDir (site.before site.staged_dir) = true) : site.before.below site.staged_dir ≠ fun _ => none := by
  intro heq
  have hroot := congrFun heq []
  rw [Dirs.below_apply, List.append_nil] at hroot
  exact Dirs.isDir_ne_none hdir hroot

/-- Onto an absent target the swap either is done or leaves nothing. -/
theorem absent_law (hdir : Dirs.isDir (site.before site.staged_dir) = true) (htarget : site.before site.target_dir = none) :
    SwapsOrKeeps site host ↔
      if (executeAtomicSwap site host).1 then (executeAtomicSwap site host).2.below site.target_dir = site.before.below site.staged_dir
      else (executeAtomicSwap site host).2.below site.target_dir = fun _ => none := by
  cases hdone : (executeAtomicSwap site host).1 with
  | true =>
    rw [if_pos rfl]
    constructor
    · intro h
      exact (h.live.1 hdone).2
    · intro h
      exact ⟨iff_of_true hdone ⟨hdir, h⟩, fun hfalse => by rw [hdone] at hfalse; cases hfalse⟩
  | false =>
    rw [if_neg Bool.false_ne_true]
    constructor
    · intro h
      rw [h.kept hdone, site.below_absent htarget]
    · intro h
      refine ⟨iff_of_false (by simp [hdone]) fun hlive => staged_not_empty hdir (hlive.2.symm.trans h), fun _ => ?_⟩
      rw [h, site.below_absent htarget]

theorem absent_iff (hdir : Dirs.isDir (site.before site.staged_dir) = true) (htarget : site.before site.target_dir = none) :
    SwapsOrKeeps site host ↔ ((site.before.mkdirs host.parents site.parent).1 = true → MovesCleanly site host) := by
  have hkept : (site.before.mkdirs host.parents site.parent).2.below site.target_dir = fun _ => none := by
    rw [Dirs.below_mkdirs_of site.target_not_above, site.below_absent htarget]
  rw [absent_law hdir htarget, run_absent hdir htarget]
  cases hmade : (site.before.mkdirs host.parents site.parent).1 with
  | false => simpa using hkept
  | true =>
    rw [if_pos rfl]
    by_cases hinside : site.staged_dir <+: site.target_dir
    · -- neither the rename nor the copy is tried into the directory itself
      have hrefused : performInitialTargetMove site host (site.before.mkdirs host.parents site.parent).2 =
          (false, (site.before.mkdirs host.parents site.parent).2) := by
        unfold performInitialTargetMove
        rw [Dirs.renameOrMove_eq, Dirs.move_inside _ hinside]
      rw [hrefused]
      simpa [MovesCleanly, hinside] using hkept
    · have hapart := staged_unrelated hdir htarget hinside
      have hstaged : (site.before.mkdirs host.parents site.parent).2 site.staged_dir = site.before site.staged_dir :=
        Dirs.mkdirs_of_some (Dirs.isDir_ne_none hdir)
      have hbelow : (site.before.mkdirs host.parents site.parent).2.below site.staged_dir = site.before.below site.staged_dir :=
        Dirs.below_mkdirs_of fun hpre => hinside (hpre.trans (List.prefix_append _ _))
      have hfree : (site.before.mkdirs host.parents site.parent).2 site.target_dir = none := by
        rw [Dirs.mkdirs_of_not site.target_not_above, htarget]
      obtain ⟨hanswer, hleft⟩ := initial_spec host hapart (by rwa [hstaged]) hfree (Dirs.mkdirs_isDir hmade)
      rw [hanswer, hleft, hbelow]
      unfold MovesCleanly
      cases host.initial <;> cases host.initialMove.lets <;> simp [hinside]
      cases host.initialMove.copied with
      | some left => simp
      | none => cases host.initialMove.removed <;> simp [staged_not_empty hdir]

end

/-! ## The next release -/

section

variable {α : Type} {site : SwapSite α} {host : SwapHost α}

/-- The tree with the old release aside. -/
def movedAside (site : SwapSite α) : Dirs α := site.before.moved site.target_dir site.tombstone

/-- The tree with the new release in place. -/
def swapped (site : SwapSite α) : Dirs α := (movedAside site).moved site.staged_dir site.target_dir

theorem run_present (hdir : Dirs.isDir (site.before site.staged_dir) = true) (htarget : site.before site.target_dir ≠ none)
    (hne : site.staged_dir ≠ site.target_dir) :
    executeAtomicSwap site host =
      match swapDirectoriesWithRollback site host site.before with
      | (false, t) => (false, t)
      | (true, t) => (true, archiveOrCleanupTombstone site host t) := by
  unfold executeAtomicSwap
  rw [if_neg (by simp [hdir]), if_neg hne, Dirs.mkdirs_of_isDir (site.above_target htarget (List.prefix_refl _))]
  exact if_neg htarget

theorem movedAside_above {l : Loc} (hl : l <+: site.parent) : movedAside site l = site.before l := by
  refine Dirs.moved_of_not (fun hpre => ?_) fun hpre => ?_
  · have hlength := (hpre.trans hl).length_le
    simp only [SwapSite.tombstone, List.length_append, List.length_cons, List.length_nil] at hlength
    omega
  · exact site.target_not_above (hpre.trans hl)

theorem movedAside_target : movedAside site site.target_dir = none := Dirs.moved_src_self site.target_tombstone.symm.1

theorem movedAside_tombstone (site : SwapSite α) : (movedAside site).below site.tombstone = site.before.below site.target_dir := Dirs.below_moved

theorem rename_aside (haside : host.aside = true) (htarget : site.before site.target_dir ≠ none) :
    site.before.rename host.aside site.target_dir site.tombstone = some (movedAside site) := by
  refine Dirs.rename_of haside ?_ site.target_tombstone.1 ?_
  · rw [site.tombstone_root]
    exact Dirs.takes_none htarget
  · rw [site.tombstone_dropLast]
    exact site.above_target htarget (List.prefix_refl _)

theorem movedAside_parent (htarget : site.before site.target_dir ≠ none) : Dirs.isDir (movedAside site site.target_dir.dropLast) = true := by
  rw [site.target_dropLast, movedAside_above (List.prefix_refl _)]
  exact site.above_target htarget (List.prefix_refl _)

/-- Both renames go through. -/
theorem swap_done (hdir : Dirs.isDir (site.before site.staged_dir) = true) (htarget : site.before site.target_dir ≠ none)
    (hswaps : Swaps site host) : swapDirectoriesWithRollback site host site.before = (true, swapped site) := by
  obtain ⟨hinside, habove, haside, hswap⟩ := hswaps
  have hsome := Dirs.isDir_ne_none hdir
  have hstaged : movedAside site site.staged_dir = site.before site.staged_dir :=
    Dirs.moved_of_not (site.tombstone_unrelated hsome hinside).1 habove
  have hsecond : (movedAside site).rename host.swap site.staged_dir site.target_dir = some (swapped site) := by
    refine Dirs.rename_of hswap ?_ hinside (movedAside_parent htarget)
    rw [movedAside_target, hstaged]
    exact Dirs.takes_none hsome
  unfold swapDirectoriesWithRollback
  rw [rename_aside haside htarget]
  dsimp only
  rw [hsecond]

/-- One of the renames fails, and the old release is where it was. -/
theorem swap_refused (hrollback : host.rollback = true) (htarget : site.before site.target_dir ≠ none) (hswaps : ¬Swaps site host) :
    ∃ t, swapDirectoriesWithRollback site host site.before = (false, t) ∧ t.below site.target_dir = site.before.below site.target_dir := by
  unfold swapDirectoriesWithRollback
  cases haside : host.aside with
  | false =>
    rw [Dirs.rename_refused]
    exact ⟨site.before, rfl, rfl⟩
  | true =>
    rw [← haside, rename_aside haside htarget]
    have hrefused : (movedAside site).rename host.swap site.staged_dir site.target_dir = none := by
      by_cases hinside : site.staged_dir <+: site.target_dir
      · exact Dirs.rename_inside hinside
      cases hswap : host.swap with
      | false => exact Dirs.rename_refused
      | true =>
        -- what can be renamed has gone with the old release
        have habove : site.target_dir <+: site.staged_dir := by
          by_contra habove
          exact hswaps ⟨hinside, habove, haside, hswap⟩
        obtain ⟨m, hm⟩ := habove
        have hgone : movedAside site site.staged_dir = none := by
          rw [← hm]
          exact Dirs.moved_src (site.target_tombstone.symm.append m)
        refine if_neg fun h => ?_
        rw [hgone] at h
        exact Bool.false_ne_true h.2.1
    have hold : movedAside site site.tombstone = site.before site.target_dir := by
      simpa using congrFun (movedAside_tombstone site) []
    have hback : (movedAside site).rename host.rollback site.tombstone site.target_dir =
        some ((movedAside site).moved site.tombstone site.target_dir) := by
      refine Dirs.rename_of hrollback ?_ site.target_tombstone.symm.1 (movedAside_parent htarget)
      rw [movedAside_target, hold]
      exact Dirs.takes_none htarget
    dsimp only
    rw [hrefused]
    dsimp only
    rw [hback]
    exact ⟨_, rfl, Dirs.below_moved.trans (movedAside_tombstone site)⟩

/-! ## The archive -/

theorem swapped_target (hdir : Dirs.isDir (site.before site.staged_dir) = true) (hswaps : Swaps site host) :
    (swapped site).below site.target_dir = site.before.below site.staged_dir := by
  have hapart := site.tombstone_unrelated (Dirs.isDir_ne_none hdir) hswaps.1
  exact Dirs.below_moved.trans (Dirs.below_moved_of ⟨hswaps.2.1, hswaps.1⟩ hapart)

theorem swapped_tombstone (hdir : Dirs.isDir (site.before site.staged_dir) = true) (hswaps : Swaps site host) :
    (swapped site).below site.tombstone = site.before.below site.target_dir := by
  have hapart := site.tombstone_unrelated (Dirs.isDir_ne_none hdir) hswaps.1
  exact (Dirs.below_moved_of hapart.symm site.target_tombstone).trans (movedAside_tombstone site)

theorem swapped_above (htarget : site.before site.target_dir ≠ none) (hswaps : Swaps site host) {l : Loc} (hl : l <+: site.parent) :
    Dirs.isDir (swapped site l) = true := by
  have hstaged : ¬site.staged_dir <+: l := fun h => hswaps.1 ((h.trans hl).trans (List.prefix_append _ _))
  have hnew : ¬site.target_dir <+: l := fun h => site.target_not_above (h.trans hl)
  unfold swapped
  rw [Dirs.moved_of_not hnew hstaged, movedAside_above hl]
  exact site.above_target htarget hl

/-- The move that the archiving comes to. -/
def archiving (host : SwapHost α) : Dirs.Moving α := { host.archiveMove with lets := host.archive || host.archiveMove.lets }

/-- The target sees the directories that are made and the move, and no removal of the tombstone. -/
theorem archive_spec {backup : Loc} (hbackup : site.backup_dir = some backup) (t : Dirs α) :
    (archiveOrCleanupTombstone site host t).below site.target_dir =
      if (t.mkdirs host.backupParents backup.dropLast).1 then
        ((t.mkdirs host.backupParents backup.dropLast).2.move (archiving host) site.tombstone
          (archiveDest site backup (t.mkdirs host.backupParents backup.dropLast).2)).2.below site.target_dir
      else (t.mkdirs host.backupParents backup.dropLast).2.below site.target_dir := by
  have hapart := site.target_tombstone.symm
  unfold archiveOrCleanupTombstone
  rw [hbackup]
  dsimp only
  rcases hmade : t.mkdirs host.backupParents backup.dropLast with ⟨made, t'⟩
  cases made with
  | false => exact Dirs.below_rmtree _ hapart
  | true =>
    dsimp only
    rw [Dirs.renameOrMove_eq, if_pos rfl]
    rcases hmoved : t'.move (archiving host) site.tombstone (archiveDest site backup t') with ⟨done, t''⟩
    unfold archiving at hmoved
    rw [hmoved]
    cases done with
    | true => rfl
    | false => exact Dirs.below_rmtree _ hapart

/-- A backup directory outside the target gives a place outside it. -/
theorem archiveDest_outside (htarget : site.before site.target_dir ≠ none) (hswaps : Swaps site host) {backup : Loc}
    (hbeside : ¬site.target_dir <+: backup) :
    Unrelated (archiveDest site backup ((swapped site).mkdirs host.backupParents backup.dropLast).2) site.target_dir := by
  unfold archiveDest
  split
  · constructor
    · intro hpre
      exact htarget (site.archiveName_new (hpre.subset (by simp)))
    · intro hpre
      rcases List.prefix_concat_iff.1 hpre with heq | hin
      · exact htarget (site.archiveName_new (by simp [heq]))
      · exact hbeside hin
  · rename_i hfile
    refine ⟨fun hpre => ?_, hbeside⟩
    rcases List.prefix_concat_iff.1 hpre with heq | habove
    · exact hbeside (heq ▸ List.prefix_refl _)
    · -- the places above the target are directories
      have hdirectory := swapped_above htarget hswaps habove
      rw [Dirs.mkdirs_of_some (Dirs.isDir_ne_none hdirectory)] at hfile
      exact hfile hdirectory

/-- An archive outside the target leaves the target alone. -/
theorem archive_outside (hdir : Dirs.isDir (site.before site.staged_dir) = true) (htarget : site.before site.target_dir ≠ none)
    (hswaps : Swaps site host) (houtside : ∀ sub, site.backup_dir ≠ some (site.target_dir ++ sub)) :
    (archiveOrCleanupTombstone site host (swapped site)).below site.target_dir = site.before.below site.staged_dir := by
  have hnew := swapped_target hdir hswaps
  cases hbackup : site.backup_dir with
  | none =>
    unfold archiveOrCleanupTombstone
    rw [hbackup]
    exact (Dirs.below_rmtree _ site.target_tombstone.symm).trans hnew
  | some backup =>
    have hbeside : ¬site.target_dir <+: backup := by
      rintro ⟨sub, rfl⟩
      exact houtside sub hbackup
    have hkept : ((swapped site).mkdirs host.backupParents backup.dropLast).2.below site.target_dir = site.before.below site.staged_dir :=
      (Dirs.below_mkdirs_of fun h => hbeside (h.trans (List.dropLast_prefix _))).trans hnew
    rw [archive_spec hbackup]
    split
    · rw [Dirs.below_move _ site.target_tombstone.symm (archiveDest_outside htarget hswaps hbeside), hkept]
    · exact hkept

theorem archiveDest_append (sub : Loc) (t : Dirs α) :
    archiveDest site (site.target_dir ++ sub) t = site.target_dir ++ archiveDest site sub (t.below site.target_dir) := by
  unfold archiveDest
  rw [Dirs.below_apply]
  split
  · exact List.append_assoc _ _ _
  · rfl

theorem archiveDest_parent (site : SwapSite α) {backup : Loc} {t : Dirs α} (hparent : Dirs.isDir (t backup.dropLast) = true) :
    Dirs.isDir (t (archiveDest site backup t).dropLast) = true := by
  unfold archiveDest
  split
  · rename_i hdir
    rwa [List.dropLast_concat]
  · exact hparent

/-- The directories made for an archive in a tree. -/
def madeFor (host : SwapHost α) (site : SwapSite α) (sub : Loc) : Bool × Dirs α :=
  (site.before.below site.staged_dir).mkdirs (host.backupParents.map (· - site.target_dir.length)) sub.dropLast

theorem mkdirs_inside (hdir : Dirs.isDir (site.before site.staged_dir) = true) (htarget : site.before site.target_dir ≠ none)
    (hswaps : Swaps site host) (sub : Loc) :
    ((swapped site).mkdirs host.backupParents (site.target_dir ++ sub).dropLast).1 = (madeFor host site sub).1 ∧
      ((swapped site).mkdirs host.backupParents (site.target_dir ++ sub).dropLast).2.below site.target_dir = (madeFor host site sub).2 := by
  have hnew := swapped_target hdir hswaps
  have hroot : Dirs.isDir (swapped site site.target_dir) = true := by
    have heq := congrFun hnew []
    rw [Dirs.below_apply, Dirs.below_apply, List.append_nil, List.append_nil] at heq
    rwa [heq]
  unfold madeFor
  by_cases hsub : sub = []
  · -- the parents of the target are there
    subst hsub
    have hparent := swapped_above htarget hswaps (List.prefix_refl _)
    have hlive : Dirs.isDir (site.before.below site.staged_dir []) = true := by rwa [Dirs.below_apply, List.append_nil]
    rw [List.append_nil, site.target_dropLast, Dirs.mkdirs_of_isDir hparent, List.dropLast_nil, Dirs.mkdirs_of_isDir hlive]
    exact ⟨rfl, hnew⟩
  · rw [List.dropLast_append_of_ne_nil hsub, ← hnew]
    refine Dirs.mkdirs_append _ fun l hl => ?_
    rcases List.prefix_concat_iff.1 hl with heq | habove
    · rwa [heq]
    · exact swapped_above htarget hswaps habove

theorem archiving_leaves : (archiving host).leaves (site.before.below site.target_dir) = archived site host := by
  unfold archiving archived Dirs.Moving.leaves
  cases host.archive with
  | true => simp
  | false => simp

/-- What an archive inside the target leaves of the new release. -/
theorem archive_inside (hdir : Dirs.isDir (site.before site.staged_dir) = true) (htarget : site.before site.target_dir ≠ none)
    (hswaps : Swaps site host) {sub : Loc} (hbackup : site.backup_dir = some (site.target_dir ++ sub)) :
    (archiveOrCleanupTombstone site host (swapped site)).below site.target_dir =
      if (madeFor host site sub).1 then
        if Dirs.takes (site.before site.target_dir) ((madeFor host site sub).2 (archiveDest site sub (madeFor host site sub).2)) then
          (madeFor host site sub).2.replaced (archiveDest site sub (madeFor host site sub).2) (archived site host)
        else (madeFor host site sub).2
      else (madeFor host site sub).2 := by
  have hapart := site.target_tombstone.symm
  obtain ⟨hanswer, hbelow⟩ := mkdirs_inside hdir htarget hswaps sub
  rw [archive_spec hbackup, hanswer, archiveDest_append, hbelow]
  cases hmade : (madeFor host site sub).1 with
  | false => simp
  | true =>
    have hparent := Dirs.mkdirs_isDir (hanswer.trans hmade)
    have hdest := archiveDest_parent site hparent
    rw [archiveDest_append, hbelow] at hdest
    have htombstone : ((swapped site).mkdirs host.backupParents (site.target_dir ++ sub).dropLast).2.below site.tombstone =
        site.before.below site.target_dir := by
      rw [Dirs.below_mkdirs_of fun h => hapart.append sub (h.trans (List.dropLast_prefix _)), swapped_tombstone hdir hswaps]
    have hold : ((swapped site).mkdirs host.backupParents (site.target_dir ++ sub).dropLast).2 site.tombstone = site.before site.target_dir := by
      simpa using congrFun htombstone []
    have hplace : ((swapped site).mkdirs host.backupParents (site.target_dir ++ sub).dropLast).2
        (site.target_dir ++ archiveDest site sub (madeFor host site sub).2) =
          (madeFor host site sub).2 (archiveDest site sub (madeFor host site sub).2) := congrFun hbelow _
    have hwritten : (((swapped site).mkdirs host.backupParents (site.target_dir ++ sub).dropLast).2.replaced
        (site.target_dir ++ archiveDest site sub (madeFor host site sub).2) (archived site host)).below site.target_dir =
          (madeFor host site sub).2.replaced (archiveDest site sub (madeFor host site sub).2) (archived site host) := by
      rw [Dirs.below_replaced_append, hbelow]
    rw [if_pos rfl, if_pos rfl]
    funext l
    rw [Dirs.below_apply, Dirs.move_of_not _ (hapart.mono (List.prefix_append _ _)) hdest (hapart.append l), htombstone, archiving_leaves,
      hold, hplace]
    split
    · exact congrFun hwritten l
    · exact congrFun hbelow l

/-- The place of the archive is none of the directories made for it. -/
theorem archiveDest_not_above (hdir : Dirs.isDir (site.before site.staged_dir) = true) (sub : Loc) {l : Loc} :
    ¬archiveDest site sub (madeFor host site sub).2 ++ l <+: sub.dropLast := by
  intro hpre
  have hlength := hpre.length_le
  have hroot : (madeFor host site sub).2 [] = site.before site.staged_dir := by
    have hlive : site.before.below site.staged_dir [] = site.before site.staged_dir := by rw [Dirs.below_apply, List.append_nil]
    rw [madeFor, Dirs.mkdirs_of_some (by rw [hlive]; exact Dirs.isDir_ne_none hdir), hlive]
  unfold archiveDest at hlength
  split at hlength
  · simp only [List.length_append, List.length_dropLast, List.length_cons] at hlength
    omega
  · rename_i hfile
    by_cases hsub : sub = []
    · subst hsub
      rw [hroot] at hfile
      exact hfile hdir
    · have hpositive := List.length_pos_of_ne_nil hsub
      simp only [List.length_append, List.length_dropLast] at hlength
      omega

theorem archive_inside_iff (hdir : Dirs.isDir (site.before site.staged_dir) = true) (htarget : site.before site.target_dir ≠ none)
    (hswaps : Swaps site host) {sub : Loc} (hbackup : site.backup_dir = some (site.target_dir ++ sub)) :
    (archiveOrCleanupTombstone site host (swapped site)).below site.target_dir = site.before.below site.staged_dir ↔
      ArchiveKeeps site host sub := by
  rw [archive_inside hdir htarget hswaps hbackup]
  constructor
  · intro h
    have hmade : (madeFor host site sub).2 = site.before.below site.staged_dir := by
      split at h
      · split at h
        · funext l
          rw [← h]
          by_cases hdest : archiveDest site sub (madeFor host site sub).2 <+: l
          · -- nothing is made where the archive goes
            obtain ⟨m, rfl⟩ := hdest
            rw [h]
            exact Dirs.mkdirs_of_not (archiveDest_not_above hdir sub)
          · exact (Dirs.replaced_of_not _ hdest).symm
        · exact h
      · exact h
    refine ⟨hmade, fun (hanswer : (madeFor host site sub).1 = true) htakes => ?_⟩
    rw [hmade, if_pos hanswer, Dirs.below_apply, if_pos htakes] at h
    funext l
    have hplace := congrFun h (archiveDest site sub (site.before.below site.staged_dir) ++ l)
    rw [Dirs.replaced_self, Dirs.below_apply, ← List.append_assoc] at hplace
    exact hplace
  · intro h
    have hmade : (madeFor host site sub).2 = site.before.below site.staged_dir := h.made
    rw [hmade]
    split
    · rename_i hanswer
      split
      · rename_i htakes
        rw [h.written hanswer htakes]
        funext l
        by_cases hdest : archiveDest site sub (site.before.below site.staged_dir) <+: l
        · obtain ⟨m, rfl⟩ := hdest
          rw [Dirs.replaced_self, Dirs.below_apply, Dirs.below_apply, List.append_assoc]
        · exact Dirs.replaced_of_not _ hdest
      · rfl
    · rfl

/-! ## Every failure -/

theorem run_swaps (hdir : Dirs.isDir (site.before site.staged_dir) = true) (htarget : site.before site.target_dir ≠ none)
    (hswaps : Swaps site host) : executeAtomicSwap site host = (true, archiveOrCleanupTombstone site host (swapped site)) := by
  have hne : site.staged_dir ≠ site.target_dir := fun heq => hswaps.1 (heq ▸ List.prefix_refl _)
  rw [run_present hdir htarget hne, swap_done hdir htarget hswaps]

theorem run_refused (hrollback : host.rollback = true) (hdir : Dirs.isDir (site.before site.staged_dir) = true)
    (htarget : site.before site.target_dir ≠ none) (hswaps : ¬Swaps site host) :
    ∃ t, executeAtomicSwap site host = (false, t) ∧ t.below site.target_dir = site.before.below site.target_dir := by
  by_cases hsame : site.staged_dir = site.target_dir
  · refine ⟨site.before, ?_, rfl⟩
    unfold executeAtomicSwap
    rw [if_neg (by simp [hdir]), if_pos hsame]
  · obtain ⟨t, hrefused, hkept⟩ := swap_refused hrollback htarget hswaps
    exact ⟨t, by rw [run_present hdir htarget hsame, hrefused], hkept⟩

theorem present_iff (hrollback : host.rollback = true) (hdir : Dirs.isDir (site.before site.staged_dir) = true)
    (htarget : site.before site.target_dir ≠ none) : SwapsOrKeeps site host ↔ SwapsCleanly site host := by
  by_cases hswaps : Swaps site host
  · have hrun := run_swaps hdir htarget hswaps
    constructor
    · intro h
      have hlive := (h.live.1 (by rw [hrun])).2
      rw [hrun] at hlive
      refine ⟨fun _ hnone => absurd hnone htarget, fun _ _ hnot => absurd hswaps hnot, fun _ _ _ sub hbackup => ?_⟩
      exact (archive_inside_iff hdir htarget hswaps hbackup).1 hlive
    · intro h
      have hlive : (archiveOrCleanupTombstone site host (swapped site)).below site.target_dir = site.before.below site.staged_dir := by
        by_cases hinside : ∃ sub, site.backup_dir = some (site.target_dir ++ sub)
        · obtain ⟨sub, hbackup⟩ := hinside
          exact (archive_inside_iff hdir htarget hswaps hbackup).2 (h.swapped hdir htarget hswaps sub hbackup)
        · exact archive_outside hdir htarget hswaps fun sub hbackup => hinside ⟨sub, hbackup⟩
      refine ⟨iff_of_true (by rw [hrun]) ⟨hdir, by rw [hrun]; exact hlive⟩, fun hfalse => ?_⟩
      rw [hrun] at hfalse
      cases hfalse
  · obtain ⟨t, hrun, hkept⟩ := run_refused hrollback hdir htarget hswaps
    constructor
    · intro h
      refine ⟨fun _ hnone => absurd hnone htarget, fun _ _ _ hsame => ?_, fun _ _ hdone => absurd hdone hswaps⟩
      have hlive := h.live.2 ⟨hdir, by rw [hrun]; exact hkept.trans hsame⟩
      rw [hrun] at hlive
      cases hlive
    · intro h
      refine ⟨iff_of_false (by rw [hrun]; exact Bool.false_ne_true) fun hlive => ?_, fun _ => by rw [hrun]; exact hkept⟩
      rw [hrun] at hlive
      exact h.refused hdir htarget hswaps (hkept.symm.trans hlive.2)

/-- **The swap.** Where a rollback goes through, the target holds the staged tree exactly where the swap says so and what it held
otherwise, unless the first release is copied in part or its source stays, the release was there already, or the archive goes into it. -/
theorem swapsOrKeeps_iff (site : SwapSite α) (host : SwapHost α) (hrollback : host.rollback = true) :
    SwapsOrKeeps site host ↔ SwapsCleanly site host := by
  by_cases hdir : Dirs.isDir (site.before site.staged_dir) = true
  · by_cases htarget : site.before site.target_dir = none
    · rw [absent_iff hdir htarget]
      constructor
      · intro h
        exact ⟨fun _ _ => h, fun _ hsome => absurd htarget hsome, fun _ hsome => absurd htarget hsome⟩
      · intro h
        exact h.moved hdir htarget
    · exact present_iff hrollback hdir htarget
  · have hrun := run_not_dir host hdir
    refine iff_of_true ⟨?_, fun _ => by rw [hrun]⟩ ⟨fun h => absurd h hdir, fun h => absurd h hdir, fun h => absurd h hdir⟩
    rw [hrun]
    exact iff_of_false Bool.false_ne_true fun h => hdir h.1

end

/-! ## A copy that stops midway -/

/-- A staged release, and beside it a live one or none. -/
def stagedTree (live : Bool) : Dirs Text := fun l =>
  if l = [] ∨ l = ["stage".toList] ∨ live = true ∧ l = ["live".toList] then some .dir
  else if l = ["stage".toList, "version.txt".toList] then some (.file "v2.0.0".toList)
  else if live = true ∧ l = ["live".toList, "version.txt".toList] then some (.file "v1.0.0".toList)
  else none

theorem stagedTree_cases {live : Bool} {l : Loc} (h : stagedTree live l ≠ none) :
    l = [] ∨ ∃ name, Dirs.isDir (stagedTree live [name]) = true ∧ (name = "stage".toList ∨ name = "live".toList) ∧
      (l = [name] ∨ l = [name, "version.txt".toList]) := by
  have hstage : Dirs.isDir (stagedTree live ["stage".toList]) = true := by cases live <;> rfl
  unfold stagedTree at h
  split at h
  · rename_i hdir
    rcases hdir with rfl | rfl | ⟨rfl, rfl⟩
    · exact .inl rfl
    · exact .inr ⟨_, hstage, .inl rfl, .inl rfl⟩
    · exact .inr ⟨_, rfl, .inr rfl, .inl rfl⟩
  · split at h
    · rename_i hfile
      exact .inr ⟨_, hstage, .inl rfl, .inr hfile⟩
    · split at h
      · rename_i hfile
        obtain ⟨rfl, hfile⟩ := hfile
        exact .inr ⟨_, rfl, .inr rfl, .inr hfile⟩
      · exact absurd rfl h

theorem stagedTree_grounded (live : Bool) : (stagedTree live).Grounded := by
  intro l m hm hsome
  have hlength := List.length_pos_of_ne_nil hm
  have hroot : Dirs.isDir (stagedTree live []) = true := by cases live <;> rfl
  rcases stagedTree_cases hsome with h | ⟨name, hdir, -, h | h⟩
  · exact absurd (List.append_eq_nil_iff.mp h).2 hm
  · obtain ⟨rfl, -⟩ := (List.append_eq_singleton_iff.1 h).resolve_right fun hright => hm hright.2
    exact hroot
  · rcases l with - | ⟨a, - | ⟨b, rest⟩⟩
    · exact hroot
    · obtain ⟨rfl, -⟩ := List.cons.inj h
      exact hdir
    · have hlengths := congrArg List.length h
      simp only [List.length_append, List.length_cons, List.length_nil] at hlengths
      omega

theorem stagedTree_new (live : Bool) (l : Loc)
    (h : "live".toList ++ ".old.".toList ++ "20250101_000000_000000".toList ∈ l ∨
      "live".toList ++ ".backup.".toList ++ "20250101_000000_000000".toList ∈ l) : stagedTree live l = none := by
  by_contra hsome
  rcases stagedTree_cases hsome with rfl | ⟨name, -, rfl | rfl, rfl | rfl⟩ <;> revert h <;> decide

def release (live : Bool) : SwapSite Text where
  parent := []
  name := "live".toList
  timestamp_str := "20250101_000000_000000".toList
  staged_dir := ["stage".toList]
  backup_dir := none
  before := stagedTree live
  grounded := stagedTree_grounded live
  timestamp_new := stagedTree_new live

/-- No rename goes through, and the copy makes the directory and no more. -/
def acrossDevices : SwapHost Text where
  parents := none
  initial := false
  initialMove := { lets := false, copied := some fun l => if l = [] then some .dir else none, removed := none }
  aside := true
  swap := true
  rollback := true
  backupParents := none
  archive := true
  archiveMove := { lets := true, copied := none, removed := none }
  cleanup := none

theorem partial_copy_stays : ¬SwapsOrKeeps (release false) acrossDevices := by
  intro h
  have hkept := congrArg Dirs.isDir (congrFun (h.kept (by decide)) [])
  revert hkept
  decide

/-- The renames of a release that is there already go through. -/
theorem swapsOrKeeps_release : acrossDevices.rollback = true ∧ SwapsOrKeeps (release true) acrossDevices ∧
    (executeAtomicSwap (release true) acrossDevices).1 = true := by
  have hswaps : Swaps (release true) acrossDevices := ⟨by decide, by decide, rfl, rfl⟩
  have htarget : (release true).before (release true).target_dir ≠ none := by decide
  have hclean : SwapsCleanly (release true) acrossDevices :=
    ⟨fun _ hnone => absurd hnone htarget, fun _ _ hnot => absurd hswaps hnot, fun _ _ _ _ hbackup => absurd hbackup nofun⟩
  exact ⟨rfl, (swapsOrKeeps_iff (release true) acrossDevices rfl).mpr hclean, by decide⟩

end Palworld.Deploy

import Mathlib.Tactic.Tauto
import Palworld.Lib.Directory

/-!
# A stage whose renames may fail

The commit of `AtomicStagingContext` moves the old target aside, puts the stage in its place and
removes the old target. Where the second rename fails it moves the old target back.
-/

open Lib

namespace Palworld.Deploy

/-! ## The block -/

/-- The target, and the names beside it that `mkdtemp` and the time stamp give. -/
structure Names where
  parent : Loc
  name : Text
  stageName : Text
  tombstoneName : Text
  stage_ne : name ≠ stageName
  tombstone_ne : name ≠ tombstoneName
  stage_ne_tombstone : stageName ≠ tombstoneName

namespace Names

variable (names : Names)

def target : Loc := names.parent ++ [names.name]

def stage : Loc := names.parent ++ [names.stageName]

def tombstone : Loc := names.parent ++ [names.tombstoneName]

end Names

/-- The tree before the block. The target is a directory or absent, the two names are new, and the parents of the target can be made. -/
structure Site (α : Type) extends Names where
  before : Dirs α
  target_dir : before toNames.target = none ∨ Dirs.isDir (before toNames.target) = true
  stage_new : ∀ l, before (toNames.stage ++ l) = none
  tombstone_new : ∀ l, before (toNames.tombstone ++ l) = none
  parents : ∀ l, l <+: parent → before l = none ∨ Dirs.isDir (before l) = true

/-- What leaves the block. -/
inductive BlockRaise (ε : Type)
  | body (err : ε)
  | runtimeError
  | osError

/-- What a body does: it writes at and below the stage, may call `commit` itself, and may raise. -/
structure Body (ε α : Type) (names : Names) where
  writes : Dirs α → Dirs α
  commits : Bool
  error : Option ε
  inside : ∀ t l, ¬names.stage <+: l → writes t l = t l

section

variable {ε α : Type} (names : Names)

/-- `commit`. The renames are counted from zero, and one of them may fail. -/
def commitStage (failing : Option Nat) (t : Dirs α) : Option (BlockRaise ε) × Dirs α :=
  if t names.stage = none then (some .runtimeError, t)
  else if t names.target = none then
    match t.rename (failing ≠ some 0) names.stage names.target with
    | some t => (none, t)
    | none => (some .osError, t)
  else
    match t.rename (failing ≠ some 0) names.target names.tombstone with
    | none => (some .osError, t)
    | some t =>
      match t.rename (failing ≠ some 1) names.stage names.target with
      | some t => (none, t.without names.tombstone)
      | none =>
        match t.rename (failing ≠ some 2) names.tombstone names.target with
        | some t => (some .osError, t)
        | none => (some .osError, t)

/-- `cleanup` of what has not been committed. -/
def cleanupStage (t : Dirs α) : Dirs α := t.without names.stage

end

section

variable {ε α : Type} (site : Site α) (failing : Option Nat) (body : Body ε α site.toNames)

/-- `__enter__`. -/
def entered : Dirs α := fun l => if l = site.stage then some .dir else site.before.made site.parent site.parent.length l

/-- What the body leaves. -/
def staged : Dirs α := body.writes (entered site)

/-- The block: `__enter__`, the body and `__exit__`, with the exception that leaves it. -/
def block : Option (BlockRaise ε) × Dirs α :=
  if body.commits then
    match commitStage site.toNames failing (staged site body) with
    | (some err, t) => (some err, cleanupStage site.toNames t)
    | (none, t) => (body.error.map .body, t)
  else
    match body.error with
    | some err => (some (.body err), cleanupStage site.toNames (staged site body))
    | none => commitStage site.toNames failing (staged site body)

/-- The body or the commit failed. -/
def Failed : Prop :=
  body.error ≠ none ∨
    (body.commits = true ∨ body.error = none) ∧ (commitStage (ε := ε) site.toNames failing (staged site body)).1 ≠ none

/-- The target is the old tree or the new one, an exception leaves the block exactly where something failed, and then nothing is left
beside the target. -/
structure AllOrNothing : Prop where
  whole : (∀ l, (block site failing body).2 (site.target ++ l) = site.before (site.target ++ l)) ∨
    ∀ l, (block site failing body).2 (site.target ++ l) = staged site body (site.stage ++ l)
  raises : (block site failing body).1 ≠ none ↔ Failed site failing body
  clean : (block site failing body).1 ≠ none →
    (block site failing body).2 site.stage = none ∧ (block site failing body).2 site.tombstone = none

/-- No rename of the commit in `__exit__` fails. -/
def CommitsCleanly : Prop :=
  body.commits = false → body.error = none → staged site body site.stage ≠ none →
    failing ≠ some 0 ∧ (site.before site.target ≠ none → failing ≠ some 1)

end

/-! ## The commit -/

namespace Names

variable (names : Names)

theorem target_stage : Unrelated names.target names.stage := unrelated_siblings names.stage_ne

theorem target_tombstone : Unrelated names.target names.tombstone := unrelated_siblings names.tombstone_ne

theorem stage_tombstone : Unrelated names.stage names.tombstone := unrelated_siblings names.stage_ne_tombstone

end Names

/-- A tree in which the commit can work: the parent is a directory, and nothing stands where the old target goes. -/
structure Ready {α : Type} (names : Names) (t : Dirs α) : Prop where
  parent : Dirs.isDir (t names.parent) = true
  tombstone : ∀ l, t (names.tombstone ++ l) = none

section

variable {ε α : Type} {names : Names} {failing : Option Nat} {t : Dirs α}

theorem Ready.tombstone_root (hready : Ready names t) : t names.tombstone = none := by
  simpa using hready.tombstone []

/-- What a commit does: it takes the stage for the target and leaves nothing behind, or it leaves the tree as it was. -/
structure CommitSpec (names : Names) (failing : Option Nat) (t : Dirs α) (result : Option (BlockRaise ε) × Dirs α) : Prop where
  fails : result.1 = none ↔ t names.stage ≠ none ∧ failing ≠ some 0 ∧ (t names.target ≠ none → failing ≠ some 1)
  done : result.1 = none → (∀ l, result.2 (names.target ++ l) = t (names.stage ++ l)) ∧
    result.2 names.stage = none ∧ result.2 names.tombstone = none
  undone : result.1 ≠ none → (∀ l, result.2 (names.target ++ l) = t (names.target ++ l)) ∧
    result.2 names.stage = t names.stage ∧ result.2 names.tombstone = none

theorem unchanged_spec {err : BlockRaise ε} (hready : Ready names t)
    (hfails : ¬(t names.stage ≠ none ∧ failing ≠ some 0 ∧ (t names.target ≠ none → failing ≠ some 1))) :
    CommitSpec names failing t (some err, t) :=
  ⟨iff_of_false (by simp) hfails, by simp, fun _ => ⟨fun _ => rfl, rfl, hready.tombstone_root⟩⟩

theorem Ready.rename_target (hready : Ready names t) {src : Loc} (hsrc : t src ≠ none) (htarget : t names.target = none)
    (hapart : Unrelated src names.target) : t.rename true src names.target = some (t.moved src names.target) := by
  refine Dirs.rename_of rfl (by rw [htarget]; exact Dirs.takes_none hsrc) hapart.1 ?_
  rw [Names.target, List.dropLast_concat]
  exact hready.parent

/-- The old target, moved aside. -/
theorem Ready.aside (hready : Ready names t) (htarget : t names.target ≠ none) : ∃ t₁, t.rename true names.target names.tombstone = some t₁ ∧
    Dirs.isDir (t₁ names.parent) = true ∧ (∀ l, t₁ (names.tombstone ++ l) = t (names.target ++ l)) ∧
    (∀ l, t₁ (names.target ++ l) = none) ∧ ∀ l, t₁ (names.stage ++ l) = t (names.stage ++ l) := by
  refine ⟨t.moved names.target names.tombstone, ?_, ?_, ?_, ?_, ?_⟩
  · refine Dirs.rename_of rfl (by rw [hready.tombstone_root]; exact Dirs.takes_none htarget) names.target_tombstone.1 ?_
    rw [Names.tombstone, List.dropLast_concat]
    exact hready.parent
  · rw [Dirs.moved_of_not]
    · exact hready.parent
    · simpa [Names.tombstone] using not_below_parent names.parent names.tombstoneName []
    · simpa [Names.target] using not_below_parent names.parent names.name []
  · intro l
    exact Dirs.moved_dst l
  · intro l
    exact Dirs.moved_src (names.target_tombstone.symm.append l)
  · intro l
    exact Dirs.moved_of_not (names.stage_tombstone.symm.append l) (names.target_stage.append l)

theorem commitStage_spec (hready : Ready names t) : CommitSpec names failing t (commitStage (ε := ε) names failing t) := by
  unfold commitStage
  by_cases hstage : t names.stage = none
  · rw [if_pos hstage]
    exact unchanged_spec hready fun h => h.1 hstage
  rw [if_neg hstage]
  by_cases hfirst : failing = some 0
  · -- the first rename fails
    subst hfirst
    have hrefused : ∀ src dst, t.rename (some 0 ≠ some 0) src dst = none := by simp [Dirs.rename_refused]
    rw [hrefused, hrefused]
    split
    · exact unchanged_spec hready fun h => h.2.1 rfl
    · exact unchanged_spec hready fun h => h.2.1 rfl
  have hlets : decide (failing ≠ some 0) = true := by simpa using hfirst
  rw [hlets]
  by_cases htarget : t names.target = none
  · -- there is no old target
    rw [if_pos htarget, hready.rename_target hstage htarget names.target_stage.symm]
    refine ⟨iff_of_true rfl ⟨hstage, hfirst, fun h => absurd htarget h⟩, fun _ => ⟨?_, ?_, ?_⟩, fun h => absurd rfl h⟩
    · intro l
      exact Dirs.moved_dst l
    · exact Dirs.moved_src_self names.target_stage.1
    · exact (Dirs.moved_of_not names.target_tombstone.1 names.stage_tombstone.1).trans hready.tombstone_root
  rw [if_neg htarget]
  obtain ⟨t₁, haside, hparent, htombstone₁, htarget₁, hstage₁⟩ := hready.aside htarget
  rw [haside]
  have hfree : t₁ names.target = none := by simpa using htarget₁ []
  have hkept : t₁ names.stage = t names.stage := by simpa using hstage₁ []
  have hold : t₁ names.tombstone = t names.target := by simpa using htombstone₁ []
  have hdir : Dirs.isDir (t₁ names.target.dropLast) = true := by
    rw [Names.target, List.dropLast_concat]
    exact hparent
  by_cases hsecond : failing = some 1
  · -- the second rename fails, and the old target is moved back
    subst hsecond
    have hback : t₁.rename (some 1 ≠ some 2) names.tombstone names.target = some (t₁.moved names.tombstone names.target) :=
      Dirs.rename_of (by decide) (by rw [hfree, hold]; exact Dirs.takes_none htarget) names.target_tombstone.symm.1 hdir
    have hrefused : t₁.rename (some 1 ≠ some 1) names.stage names.target = none := by simp [Dirs.rename_refused]
    dsimp only
    rw [hrefused, hback]
    refine ⟨iff_of_false (by simp) fun h => h.2.2 htarget rfl, by simp, fun _ => ⟨?_, ?_, ?_⟩⟩
    · intro l
      exact (Dirs.moved_dst l).trans (htombstone₁ l)
    · exact (Dirs.moved_of_not names.target_stage.1 names.stage_tombstone.symm.1).trans hkept
    · exact Dirs.moved_src_self names.target_tombstone.1
  · have hswap : t₁.rename (failing ≠ some 1) names.stage names.target = some (t₁.moved names.stage names.target) :=
      Dirs.rename_of (by simpa using hsecond) (by rw [hfree, hkept]; exact Dirs.takes_none hstage) names.target_stage.symm.1 hdir
    dsimp only
    rw [hswap]
    refine ⟨iff_of_true rfl ⟨hstage, hfirst, fun _ => hsecond⟩, fun _ => ⟨?_, ?_, ?_⟩, fun h => absurd rfl h⟩
    · intro l
      dsimp only
      rw [Dirs.without_of_not (names.target_tombstone.symm.append l), Dirs.moved_dst, hstage₁]
    · exact (Dirs.without_of_not names.stage_tombstone.2).trans (Dirs.moved_src_self names.target_stage.1)
    · exact Dirs.without_root

end

/-! ## The block -/

section

variable {ε α : Type} {site : Site α} {failing : Option Nat} {body : Body ε α site.toNames}

/-- The body leaves everything beside the stage as it was before the block. -/
theorem staged_beside {l : Loc} (hstage : ¬site.stage <+: l) (hparent : ¬l <+: site.parent) : staged site body l = site.before l := by
  have hne : l ≠ site.stage := by
    rintro rfl
    exact hstage (List.prefix_refl _)
  rw [staged, body.inside _ _ hstage, entered, if_neg hne, Dirs.made_of_not hparent]

theorem staged_target (site : Site α) (body : Body ε α site.toNames) (l : Loc) : staged site body (site.target ++ l) = site.before (site.target ++ l) :=
  staged_beside (site.target_stage.symm.append l) (not_below_parent _ _ l)

theorem staged_tombstone (l : Loc) : staged site body (site.tombstone ++ l) = none := by
  rw [staged_beside (site.stage_tombstone.append l) (not_below_parent _ _ l), site.tombstone_new]

theorem ready_staged : Ready site.toNames (staged site body) := by
  refine ⟨?_, staged_tombstone⟩
  have hstage : ¬site.stage <+: site.parent := by
    simpa [Names.stage] using not_below_parent site.parent site.stageName []
  have hne : site.parent ≠ site.stage := fun h => hstage (h ▸ List.prefix_refl _)
  rw [staged, body.inside _ _ hstage, entered, if_neg hne]
  rcases site.parents site.parent (List.prefix_refl _) with hnone | hdir
  · simp [Dirs.made, hnone, Dirs.isDir]
  · have hsome : site.before site.parent ≠ none := by
      intro h
      rw [h] at hdir
      cases hdir
    rwa [Dirs.made_of_some hsome]

/-- What has not been committed is cleaned up. -/
theorem cleanup_spec {t : Dirs α} (htarget : ∀ l, t (site.target ++ l) = site.before (site.target ++ l))
    (htombstone : t site.tombstone = none) :
    (∀ l, cleanupStage site.toNames t (site.target ++ l) = site.before (site.target ++ l)) ∧
      cleanupStage site.toNames t site.stage = none ∧ cleanupStage site.toNames t site.tombstone = none := by
  refine ⟨fun l => ?_, Dirs.without_root, ?_⟩
  · rw [cleanupStage, Dirs.without_of_not (site.target_stage.symm.append l), htarget]
  · rw [cleanupStage, Dirs.without_of_not site.stage_tombstone.1, htombstone]

theorem staged_commit (site : Site α) (failing : Option Nat) (body : Body ε α site.toNames) : CommitSpec site.toNames failing (staged site body) (commitStage (ε := ε) site.toNames failing (staged site body)) :=
  commitStage_spec ready_staged

/-- A body that raises before any commit: the stage is cleaned up. -/
theorem allOrNothing_error {err : ε} (hcommits : body.commits = false) (herror : body.error = some err) : AllOrNothing site failing body := by
  have hblock : block site failing body = (some (.body err), cleanupStage site.toNames (staged site body)) := by
    simp [block, hcommits, herror]
  obtain ⟨htarget, hstage, htombstone⟩ := cleanup_spec (staged_target site body) ready_staged.tombstone_root
  refine ⟨?_, ?_, ?_⟩
  · rw [hblock]
    exact .inl htarget
  · rw [hblock]
    exact iff_of_true (by simp) (.inl (by simp [herror]))
  · rw [hblock]
    exact fun _ => ⟨hstage, htombstone⟩

/-- A body that calls `commit` itself: what the commit raises reaches `__exit__`, which cleans up. -/
theorem allOrNothing_commits (hcommits : body.commits = true) : AllOrNothing site failing body := by
  have hspec := staged_commit site failing body
  rcases hcommit : commitStage (ε := ε) site.toNames failing (staged site body) with ⟨_ | err, t⟩
  · -- the commit went through
    rw [hcommit] at hspec
    obtain ⟨hnew, hstage, htombstone⟩ := hspec.done rfl
    have hblock : block site failing body = (body.error.map .body, t) := by
      simp [block, hcommits, hcommit]
    refine ⟨?_, ?_, ?_⟩
    · rw [hblock]
      exact .inr hnew
    · simp [hblock, Failed, hcommit]
    · rw [hblock]
      exact fun _ => ⟨hstage, htombstone⟩
  · rw [hcommit] at hspec
    obtain ⟨hold, _, hnone⟩ := hspec.undone (by simp)
    have hblock : block site failing body = (some err, cleanupStage site.toNames t) := by
      simp [block, hcommits, hcommit]
    obtain ⟨htarget, hstage, htombstone⟩ := cleanup_spec (fun l => (hold l).trans (staged_target site body l)) hnone
    refine ⟨?_, ?_, ?_⟩
    · rw [hblock]
      exact .inl htarget
    · simp [hblock, Failed, hcommit, hcommits]
    · rw [hblock]
      exact fun _ => ⟨hstage, htombstone⟩

/-- A body that leaves the commit to `__exit__`, which does not clean up after it. -/
theorem allOrNothing_exit (hcommits : body.commits = false) (herror : body.error = none) :
    AllOrNothing site failing body ↔
      ((commitStage (ε := ε) site.toNames failing (staged site body)).1 ≠ none → staged site body site.stage = none) := by
  have hspec := staged_commit site failing body
  have hblock : block site failing body = commitStage site.toNames failing (staged site body) := by
    simp [block, hcommits, herror]
  constructor
  · intro h hraises
    have hstage := (h.clean (by rwa [hblock])).1
    rwa [hblock, (hspec.undone hraises).2.1] at hstage
  · intro hgone
    refine ⟨?_, ?_, ?_⟩
    · rw [hblock]
      by_cases hraises : (commitStage (ε := ε) site.toNames failing (staged site body)).1 = none
      · exact .inr (hspec.done hraises).1
      · exact .inl fun l => ((hspec.undone hraises).1 l).trans (staged_target site body l)
    · simp [hblock, Failed, herror]
    · rw [hblock]
      intro hraises
      obtain ⟨_, hstage, htombstone⟩ := hspec.undone hraises
      exact ⟨hstage.trans (hgone hraises), htombstone⟩

/-- **Staging.** A block is all or nothing and leaves no litter exactly where no rename of the commit in `__exit__` fails. -/
theorem allOrNothing_iff (site : Site α) (failing : Option Nat) (body : Body ε α site.toNames) :
    AllOrNothing site failing body ↔ CommitsCleanly site failing body := by
  cases hcommits : body.commits with
  | true => exact iff_of_true (allOrNothing_commits hcommits) (by simp [CommitsCleanly, hcommits])
  | false =>
    cases herror : body.error with
    | some err => exact iff_of_true (allOrNothing_error hcommits herror) (by simp [CommitsCleanly, herror])
    | none =>
      have hfails := (staged_commit site failing body).fails
      have htarget : staged site body site.target = site.before site.target := by
        simpa using staged_target site body []
      rw [allOrNothing_exit hcommits herror, Ne, hfails, htarget]
      unfold CommitsCleanly
      tauto

end

/-! ## A refused rename -/

def savedNames : Names where
  parent := ["srv".toList]
  name := "Saved".toList
  stageName := ".tmp_stage_a1".toList
  tombstoneName := "Saved.old.20250101_000000_000000".toList
  stage_ne := by decide
  tombstone_ne := by decide
  stage_ne_tombstone := by decide

/-- Nothing is there yet. -/
def emptySite : Site Text where
  toNames := savedNames
  before := fun _ => none
  target_dir := .inl rfl
  stage_new := fun _ => rfl
  tombstone_new := fun _ => rfl
  parents := fun _ _ => .inl rfl

/-- A body that writes nothing. -/
def idleBody : Body Text Text savedNames where
  writes := id
  commits := false
  error := none
  inside := fun _ _ _ => rfl

/-- The stage whose rename is refused is still there after the block. -/
theorem refused_rename_litters : ¬AllOrNothing emptySite (some 0) idleBody := by
  intro h
  have hstage := (h.clean (by decide)).1
  revert hstage
  decide

end Palworld.Deploy

import Palworld.Deploy.Archive

/-!
# The staging of a release

`stage_release_package` extracts an archive into a stage beside the target. The stage takes the
place of the target at the end, or it is removed.
-/

open Lib

namespace Palworld.Deploy

inductive DeployError
  | fileNotFound
  | valueError
  | rejected (why : Rejection)
  | runtimeError
  | tar (err : TarError)
  deriving DecidableEq

/-- What `tarfile` finds at the path. -/
inductive Tarball
  | missing
  | notRegular
  | corrupt                       -- `ReadError` or `CompressionError`
  | members (archive : List TarInfo)

section

variable {ε : Type}

/-! ## The staging context -/

/-- `mkdir(parents=True, exist_ok=True)` of a resolved path, from a directory that is there. -/
def mkdirParents : Loc → List Text → Fs ε Unit
  | _, [] => return
  | loc, c :: path => do
    let t ← get
    if t.node (loc ++ [c]) = some .dir then mkdirParents (loc ++ [c]) path
    else
      create (loc ++ [c]) .dir dir_ne_file
      mkdirParents (loc ++ [c]) path

def stageDir (target : Loc) (stageName : Text) : Loc := target.dropLast ++ [stageName]

/-- `__enter__`. The name is the one that `mkdtemp` settles on. -/
def enterStage (target : Loc) (stageName : Text) : Fs ε Unit := do
  mkdirParents [] target.dropLast
  create (stageDir target stageName) .dir dir_ne_file

/-- `shutil.rmtree`. -/
def rmtree (loc : Loc) : Fs ε Unit := do
  let t ← get
  set (t.removeAll loc)

/-- `os.replace` onto a name that is free. -/
def replace (src dst : Loc) : Fs ε Unit := do
  let t ← get
  if h : t.Movable src dst then set (t.move src dst h) else throw .osError

def cleanup (stage : Loc) : Fs ε Unit := do
  let t ← get
  if t.node stage = none then return else rmtree stage

/-- `commit`. The old target is moved aside and removed afterwards, or moved back. -/
def commit (stage target tombstone : Loc) : Fs DeployError Unit := do
  let t ← get
  if t.node stage = none then throw (.other .runtimeError)
  else if t.node target = none then replace stage target
  else
    replace target tombstone
    tryCatch (replace stage target) fun err => do
      tryCatch (replace tombstone target) fun _ => return
      throw err
    rmtree tombstone

/-- The body of the context, and its commit or its cleanup. -/
def withStage (target : Loc) (stageName tombstoneName : Text) (body : Loc → Fs DeployError Unit) : Fs DeployError Unit := do
  enterStage target stageName
  tryCatch (body (stageDir target stageName)) fun err => do
    cleanup (stageDir target stageName)
    throw err
  commit (stageDir target stageName) target (target.dropLast ++ [tombstoneName])

end

/-! ## The package -/

def validateMembers (stage : Loc) : List TarInfo → Fs DeployError Unit
  | [] => return
  | member :: members => do
    let t ← get
    match validateTarMember t stage member with
    | .ok () => validateMembers stage members
    | .error why => throw (.other (.rejected why))

def liftTar : Raised TarError → Raised DeployError
  | .fileExists => .fileExists
  | .osError => .osError
  | .other err => .other (.tar err)

def stageReleasePackage (lib : TarLibrary) (tarball : Tarball) (target : Loc) (stageName tombstoneName : Text) : Fs DeployError Loc :=
  match tarball with
  | .missing => throw (.other .fileNotFound)
  | .notRegular => throw (.other .valueError)
  | .corrupt => do
    withStage target stageName tombstoneName fun _ => throw (.other .valueError)
    return target
  | .members archive => do
    withStage target stageName tombstoneName fun stage => do
      validateMembers stage archive
      ExceptT.adapt liftTar (extractAll lib archive stage)
    return target

/-! ## A rejected member -/

/-- The tree differs in what has been created above the target only. -/
structure Above (top : Loc) (t₀ t : FileTree) : Prop where
  node : ∀ loc, ¬(loc ≠ [] ∧ loc <+: top) → t.node loc = t₀.node loc
  data : t.data = t₀.data

section

variable {ε : Type} {t t₀ : FileTree} {target loc stage : Loc} {stageName tombstoneName : Text} {archive : List TarInfo}

theorem keeps_mkdirParents {top : Loc} {path : List Text} (htop : loc ++ path <+: top) :
    Keeps (Above top t₀) (fun _ => True) (mkdirParents loc path : Fs ε Unit) := by
  induction path generalizing loc with
  | nil => exact keeps_pure trivial
  | cons c path ih =>
    have hrest : loc ++ [c] ++ path <+: top := by
      rw [List.append_assoc]
      exact htop
    have hcreate : Keeps (Above top t₀) (fun _ => True) (create (loc ++ [c]) .dir dir_ne_file : Fs ε Unit) := by
      refine keeps_get.bind fun t ht => ?_
      split
      · rename_i hfree
        refine keeps_set ⟨fun l hl => ?_, ht.data⟩
        have hne : l ≠ loc ++ [c] := by
          rintro rfl
          exact hl ⟨by simp, (List.prefix_append _ path).trans hrest⟩
        exact (FileTree.node_put_of_ne _ _ _ hne).trans (ht.node l hl)
      · exact keeps_throw
    refine keeps_get.bind fun t ht => ?_
    split
    · exact ih hrest
    · exact hcreate.bind fun _ _ => ih hrest

/-- Under a name that is free there is nothing. -/
theorem nothing_below (h : t.node loc = none) {l : Loc} (hl : loc <+: l) : t.node l = none := by
  obtain ⟨rest, rfl⟩ := hl
  induction rest using List.reverseRecOn with
  | nil => rwa [List.append_nil]
  | append_singleton rest c ih =>
    by_contra hnode
    rw [← List.append_assoc] at hnode
    have hdir := t.closed _ c hnode
    rw [ih] at hdir
    cases hdir

theorem on_create {n : Node} (hn : ∀ i, n ≠ .file i) (t : FileTree) : (create loc n hn : Fs ε Unit).on t =
    if hfree : t.Free loc then (.ok (), t.put loc n hfree fun i h => absurd h (hn i))
    else (.error (if (t.node loc).isSome then .fileExists else .osError), t) := by
  have hrun : (create loc n hn : Fs ε Unit).on t =
      (if hfree : t.Free loc then set (t.put loc n hfree fun i h => absurd h (hn i))
      else throw (if (t.node loc).isSome then .fileExists else .osError) : Fs ε Unit).on t := rfl
  rw [hrun]
  split
  · rfl
  · rfl

/-- The stage is entered as a directory, or an error leaves what has been created above it. -/
theorem enterStage_cases (t : FileTree) (target : Loc) (stageName : Text) : ∃ t₁, Above target.dropLast t t₁ ∧
    ((∃ err, (enterStage target stageName : Fs ε Unit).on t = (.error err, t₁)) ∨
      ∃ hfree : t₁.Free (stageDir target stageName), (enterStage target stageName : Fs ε Unit).on t = (.ok (), t₁.put _ .dir hfree nofun)) := by
  have hkeeps : Keeps (Above target.dropLast t) (fun _ => True) (mkdirParents [] target.dropLast : Fs ε Unit) :=
    keeps_mkdirParents (List.prefix_refl _)
  have hparents := (hkeeps t ⟨fun _ _ => rfl, rfl⟩).1
  unfold enterStage
  rw [on_bind]
  rcases hrun : (mkdirParents [] target.dropLast : Fs ε Unit).on t with ⟨result, t₁⟩
  rw [hrun] at hparents
  refine ⟨t₁, hparents, ?_⟩
  cases result with
  | error err => exact .inl ⟨err, rfl⟩
  | ok _ =>
    dsimp only
    rw [on_create]
    by_cases hfree : t₁.Free (stageDir target stageName)
    · exact .inr ⟨hfree, dif_pos hfree⟩
    · exact .inl ⟨_, dif_neg hfree⟩

theorem on_validateMembers (member : TarInfo) (members : List TarInfo) : (validateMembers stage (member :: members)).on t =
    match validateTarMember t stage member with
    | .ok () => (validateMembers stage members).on t
    | .error why => (.error (.other (.rejected why)), t) := by
  have hget : (get : Fs DeployError FileTree).on t = (.ok t, t) := rfl
  rw [validateMembers, on_bind, hget]
  dsimp only
  cases validateTarMember t stage member with
  | ok _ => rfl
  | error why => rfl

theorem validateMembers_rejects (h : ∃ m ∈ archive, validateTarMember t stage m ≠ .ok ()) :
    ∃ err, (validateMembers stage archive).on t = (.error err, t) := by
  induction archive with
  | nil =>
    obtain ⟨m, hm, -⟩ := h
    cases hm
  | cons member members ih =>
    rw [on_validateMembers]
    cases hvalid : validateTarMember t stage member with
    | error why => exact ⟨_, rfl⟩
    | ok _ =>
      refine ih ?_
      obtain ⟨m, hm, hinvalid⟩ := h
      rcases List.mem_cons.mp hm with rfl | hm
      · exact absurd hvalid hinvalid
      · exact ⟨m, hm, hinvalid⟩

theorem on_cleanup (h : t.node stage ≠ none) : (cleanup stage : Fs ε Unit).on t = (.ok (), t.removeAll stage) := by
  have hrun : (cleanup stage : Fs ε Unit).on t = (if t.node stage = none then return else rmtree stage : Fs ε Unit).on t := rfl
  rw [hrun, if_neg h]
  rfl

/-- Where the body raises without having changed the stage, everything but the directories above the target is as it was. -/
theorem withStage_raises {body : Loc → Fs DeployError Unit}
    (hbody : ∀ t₁, (enterStage target stageName : Fs DeployError Unit).on t = (.ok (), t₁) →
      ∃ err, (body (stageDir target stageName)).on t₁ = (.error err, t₁)) :
    ∃ err t', (withStage target stageName tombstoneName body).on t = (.error err, t') ∧ Above target.dropLast t t' := by
  obtain ⟨t₁, habove, ⟨err, henter⟩ | ⟨hfree, henter⟩⟩ := (enterStage_cases t target stageName :
    ∃ t₁, _ ∧ ((∃ err, (enterStage target stageName : Fs DeployError Unit).on t = (.error err, t₁)) ∨ _))
  · refine ⟨err, t₁, ?_, habove⟩
    unfold withStage
    rw [on_bind, henter]
  · obtain ⟨err, hraises⟩ := hbody _ henter
    refine ⟨err, (t₁.put _ .dir hfree nofun).removeAll (stageDir target stageName), ?_, ?_, habove.data⟩
    · unfold withStage
      rw [on_bind, henter]
      dsimp only
      rw [on_bind, on_tryCatch, hraises]
      dsimp only
      rw [on_bind, on_cleanup (by rw [FileTree.node_put_self]; exact nofun)]
      rfl
    · intro loc hloc
      have hnode : ((t₁.put _ .dir hfree nofun).removeAll (stageDir target stageName)).node loc =
          if stageDir target stageName <+: loc then none else (t₁.put _ .dir hfree nofun).node loc := rfl
      rw [hnode]
      split
      · rename_i hin
        rw [← habove.node loc hloc]
        exact (nothing_below hfree.missing hin).symm
      · rename_i hout
        have hne : loc ≠ stageDir target stageName := by
          rintro rfl
          exact hout (List.prefix_refl _)
        rw [FileTree.node_put_of_ne _ _ _ hne]
        exact habove.node loc hloc

theorem not_above_target (h : target <+: loc) : ¬(loc ≠ [] ∧ loc <+: target.dropLast) := by
  rintro ⟨hne, habove⟩
  have hlen := h.length_le
  have hlen' := habove.length_le
  have hpos := List.length_pos_of_ne_nil hne
  rw [List.length_dropLast] at hlen'
  omega

/-- The stage that is entered is empty. -/
theorem emptyStage_of_enterStage {t₁ : FileTree} (h : (enterStage target stageName : Fs ε Unit).on t = (.ok (), t₁)) :
    EmptyStage (stageDir target stageName) t₁ := by
  obtain ⟨t', -, ⟨err, henter⟩ | ⟨hfree, henter⟩⟩ := (enterStage_cases t target stageName :
    ∃ t₁, _ ∧ ((∃ err, (enterStage target stageName : Fs ε Unit).on t = (.error err, t₁)) ∨ _))
  · rw [henter] at h
    cases h
  · rw [henter] at h
    cases h
    refine ⟨FileTree.node_put_self .., fun loc hin hne => ?_⟩
    rw [FileTree.node_put_of_ne _ _ _ hne]
    exact nothing_below hfree.missing hin

/-- What is extracted into the stage that `stage_release_package` has entered and validated stays in it. -/
theorem staged_within {lib : TarLibrary} {t₁ : FileTree} (henter : (enterStage target stageName : Fs DeployError Unit).on t = (.ok (), t₁))
    (hvalid : ∀ m ∈ archive, validateTarMember t₁ (stageDir target stageName) m = .ok ()) :
    Within (stageDir target stageName) t₁ ((extractAll lib archive (stageDir target stageName)).on t₁).2 :=
  within_extractAll (emptyStage_of_enterStage henter) hvalid

/-- An archive whose members all pass the validation against an empty stage only touches what is in the stage. For an archive with
a member that does not pass, `stage_release_package` raises, and the target is what it was. -/
theorem safe_extraction :
    (∀ (lib : TarLibrary) (t : FileTree) (root : Loc) (archive : List TarInfo), EmptyStage root t →
      (∀ m ∈ archive, validateTarMember t root m = .ok ()) → Within root t ((extractAll lib archive root).on t).2) ∧
    (∀ (lib : TarLibrary) (t : FileTree) (target : Loc) (stageName tombstoneName : Text) (archive : List TarInfo),
      (∀ t₁, (enterStage target stageName : Fs DeployError Unit).on t = (.ok (), t₁) →
        ∃ m ∈ archive, validateTarMember t₁ (stageDir target stageName) m ≠ .ok ()) →
      ∃ err t', (stageReleasePackage lib (.members archive) target stageName tombstoneName).on t = (.error err, t') ∧
        t'.data = t.data ∧ ∀ loc, target <+: loc → t'.node loc = t.node loc) := by
  constructor
  · intro lib t root archive hstage hvalid
    exact within_extractAll hstage hvalid
  · intro lib t target stageName tombstoneName archive hrejected
    have hbody : ∀ t₁, (enterStage target stageName : Fs DeployError Unit).on t = (.ok (), t₁) →
        ∃ err, ((do
          validateMembers (stageDir target stageName) archive
          ExceptT.adapt liftTar (extractAll lib archive (stageDir target stageName))) : Fs DeployError Unit).on t₁ = (.error err, t₁) := by
      intro t₁ henter
      obtain ⟨err, hraises⟩ := validateMembers_rejects (hrejected t₁ henter)
      exact ⟨err, by rw [on_bind, hraises]⟩
    have hraises : ∃ err t', (withStage target stageName tombstoneName fun stage => do
        validateMembers stage archive
        ExceptT.adapt liftTar (extractAll lib archive stage)).on t = (.error err, t') ∧ Above target.dropLast t t' := withStage_raises hbody
    obtain ⟨err, t', hrun, habove⟩ := hraises
    refine ⟨err, t', ?_, habove.data, fun loc hloc => habove.node loc (not_above_target hloc)⟩
    unfold stageReleasePackage
    dsimp only
    rw [on_bind, hrun]

end

/-! ## An archive with a link and an archive that goes up -/

/-- A host with an empty stage. -/
def sampleTree : FileTree where
  node loc := if loc <+: [lit "srv", lit "stage"] then some .dir else none
  data _ := []
  next := 0
  touched := []
  fresh loc i h := by
    split at h
    · cases h
    · cases h
  closed loc c h := by
    split at h
    · rename_i hin
      exact if_pos ((List.prefix_append ..).trans hin)
    · exact absurd rfl h

def linkedArchive : List TarInfo :=
  [⟨lit "app", .directory, []⟩, ⟨lit "current", .symlink, lit "app"⟩, ⟨lit "current/main.py", .file [1, 2], []⟩]

def climbingArchive : List TarInfo := [⟨lit "main.py", .file [1, 2], []⟩, ⟨lit "../evil.txt", .file [3], []⟩]

def sampleLibrary : TarLibrary := ⟨none, false, 100⟩

theorem safe_extraction_sample :
    Within [lit "srv", lit "stage"] sampleTree ((extractAll sampleLibrary linkedArchive [lit "srv", lit "stage"]).on sampleTree).2 ∧
    ∃ err t', (stageReleasePackage sampleLibrary (.members climbingArchive) [lit "srv", lit "app"] (lit "stage2") (lit "old")).on sampleTree =
      (.error err, t') ∧ t'.data = sampleTree.data ∧ ∀ loc, [lit "srv", lit "app"] <+: loc → t'.node loc = sampleTree.node loc := by
  have hstage : EmptyStage [lit "srv", lit "stage"] sampleTree := by
    have hnode (loc : Loc) : sampleTree.node loc = if loc <+: [lit "srv", lit "stage"] then some .dir else none := rfl
    refine ⟨by rw [hnode, if_pos (List.prefix_refl _)], fun loc hin hne => ?_⟩
    rw [hnode, if_neg fun hout => hne (hout.eq_of_length_le hin.length_le)]
  have hvalid : ∀ m ∈ linkedArchive, validateTarMember sampleTree [lit "srv", lit "stage"] m = .ok () := by
    unfold linkedArchive
    rw [List.forall_mem_cons, List.forall_mem_cons, List.forall_mem_singleton]
    exact ⟨rfl, rfl, rfl⟩
  refine ⟨safe_extraction.1 _ _ _ _ hstage hvalid, safe_extraction.2 _ _ _ _ _ _ fun t₁ _ => ?_⟩
  exact ⟨⟨lit "../evil.txt", .file [3], []⟩, List.mem_cons_of_mem _ (List.mem_singleton_self _), nofun⟩

end Palworld.Deploy

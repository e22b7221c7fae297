import Palworld.Lib.FileTree
import Mathlib.Data.List.DropRight

/-!
# The members of a release archive

`_validate_tar_member` looks at each member on its own, before anything is extracted. The
extraction then follows the links that earlier members have left. No link can lead out of the
stage, since each leads downwards from where it is.
-/

open Lib

namespace Palworld.Deploy

inductive MemberKind
  | file (content : Bytes)
  | directory
  | symlink
  | hardlink
  deriving DecidableEq

structure TarInfo where
  name : Text
  kind : MemberKind
  linkname : Text
  deriving DecidableEq

/-! ## The validation -/

/-- Why a member is rejected. A path with a null character is no `SecurityError` but a `ValueError`. -/
inductive Rejection
  | absolute
  | traversal
  | resolution
  | escape
  | absoluteLink
  | linkTraversal
  | linkResolution
  | linkEscape
  | nullCharacter
  deriving DecidableEq

/-- `path.parts` of a relative path. -/
def pathParts (path : Text) : List Text := (components path).filter fun c => c ≠ [] ∧ c ≠ here

/-- `path.resolve()` of a path from a place that is resolved. What is missing is taken as it stands. -/
def resolveScan (t : FileTree) (followLink : Loc → List Text → Option Loc) : Loc → List Text → Option Loc
  | loc, [] => some loc
  | loc, c :: path =>
    if c = [] ∨ c = here then resolveScan t followLink loc path
    else if c = above then resolveScan t followLink loc.dropLast path
    else
      match t.node (loc ++ [c]) with
      | some (.link target) => followLink (if isAbsolute target then [] else loc) (components target ++ path)
      | _ => resolveScan t followLink (loc ++ [c]) path

/-- A loop of links is an error. -/
def resolveLinks (t : FileTree) : Nat → Loc → List Text → Option Loc
  | 0 => resolveScan t fun _ _ => none
  | links + 1 => resolveScan t (resolveLinks t links)

def resolve (t : FileTree) (loc : Loc) (path : List Text) : Option Loc := resolveLinks t FileTree.maxLinks loc path

def startsRooted (path : Text) : Bool := path.head? = some '/' || path.head? = some '\\'

def validateLink (t : FileTree) (root resolvedTarget : Loc) (linkname : Text) : Except Rejection Unit :=
  if startsRooted linkname ∨ ':' ∈ linkname then .error .absoluteLink
  else if above ∈ pathParts linkname then .error .linkTraversal
  else if '\x00' ∈ linkname then .error .nullCharacter
  else
    match resolve t resolvedTarget.dropLast (pathParts linkname) with
    | none => .error .linkResolution
    | some resolvedLink => if root <+: resolvedLink then .ok () else .error .linkEscape

/-- `_validate_tar_member`. The root is resolved. -/
def validateTarMember (t : FileTree) (root : Loc) (member : TarInfo) : Except Rejection Unit :=
  if isAbsolute member.name ∨ startsRooted member.name ∨ ':' ∈ member.name then .error .absolute
  else if above ∈ pathParts member.name then .error .traversal
  else if '\x00' ∈ member.name then .error .nullCharacter
  else
    match resolve t root (pathParts member.name) with
    | none => .error .resolution
    | some resolvedTarget =>
      if root <+: resolvedTarget then
        if member.kind = .symlink ∨ member.kind = .hardlink then validateLink t root resolvedTarget member.linkname else .ok ()
      else .error .escape

/-! ## The extraction -/

inductive TarError
  | extractError
  | keyError
  | filterError
  | recursionError
  deriving DecidableEq

/-- The `tarfile` of the interpreter: the members that its data filter admits, where it has one, whether `os.link` follows a link at
its source, and the depth of its stack. What the filter rewrites of a validated member names the same places. -/
structure TarLibrary where
  dataFilter : Option (FileTree → TarInfo → Bool)
  linkFollows : Bool
  depth : Nat

def rstripSlashes (path : List Text) : List Text := path.rdropWhile (· = [])

/-- `os.path.join(root, path)`. An absolute path stands for itself. -/
def joined (root : Loc) (path : Text) : Loc × List Text := (if isAbsolute path then [] else root, rstripSlashes (components path))

def dirname (path : List Text) : List Text := rstripSlashes path.dropLast

/-- `os.makedirs`, with the last component first. -/
def makedirs {ε : Type} (base : Loc) : List Text → Fs ε Unit
  | [] => throw .fileExists
  | c :: up => do
    if c = [] then makedirs base up
    else if ← pathExists base (rstripSlashes up.reverse) true then mkdir base (c :: up).reverse
    else
      tryCatch (makedirs base up) fun err =>
        match err with
        | .fileExists => pure ()
        | err => throw err
      if c = here then return else mkdir base (c :: up).reverse

/-- `normpath`, where `..` takes back what is before it. -/
def normalParts (path : Text) : List Text :=
  (pathParts path).foldl (fun parts c => if c = above ∧ parts ≠ [] ∧ parts.getLast? ≠ some above then parts.dropLast else parts ++ [c]) []

def dirText (name : Text) : Text := ((name.reverse.dropWhile (· ≠ '/')).reverse)

/-- A member and its position in the archive. -/
abbrev Position := TarInfo × Nat

/-- `_find_link_target`: the last member with the name. For a hard link it comes before the link. -/
def findLinkTarget (archive : List TarInfo) (member : Position) : Option Position :=
  if member.1.kind = .symlink then
    archive.zipIdx.reverse.find? fun m => normalParts m.1.name = normalParts (dirText member.1.name ++ member.1.linkname)
  else (archive.zipIdx.take member.2).reverse.find? fun m => normalParts m.1.name = normalParts member.1.linkname

/-- `makedir`. -/
def makedir (base : Loc) (path : List Text) : Fs TarError Unit :=
  tryCatch (mkdir base path) fun err =>
    match err with
    | .fileExists => do if ← isDir base path then return else throw .fileExists
    | err => throw err

/-- What becomes of a link: an `OSError` may prevent it, and a hard link needs what it leads to. -/
inductive LinkOutcome
  | made
  | prevented
  | dangling

def LinkOutcome.unresolved : LinkOutcome → TarError
  | .made | .prevented => .extractError
  | .dangling => .keyError

def tryLink (lib : TarLibrary) (root : Loc) (member : TarInfo) (base : Loc) (path : List Text) : Fs TarError LinkOutcome :=
  tryCatch
    (do
      if member.kind = .symlink then
        if ← pathExists base path false then unlink base path
        symlink base path member.linkname
        return .made
      else
        let (source, sourcePath) := joined root member.linkname
        if ← pathExists source sourcePath true then
          hardLink base path lib.linkFollows source sourcePath
          return .made
        else return .dangling)
    fun err =>
      match err with
      | .other err => throw (.other err)
      | _ => return .prevented

/-- The directories above the path. -/
def makeUpperDirs (base : Loc) (path : List Text) : Fs TarError Unit := do
  if path = [] then return
  else if ← pathExists base (dirname path) true then return
  else makedirs base (dirname path).reverse

/-- `_extract_member`. Where a link cannot be made, the member that it names is extracted in its place. A hard link to what is
neither on the disk nor in the archive raises the `KeyError` of the search. -/
def extractMember (lib : TarLibrary) (archive : List TarInfo) (root : Loc) : Nat → Position → Loc → List Text → Fs TarError Unit
  | 0, _, _, _ => throw (.other .recursionError)
  | depth + 1, member, base, path => do
    makeUpperDirs base path
    match member.1.kind with
    | .file content => writeFile base path content
    | .directory => makedir base path
    | .symlink | .hardlink =>
      match ← tryLink lib root member.1 base path with
      | .made => return
      | outcome =>
        match findLinkTarget archive member with
        | none => throw (.other outcome.unresolved)
        | some found => extractMember lib archive root depth found base path

/-- `extractall`. A link that was prevented and is not resolved in the archive is passed over. Owners, times and modes are left out. -/
def extractMembers (lib : TarLibrary) (archive : List TarInfo) (root : Loc) : List Position → Fs TarError Unit
  | [] => return
  | member :: members => do
    let t ← get
    if (lib.dataFilter.all fun admits => admits t member.1) = false then throw (.other .filterError)
    else
      tryCatch (extractMember lib archive root lib.depth member (joined root member.1.name).1 (joined root member.1.name).2) fun err =>
        match err with
        | .other .extractError => return
        | err => throw err
      extractMembers lib archive root members

def extractAll (lib : TarLibrary) (archive : List TarInfo) (root : Loc) : Fs TarError Unit :=
  extractMembers lib archive root archive.zipIdx

/-! ## What a validated member can do -/

/-- The name of the member leads downwards, and so does its link. -/
structure Harmless (member : TarInfo) : Prop where
  name : Descends member.name
  link : member.kind = .symlink ∨ member.kind = .hardlink → Descends member.linkname

section

variable {t t₀ : FileTree} {root base resolvedTarget : Loc} {path : List Text} {name linkname : Text} {member : TarInfo}
  {archive : List TarInfo} {lib : TarLibrary}

theorem above_notMem_components (h : above ∉ pathParts name) : above ∉ components name := by
  intro hmem
  exact h (List.mem_filter.mpr ⟨hmem, by decide⟩)

theorem descends_of_validateLink (h : validateLink t root resolvedTarget linkname = .ok ()) : Descends linkname := by
  unfold validateLink at h
  split at h
  · cases h
  split at h
  · cases h
  rename_i hrooted habove
  rw [not_or, startsRooted, Bool.or_eq_true, not_or] at hrooted
  exact ⟨by simpa [isAbsolute] using hrooted.1.1, above_notMem_components habove⟩

/-- What the validation accepts is harmless, whatever the tree. -/
theorem harmless_of_validateTarMember (h : validateTarMember t root member = .ok ()) : Harmless member := by
  unfold validateTarMember at h
  split at h
  · cases h
  rename_i hrooted
  split at h
  · cases h
  rename_i habove
  split at h
  · cases h
  split at h
  · cases h
  split at h
  · rw [not_or] at hrooted
    refine ⟨⟨by simpa using hrooted.1, above_notMem_components habove⟩, fun hkind => ?_⟩
    rw [if_pos hkind] at h
    exact descends_of_validateLink h
  · cases h

theorem above_notMem_rstrip (h : above ∉ path) : above ∉ rstripSlashes path :=
  fun hmem => h ((List.rdropWhile_prefix _ path).subset hmem)

theorem above_notMem_dirname (h : above ∉ path) : above ∉ dirname path :=
  above_notMem_rstrip fun hmem => h ((List.dropLast_prefix path).subset hmem)

theorem joined_of_descends (h : Descends name) : (joined root name).1 = root ∧ above ∉ (joined root name).2 := by
  unfold joined
  rw [h.relative]
  exact ⟨rfl, above_notMem_rstrip h.down⟩

theorem stays_makedirs {ε : Type} (hbase : root <+: base) {up : List Text} (hup : above ∉ up) :
    Stays t₀ root (fun _ => True) (makedirs base up : Fs ε Unit) := by
  induction up with
  | nil => exact keeps_throw
  | cons c up ih =>
    have hrest : above ∉ up := fun hmem => hup (List.mem_cons_of_mem c hmem)
    have hmkdir : Stays t₀ root (fun _ => True) (mkdir base (c :: up).reverse : Fs ε Unit) :=
      stays_mkdir hbase (by rwa [List.mem_reverse])
    unfold makedirs
    split
    · exact ih hrest
    · refine stays_pathExists.bind fun found _ => ?_
      split
      · exact hmkdir
      · refine ((ih hrest).tryCatch fun err => ?_).bind fun _ _ => ?_
        · split
          · exact keeps_pure trivial
          · exact keeps_throw
        · split
          · exact keeps_pure trivial
          · exact hmkdir

theorem stays_makedir (hbase : root <+: base) (hpath : above ∉ path) : Stays t₀ root (fun _ => True) (makedir base path) := by
  refine (stays_mkdir hbase hpath).tryCatch fun err => ?_
  split
  · refine stays_isDir.bind fun found _ => ?_
    split
    · exact keeps_pure trivial
    · exact keeps_throw
  · exact keeps_throw

theorem stays_tryLink (hmember : Descends member.linkname) (hbase : root <+: base) (hpath : above ∉ path) :
    Stays t₀ root (fun _ => True) (tryLink lib root member base path) := by
  obtain ⟨hsource, hsourcePath⟩ := @joined_of_descends root _ hmember
  have hroot : root <+: (joined root member.linkname).1 := by rw [hsource]
  refine Keeps.tryCatch ?_ fun err => ?_
  · split
    · have hsymlink : Stays t₀ root (fun _ => True) (do symlink base path member.linkname; return .made : Fs TarError LinkOutcome) :=
        (stays_symlink hbase hpath hmember).bind fun _ _ => keeps_pure trivial
      refine stays_pathExists.bind fun found _ => ?_
      split
      · exact (stays_unlink hbase hpath).bind fun _ _ => hsymlink
      · exact hsymlink
    · refine stays_pathExists.bind fun found _ => ?_
      split
      · exact (stays_hardLink hbase hpath hroot hsourcePath).bind fun _ _ => keeps_pure trivial
      · exact keeps_pure trivial
  · split
    · exact keeps_throw
    · exact keeps_pure trivial

theorem mem_of_findLinkTarget {link found : Position} (h : findLinkTarget archive link = some found) : found.1 ∈ archive := by
  have hmem : found ∈ archive.zipIdx := by
    unfold findLinkTarget at h
    split at h
    · exact List.mem_reverse.mp (List.mem_of_find?_eq_some h)
    · exact (List.take_subset ..) (List.mem_reverse.mp (List.mem_of_find?_eq_some h))
  exact List.fst_mem_of_mem_zipIdx hmem

theorem stays_makeUpperDirs (hbase : root <+: base) (hpath : above ∉ path) : Stays t₀ root (fun _ => True) (makeUpperDirs base path) := by
  unfold makeUpperDirs
  split
  · exact keeps_pure trivial
  · refine stays_pathExists.bind fun found _ => ?_
    split
    · exact keeps_pure trivial
    · exact stays_makedirs hbase (by rw [List.mem_reverse]; exact above_notMem_dirname hpath)

/-- Whatever is extracted at a place under the root, a harmless archive only touches what is under the root. -/
theorem stays_extractMember (harchive : ∀ m ∈ archive, Harmless m) (hbase : root <+: base) (hpath : above ∉ path) {depth : Nat}
    {member : Position} (hmember : Harmless member.1) :
    Stays t₀ root (fun _ => True) (extractMember lib archive root depth member base path) := by
  induction depth generalizing member with
  | zero => exact keeps_throw
  | succ depth ih =>
    have hlink (hkind : member.1.kind = .symlink ∨ member.1.kind = .hardlink) : Stays t₀ root (fun _ => True) (do
        match ← tryLink lib root member.1 base path with
        | .made => return
        | outcome =>
          match findLinkTarget archive member with
          | none => throw (.other outcome.unresolved)
          | some found => extractMember lib archive root depth found base path) := by
      refine (stays_tryLink (hmember.link hkind) hbase hpath).bind fun outcome _ => ?_
      split
      · exact keeps_pure trivial
      · split
        · exact keeps_throw
        · rename_i found hfound
          exact ih (harchive found.1 (mem_of_findLinkTarget hfound))
    unfold extractMember
    refine (stays_makeUpperDirs hbase hpath).bind fun _ _ => ?_
    cases hkind : member.1.kind with
    | file content => exact stays_writeFile hbase hpath
    | directory => exact stays_makedir hbase hpath
    | symlink => exact hlink (.inl hkind)
    | hardlink => exact hlink (.inr hkind)

theorem stays_extractMembers (harchive : ∀ m ∈ archive, Harmless m) {members : List Position} (hmembers : ∀ m ∈ members, Harmless m.1) :
    Stays t₀ root (fun _ => True) (extractMembers lib archive root members) := by
  induction members with
  | nil => exact keeps_pure trivial
  | cons member members ih =>
    rw [List.forall_mem_cons] at hmembers
    obtain ⟨hbase, hpath⟩ := @joined_of_descends root _ hmembers.1.name
    have hroot : root <+: (joined root member.1.name).1 := by rw [hbase]
    refine keeps_get.bind fun t _ => ?_
    split
    · exact keeps_throw
    · refine ((stays_extractMember harchive hroot hpath hmembers.1).tryCatch fun err => ?_).bind fun _ _ => ih hmembers.2
      split
      · exact keeps_pure trivial
      · exact keeps_throw

/-- The extraction of a harmless archive only touches what is under the root, whatever the order of its members. -/
theorem stays_extractAll (harchive : ∀ m ∈ archive, Harmless m) : Stays t₀ root (fun _ => True) (extractAll lib archive root) :=
  stays_extractMembers harchive fun _ hm => harchive _ (List.fst_mem_of_mem_zipIdx hm)

/-! ## An empty stage -/

/-- The root is a directory with nothing in it. -/
structure EmptyStage (root : Loc) (t : FileTree) : Prop where
  dir : t.node root = some .dir
  empty : ∀ loc, root <+: loc → loc ≠ root → t.node loc = none

theorem EmptyStage.confined (h : EmptyStage root t) : Confined root t where
  dir := h.dir
  links loc target hloc hnode := by
    by_cases hsame : loc = root
    · rw [hsame, h.dir] at hnode
      cases hnode
    · rw [h.empty loc hloc hsame] at hnode
      cases hnode
  apart loc loc' i hloc _ hnode := by
    by_cases hsame : loc = root
    · rw [hsame, h.dir] at hnode
      cases hnode
    · rw [h.empty loc hloc hsame] at hnode
      cases hnode

/-- In an empty stage, an archive whose members all pass the validation only touches what is in the stage. -/
theorem within_extractAll (hstage : EmptyStage root t) (hvalid : ∀ m ∈ archive, validateTarMember t root m = .ok ()) :
    Within root t ((extractAll lib archive root).on t).2 := by
  have hheld : Held root t t := ⟨hstage.confined, Within.refl⟩
  exact (stays_extractAll (fun m hm => harmless_of_validateTarMember (hvalid m hm)) t hheld).1.within

end

end Palworld.Deploy

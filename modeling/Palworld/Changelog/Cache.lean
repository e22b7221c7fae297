import Palworld.Changelog.Parser
import Palworld.Lib.Base64
import Palworld.Lib.Program
import Palworld.Lib.Run
import Palworld.Lib.Stamped
import Palworld.Logs.Scraper

/-!
# The cached changelog

The parser keeps its last response under the path and the modification time of the file. The file may
change at any time, also between the `stat` and the reading of one call.
-/

open Lib

namespace Palworld.Changelog

structure ChangelogResponse where
  current_version : Text
  releases : List ChangelogRelease
  unreleased : List ChangelogCategoryItem

def unavailable : Text := lit "Changelog details are currently unavailable on this host."

def buildFallbackResponse (version : Text) : ChangelogResponse where
  current_version := version
  releases := [⟨version, none, [⟨lit "Information", [unavailable]⟩], unavailable⟩]
  unreleased := []

variable {Path Mtime : Type}

/-- The paths of an installation: the changelog of a repository, and where it is looked for otherwise. -/
structure Places (Path : Type) where
  inRepo : Path → Path
  first : Path
  others : List Path

def Places.candidates (places : Places Path) : List Path := places.first :: places.others

structure ChangelogParser (Path Mtime : Type) where
  custom_path : Option Path
  cached_path : Option Path := none
  cached_mtime : Option Mtime := none
  cached_response : Option ChangelogResponse := none

/-! ## The calls of the file system -/

inductive FileOp (Path : Type)
  | isFile (path : Path)
  | stat (path : Path)
  | readText (path : Path)

/-- What a call answers. `none` is an `OSError`. -/
def FileOp.Answer (Mtime : Type) : FileOp Path → Type
  | .isFile _ => Bool
  | .stat _ => Option Mtime
  | .readText _ => Option (List UInt8)

def fileCalls (Path Mtime : Type) : Calls := ⟨FileOp Path, FileOp.Answer Mtime⟩

/-- The files, each with its modification time and its bytes. -/
abbrev Files (Path Mtime : Type) := StampedStore Path Mtime (List UInt8)

def isFile (path : Path) : Program (fileCalls Path Mtime) Bool := Program.ask (C := fileCalls Path Mtime) (.isFile path)

def stat (path : Path) : Program (fileCalls Path Mtime) (Option Mtime) := Program.ask (C := fileCalls Path Mtime) (.stat path)

def readText (path : Path) : Program (fileCalls Path Mtime) (Option (List UInt8)) :=
  Program.ask (C := fileCalls Path Mtime) (.readText path)

/-! ## The parser -/

def firstFile (default : Path) : List Path → Program (fileCalls Path Mtime) Path
  | [] => pure default
  | candidate :: candidates => do
    if ← isFile candidate then pure candidate else firstFile default candidates

def resolvePath (places : Places Path) (parser : ChangelogParser Path Mtime) (repo_root : Option Path) :
    Program (fileCalls Path Mtime) Path :=
  match parser.custom_path, repo_root with
  | some path, _ => pure path
  | none, some root => pure (places.inRepo root)
  | none, none => firstFile places.first places.candidates

/-- `_read_and_parse`, of the bytes that are read. `none` for what is no UTF-8 and for no releases. -/
def parseBytes (bytes : List UInt8) : Option (List ChangelogRelease × List ChangelogCategoryItem) := do
  let raw_text ← utf8Decode bytes
  let (releases, unreleased) := parseLines (Logs.splitlines ⟨universalNewlines raw_text, return_notMem_universalNewlines raw_text⟩)
  if releases.isEmpty then none else some (releases, unreleased)

def responseOf (version : Text) (bytes : List UInt8) : Option ChangelogResponse :=
  (parseBytes bytes).map fun parsed => ⟨version, parsed.1, parsed.2⟩

/-- The response that is kept for a path and a modification time. -/
def ChangelogParser.kept [DecidableEq Path] [DecidableEq Mtime] (parser : ChangelogParser Path Mtime) (path : Path) (mtime : Mtime) :
    Option ChangelogResponse :=
  if parser.cached_path = some path ∧ parser.cached_mtime = some mtime then parser.cached_response else none

variable [DecidableEq Path] [DecidableEq Mtime]

/-- `parse`, with the parser that it leaves. -/
def parse (places : Places Path) (version : Text) (parser : ChangelogParser Path Mtime) (repo_root : Option Path) :
    Program (fileCalls Path Mtime) (ChangelogResponse × ChangelogParser Path Mtime) := do
  let target_path ← resolvePath places parser repo_root
  if !(← isFile target_path) then pure (buildFallbackResponse version, parser)
  else
    match ← stat target_path with
    | none => pure (buildFallbackResponse version, parser)
    | some current_mtime =>
      match parser.kept target_path current_mtime with
      | some response => pure (response, parser)
      | none =>
        match (← readText target_path).bind (responseOf version) with
        | none => pure (buildFallbackResponse version, parser)
        | some response =>
          pure (response, { parser with
            cached_path := some target_path
            cached_mtime := some current_mtime
            cached_response := some response })

/-! ## The files while a call is under way -/

/-- The files, and the files at each moment since the call began. -/
structure Moments (Path Mtime : Type) where
  files : Files Path Mtime
  past : List (Files Path Mtime)

/-- What others do to the files between two calls of the parser. No modification time of a path comes back. -/
inductive Edits : Moments Path Mtime → Moments Path Mtime → Prop
  | none (h : Moments Path Mtime) : Edits h h
  | write {h h' : Moments Path Mtime} {path : Path} {entry : Option (Mtime × List UInt8)} (before : Edits h h')
    (hfresh : h'.files.Fresh path entry) : Edits h ⟨h'.files.write path entry, h'.files.write path entry :: h'.past⟩

/-- The right answer. -/
def FileOp.answer (files : Files Path Mtime) : (op : FileOp Path) → op.Answer Mtime
  | .isFile path => (files.now path).isSome
  | .stat path => (files.now path).map Prod.fst
  | .readText path => (files.now path).map Prod.snd

/-- A call may fail at any time. -/
def FileOp.Fails : (op : FileOp Path) → op.Answer Mtime → Prop
  | .isFile _, _ => False
  | .stat _, answer | .readText _, answer => answer = Option.none

def does (op : FileOp Path) (h : Moments Path Mtime) (answer : op.Answer Mtime) (h' : Moments Path Mtime) : Prop :=
  Edits h h' ∧ (answer = op.answer h'.files ∨ op.Fails answer)

/-- Nothing is changed meanwhile, and no call fails. -/
def quietly (op : FileOp Path) (files : Files Path Mtime) (answer : op.Answer Mtime) (files' : Files Path Mtime) : Prop :=
  files' = files ∧ answer = op.answer files

/-- Where a call may look. -/
def targets (places : Places Path) (parser : ChangelogParser Path Mtime) (repo_root : Option Path) : List Path :=
  match parser.custom_path, repo_root with
  | some path, _ => [path]
  | none, some root => [places.inRepo root]
  | none, none => places.candidates

/-- What the response is in place of a cached one: that of the first file there is. -/
def uncachedResponse (places : Places Path) (version : Text) (parser : ChangelogParser Path Mtime) (repo_root : Option Path)
    (files : Files Path Mtime) : ChangelogResponse :=
  (((targets places parser repo_root).findSome? files.now).bind fun entry => responseOf version entry.2).getD
    (buildFallbackResponse version)

/-- The response that the parser keeps is good. -/
structure Kept (version : Text) (parser : ChangelogParser Path Mtime) (files : Files Path Mtime) : Prop where
  recorded : files.Recorded
  good : ∀ path mtime response, parser.cached_path = some path → parser.cached_mtime = some mtime →
    parser.cached_response = some response → StampedMemo.Good (responseOf version) files ⟨path, mtime, response⟩

/-- The response is of what a file was that the call may look at, at some moment of the call, or it is the fallback. -/
def Current (places : Places Path) (version : Text) (parser : ChangelogParser Path Mtime) (repo_root : Option Path)
    (past : List (Files Path Mtime)) (response : ChangelogResponse) : Prop :=
  response = buildFallbackResponse version ∨
    ∃ files ∈ past, ∃ path ∈ targets places parser repo_root, ∃ mtime bytes,
      files.now path = some (mtime, bytes) ∧ responseOf version bytes = some response

/-! ## One call -/

variable {places : Places Path} {version : Text} {parser parser' : ChangelogParser Path Mtime} {repo_root : Option Path}
  {files files' : Files Path Mtime} {h h' : Moments Path Mtime} {path : Path} {mtime : Mtime} {response : ChangelogResponse}

omit [DecidableEq Mtime] in
theorem Kept.write {entry : Option (Mtime × List UInt8)} (hkept : Kept version parser files) (hfresh : files.Fresh path entry) :
    Kept version parser (files.write path entry) :=
  ⟨hkept.recorded.write, fun p m r hp hm hr => (hkept.good p m r hp hm hr).write hfresh⟩

/-- What holds throughout a call. -/
structure During (version : Text) (parser : ChangelogParser Path Mtime) (h : Moments Path Mtime) : Prop where
  kept : Kept version parser h.files
  present : h.files ∈ h.past

omit [DecidableEq Mtime] in
theorem During.edits (hduring : During version parser h) (hedits : Edits h h') : During version parser h' := by
  induction hedits with
  | none => exact hduring
  | write _ hfresh ih => exact ⟨ih.kept.write hfresh, List.mem_cons_self ..⟩

omit [DecidableEq Mtime] in
theorem used_edits (hused : (path, mtime) ∈ h.files.used) (hedits : Edits h h') : (path, mtime) ∈ h'.files.used := by
  induction hedits with
  | none => exact hused
  | write _ _ ih => exact StampedStore.mem_used_write ih

/-- What is kept for a path is of what is there. -/
theorem Kept.current (hkept : Kept version parser files) {bytes : List UInt8} (hnow : files.now path = some (mtime, bytes))
    (hresponse : parser.kept path mtime = some response) : responseOf version bytes = some response := by
  unfold ChangelogParser.kept at hresponse
  split at hresponse
  · rename_i hkey
    exact (hkept.good path mtime response hkey.1 hkey.2 hresponse).value bytes hnow
  · cases hresponse

omit [DecidableEq Path] [DecidableEq Mtime] in
/-- A response that is read is kept under the modification time that was read before it. -/
theorem Kept.keep (hkept : Kept version parser files) {mtime' : Mtime} {bytes : List UInt8} (hused : (path, mtime) ∈ files.used)
    (hnow : files.now path = some (mtime', bytes)) (hresponse : responseOf version bytes = some response) :
    Kept version { parser with cached_path := some path, cached_mtime := some mtime, cached_response := some response } files := by
  refine ⟨hkept.recorded, ?_⟩
  rintro p m r ⟨⟩ ⟨⟩ ⟨⟩
  exact StampedMemo.good_of_read hused hnow hresponse

omit [DecidableEq Mtime] in
theorem always_resolvePath (hduring : During version parser h) :
    (resolvePath places parser repo_root).Always does (During version parser)
      (fun path h => During version parser h ∧ path ∈ targets places parser repo_root) h := by
  have hfirst (candidates : List Path) (hsub : ∀ c ∈ candidates, c ∈ places.candidates) (h : Moments Path Mtime)
      (hduring : During version parser h) : (firstFile places.first candidates).Always does (During version parser)
        (fun path h => During version parser h ∧ path ∈ places.candidates) h := by
    induction candidates generalizing h with
    | nil => exact Program.always_pure hduring ⟨hduring, List.mem_cons_self ..⟩
    | cons candidate candidates ih =>
      rw [List.forall_mem_cons] at hsub
      refine Program.always_bind (Program.always_ask hduring fun answer h' hdoes => ?_)
      have hduring' := hduring.edits hdoes.1
      refine ⟨hduring', ?_⟩
      split
      · exact Program.always_pure hduring' ⟨hduring', hsub.1⟩
      · exact ih hsub.2 h' hduring'
  unfold resolvePath targets
  split
  · exact Program.always_pure hduring ⟨hduring, List.mem_singleton_self _⟩
  · exact Program.always_pure hduring ⟨hduring, List.mem_singleton_self _⟩
  · exact hfirst _ (fun _ => id) h hduring

/-- What a call returns and leaves. -/
structure Returned (places : Places Path) (version : Text) (parser : ChangelogParser Path Mtime) (repo_root : Option Path)
    (returned : ChangelogResponse × ChangelogParser Path Mtime) (h : Moments Path Mtime) : Prop where
  kept : Kept version returned.2 h.files
  current : Current places version parser repo_root h.past returned.1
  same_path : returned.2.custom_path = parser.custom_path

theorem always_parse (hduring : During version parser h) :
    (parse places version parser repo_root).Always does (During version parser)
      (Returned places version parser repo_root) h := by
  have hfallback {h : Moments Path Mtime} (hduring : During version parser h) :
      Returned places version parser repo_root (buildFallbackResponse version, parser) h := ⟨hduring.kept, .inl rfl, rfl⟩
  unfold parse
  refine Program.always_bind ((always_resolvePath hduring).post fun path h _ hpath => ?_)
  obtain ⟨hduring, htarget⟩ := hpath
  refine Program.always_bind (Program.always_ask hduring fun there h₁ hdoes => ?_)
  have hduring₁ := hduring.edits hdoes.1
  refine ⟨hduring₁, ?_⟩
  split
  · exact Program.always_pure hduring₁ (hfallback hduring₁)
  · refine Program.always_bind (Program.always_ask hduring₁ fun mtime h₂ hdoes => ?_)
    have hduring₂ := hduring₁.edits hdoes.1
    refine ⟨hduring₂, ?_⟩
    split
    · exact Program.always_pure hduring₂ (hfallback hduring₂)
    · rename_i current_mtime
      obtain ⟨⟨k, bytes⟩, hnow, hk⟩ := Option.map_eq_some_iff.mp (hdoes.2.resolve_right (by simp [FileOp.Fails])).symm
      obtain rfl : k = current_mtime := hk
      split
      · rename_i response hresponse
        exact Program.always_pure hduring₂ ⟨hduring₂.kept, .inr ⟨_, hduring₂.present, path, htarget, k, bytes, hnow,
          hduring₂.kept.current hnow hresponse⟩, rfl⟩
      · refine Program.always_bind (Program.always_ask hduring₂ fun read h₃ hdoes => ?_)
        have hduring₃ := hduring₂.edits hdoes.1
        refine ⟨hduring₃, ?_⟩
        have hused := used_edits (hduring₂.kept.recorded path k bytes hnow) hdoes.1
        split
        · exact Program.always_pure hduring₃ (hfallback hduring₃)
        · rename_i response hread
          obtain ⟨bytes', hbytes, hresponse⟩ := Option.bind_eq_some_iff.mp hread
          have hanswer : read = (h₃.files.now path).map Prod.snd := hdoes.2.resolve_right (by simp [FileOp.Fails, hbytes])
          rw [hanswer] at hbytes
          obtain ⟨⟨k', b⟩, hnow', hb⟩ := Option.map_eq_some_iff.mp hbytes
          obtain rfl : b = bytes' := hb
          exact Program.always_pure hduring₃ ⟨hduring₃.kept.keep hused hnow' hresponse,
            .inr ⟨_, hduring₃.present, path, htarget, k', b, hnow', hresponse⟩, rfl⟩

/-! ## A call that nothing disturbs -/

omit [DecidableEq Path] [DecidableEq Mtime] in
theorem quiet_firstFile (default : Path) (candidates : List Path) :
    (firstFile default candidates : Program (fileCalls Path Mtime) Path).Always quietly (· = files)
      (fun path f => f = files ∧
        (files.now path = candidates.findSome? files.now ∨ path = default ∧ candidates.findSome? files.now = none)) files := by
  induction candidates with
  | nil => exact Program.always_pure rfl ⟨rfl, .inr ⟨rfl, rfl⟩⟩
  | cons candidate candidates ih =>
    refine Program.always_bind (Program.always_ask rfl fun answer f hquiet => ?_)
    obtain ⟨rfl, rfl⟩ := hquiet
    refine ⟨rfl, ?_⟩
    rw [List.findSome?_cons]
    cases hnow : f.now candidate with
    | some entry =>
      simp only [FileOp.answer, hnow, Option.isSome_some, if_true]
      exact Program.always_pure rfl ⟨rfl, .inl hnow⟩
    | none =>
      simp only [FileOp.answer, hnow, Option.isSome_none, Bool.false_eq_true, if_false]
      exact ih

omit [DecidableEq Path] [DecidableEq Mtime] in
/-- The path that is resolved has what the first of the candidates with a file has. -/
theorem quiet_resolvePath :
    (resolvePath places parser repo_root).Always quietly (· = files)
      (fun path f => f = files ∧ files.now path = (targets places parser repo_root).findSome? files.now) files := by
  unfold resolvePath targets
  split
  · refine Program.always_pure rfl ⟨rfl, ?_⟩
    rw [List.findSome?_singleton]
  · refine Program.always_pure rfl ⟨rfl, ?_⟩
    rw [List.findSome?_singleton]
  · refine (quiet_firstFile places.first places.candidates).post ?_
    rintro path f - ⟨hf, hfound | ⟨rfl, hnone⟩⟩
    · exact ⟨hf, hfound⟩
    · refine ⟨hf, ?_⟩
      rw [hnone]
      exact List.findSome?_eq_none_iff.mp hnone _ (List.mem_cons_self ..)

theorem quiet_parse (hkept : Kept version parser files) :
    (parse places version parser repo_root).Always quietly (· = files)
      (fun returned _ => returned.1 = uncachedResponse places version parser repo_root files) files := by
  unfold parse uncachedResponse
  refine Program.always_bind (quiet_resolvePath.post fun path f _ hpath => ?_)
  obtain ⟨rfl, hnow⟩ := hpath
  rw [← hnow]
  refine Program.always_bind (Program.always_ask rfl fun there f' hquiet => ?_)
  obtain ⟨rfl, rfl⟩ := hquiet
  refine ⟨rfl, ?_⟩
  cases hentry : f'.now path with
  | none =>
    simp only [FileOp.answer, hentry, Option.isSome_none, Bool.not_false, if_true]
    exact Program.always_pure rfl rfl
  | some entry =>
    obtain ⟨mtime, bytes⟩ := entry
    simp only [FileOp.answer, hentry, Option.isSome_some, Bool.not_true, Bool.false_eq_true, if_false]
    refine Program.always_bind (Program.always_ask rfl fun answer f'' hquiet => ?_)
    obtain ⟨rfl, rfl⟩ := hquiet
    refine ⟨rfl, ?_⟩
    simp only [FileOp.answer, hentry, Option.map_some]
    split
    · rename_i response hresponse
      refine Program.always_pure rfl ?_
      simp only [Option.bind_some, hkept.current hentry hresponse, Option.getD_some]
    · refine Program.always_bind (Program.always_ask rfl fun read g hquiet => ?_)
      obtain ⟨rfl, rfl⟩ := hquiet
      refine ⟨rfl, ?_⟩
      simp only [FileOp.answer, hentry, Option.map_some, Option.bind_some]
      split
      · rename_i hnone
        refine Program.always_pure rfl ?_
        simp only [hnone, Option.getD_none]
      · rename_i response hresponse
        refine Program.always_pure rfl ?_
        simp only [hresponse, Option.getD_some]

/-! ## Runs -/

structure System (Path Mtime : Type) where
  files : Files Path Mtime
  parser : ChangelogParser Path Mtime

inductive Action (Path Mtime : Type)
  | edit (path : Path) (entry : Option (Mtime × List UInt8))
  | parse (repo_root : Option Path) (response : ChangelogResponse)

/-- An edit leaves a modification time that the path never had. Edits also come between the steps of a call. -/
inductive Step (places : Places Path) (version : Text) : System Path Mtime → Action Path Mtime → System Path Mtime → Prop
  | edit {s : System Path Mtime} {path : Path} {entry : Option (Mtime × List UInt8)} (hfresh : s.files.Fresh path entry) :
    Step places version s (.edit path entry) { s with files := s.files.write path entry }
  | parse {s : System Path Mtime} {repo_root : Option Path} {response : ChangelogResponse} {parser : ChangelogParser Path Mtime}
    {h : Moments Path Mtime} (hcall : Program.Reaches does (Changelog.parse places version s.parser repo_root, ⟨s.files, [s.files]⟩)
      (.done (response, parser), h)) : Step places version s (.parse repo_root response) ⟨h.files, parser⟩

/-- A parser that has kept nothing yet. -/
structure System.Initial (s : System Path Mtime) : Prop where
  recorded : s.files.Recorded
  empty : s.parser.cached_response = none

variable {s t : System Path Mtime} {a : Action Path Mtime} {as : List (Action Path Mtime)}

theorem returned_of_reaches (hkept : Kept version s.parser s.files)
    (hcall : Program.Reaches does (Changelog.parse places version s.parser repo_root, ⟨s.files, [s.files]⟩) (.done (response, parser'), h)) :
    Returned places version s.parser repo_root (response, parser') h :=
  ((always_parse ⟨hkept, List.mem_singleton_self _⟩).reaches hcall).2

theorem kept_step (hkept : Kept version s.parser s.files) (hstep : Step places version s a t) : Kept version t.parser t.files := by
  cases hstep with
  | edit hfresh => exact hkept.write hfresh
  | parse hcall => exact (returned_of_reaches hkept hcall).kept

theorem kept_run (hinitial : s.Initial) (hrun : Lib.Run (Step places version) s as t) : Kept version t.parser t.files := by
  refine hrun.invariant (I := fun s => Kept version s.parser s.files) (fun _ _ _ => kept_step) ⟨hinitial.recorded, ?_⟩
  intro path mtime response _ _ hresponse
  rw [hinitial.empty] at hresponse
  cases hresponse

/-- **The cached changelog is current.** As long as no modification time comes back, every response is of what the file was
at some moment of the call, whatever happens between its steps, or it is the fallback. A call that nothing disturbs
returns what a parser without a cache returns. -/
theorem changelog_current (hinitial : s.Initial) (hrun : Lib.Run (Step places version) s as t) (repo_root : Option Path) :
    (∀ response parser' h, Program.Reaches does (parse places version t.parser repo_root, ⟨t.files, [t.files]⟩)
      (.done (response, parser'), h) → Current places version t.parser repo_root h.past response) ∧
    ∀ response parser' files, Program.Reaches quietly (parse places version t.parser repo_root, t.files)
      (.done (response, parser'), files) → response = uncachedResponse places version t.parser repo_root t.files := by
  have hkept := kept_run hinitial hrun
  refine ⟨fun response parser' h hcall => (returned_of_reaches hkept hcall).current, fun response parser' files hcall => ?_⟩
  exact ((quiet_parse hkept).reaches hcall).2

def somePlaces : Places Nat := ⟨id, 0, [1]⟩

def newParser : ChangelogParser Nat Nat := ⟨none, none, none, none⟩

def headerBytes : List UInt8 := "## 1.0".toByteArray.data.toList

def newFiles : Files Nat Nat := StampedStore.write ⟨fun _ => none, []⟩ 1 (some (7, headerBytes))

/-- A changelog is put where there was none, and the next call reads it. -/
theorem changelog_current_new :
    (uncachedResponse somePlaces (lit "2.0") newParser none newFiles).releases.length = 1 ∧
      ∀ response parser' files, Program.Reaches quietly (parse somePlaces (lit "2.0") newParser none, newFiles)
        (.done (response, parser'), files) → response = uncachedResponse somePlaces (lit "2.0") newParser none newFiles := by
  have hrun : Lib.Run (Step somePlaces (lit "2.0")) ⟨⟨fun _ => none, []⟩, newParser⟩ [.edit 1 (some (7, headerBytes))] ⟨newFiles, newParser⟩ :=
    .one (.edit fun _ _ _ => List.not_mem_nil)
  have hinitial : System.Initial ⟨⟨fun _ => none, []⟩, newParser⟩ := ⟨fun _ _ _ h => (by cases h), rfl⟩
  exact ⟨by decide +kernel, (changelog_current hinitial hrun none).2⟩

end Palworld.Changelog

import Palworld.Lib.AtomicFile
import Palworld.Lib.Text
import Mathlib.Data.List.Infix

/-!
# A tree of files and links

A path is looked up component by component, and links are followed on the way. Where the links
under a directory all lead downwards, a path from there that does not go up stays there.
-/

namespace Lib

/-- A place in the tree, from the top. -/
abbrev Loc := List Text

inductive Node
  | dir
  | file (inode : Nat)
  | link (target : Text)
  deriving DecidableEq

/-- The tree, the content of its files, and the places that have been created, removed or written. -/
structure FileTree where
  node : Loc → Option Node
  data : Nat → Bytes
  next : Nat
  touched : List Loc
  fresh : ∀ loc i, node loc = some (.file i) → i < next
  closed : ∀ loc c, node (loc ++ [c]) ≠ none → node loc = some .dir

def isAbsolute (path : Text) : Bool := path.head? = some '/'

def components (path : Text) : List Text := path.splitOn '/'

def here : Text := ['.']

def above : Text := ['.', '.']

namespace FileTree

/-! ## Looking up a path -/

/-- The place of a path from a directory. Only the last component may be missing. -/
def scan (t : FileTree) (follow : Bool) (followLink : Loc → List Text → Option Loc) : Loc → List Text → Option Loc
  | loc, [] => some loc
  | loc, c :: path =>
    if t.node loc ≠ some .dir then none
    else if c = [] ∨ c = here then scan t follow followLink loc path
    else if c = above then scan t follow followLink loc.dropLast path
    else
      match t.node (loc ++ [c]) with
      | some (.link target) =>
        if path = [] ∧ follow = false then some (loc ++ [c])
        else followLink (if isAbsolute target then [] else loc) (components target ++ path)
      | some .dir => scan t follow followLink (loc ++ [c]) path
      | _ => if path = [] then some (loc ++ [c]) else none

/-- A number of links may be followed. -/
def lookup (t : FileTree) (follow : Bool) : Nat → Loc → List Text → Option Loc
  | 0 => t.scan follow fun _ _ => none
  | links + 1 => t.scan follow (t.lookup follow links)

/-- The most links that a path may lead through. -/
def maxLinks : Nat := 40

def find (t : FileTree) (follow : Bool) (base : Loc) (path : List Text) : Option Loc := t.lookup follow maxLinks base path

/-! ## Changing the tree -/

/-- The name is not taken, and the directory that it belongs to is there. -/
structure Free (t : FileTree) (loc : Loc) : Prop where
  missing : t.node loc = none
  parent : t.node loc.dropLast = some .dir

instance (t : FileTree) (loc : Loc) : Decidable (t.Free loc) :=
  decidable_of_iff (t.node loc = none ∧ t.node loc.dropLast = some .dir) ⟨fun h => ⟨h.1, h.2⟩, fun h => ⟨h.missing, h.parent⟩⟩

def put (t : FileTree) (loc : Loc) (n : Node) (hfree : t.Free loc) (hn : ∀ i, n = .file i → i < t.next) : FileTree where
  node := Function.update t.node loc (some n)
  data := t.data
  next := t.next
  touched := t.touched ++ [loc]
  fresh loc' i h := by
    by_cases hloc : loc' = loc
    · subst hloc
      rw [Function.update_self, Option.some.injEq] at h
      exact hn i h
    · rw [Function.update_of_ne hloc] at h
      exact t.fresh loc' i h
  closed loc' c h := by
    have hparent : t.node loc' = some .dir := by
      by_cases hloc : loc' ++ [c] = loc
      · have hdrop := hfree.parent
        rwa [← hloc, List.dropLast_concat] at hdrop
      · rw [Function.update_of_ne hloc] at h
        exact t.closed loc' c h
    have hne : loc' ≠ loc := by
      rintro rfl
      rw [hfree.missing] at hparent
      cases hparent
    rwa [Function.update_of_ne hne]

@[simp] theorem node_put_self (t : FileTree) {loc : Loc} {n : Node} (hfree : t.Free loc) (hn : ∀ i, n = .file i → i < t.next) :
    (t.put loc n hfree hn).node loc = some n := Function.update_self ..

theorem node_put_of_ne (t : FileTree) {loc l : Loc} {n : Node} (hfree : t.Free loc) (hn : ∀ i, n = .file i → i < t.next) (hl : l ≠ loc) :
    (t.put loc n hfree hn).node l = t.node l := Function.update_of_ne hl ..

/-- A new inode that holds the content. -/
def alloc (t : FileTree) (content : Bytes) : FileTree where
  node := t.node
  data := Function.update t.data t.next content
  next := t.next + 1
  touched := t.touched
  fresh loc i h := Nat.lt_succ_of_lt (t.fresh loc i h)
  closed := t.closed

def rewrite (t : FileTree) (loc : Loc) (inode : Nat) (content : Bytes) : FileTree :=
  { t with data := Function.update t.data inode content, touched := t.touched ++ [loc] }

def remove (t : FileTree) (loc : Loc) (h : t.node loc ≠ some .dir) : FileTree where
  node := Function.update t.node loc none
  data := t.data
  next := t.next
  touched := t.touched ++ [loc]
  fresh loc' i hnode := by
    by_cases hloc : loc' = loc
    · subst hloc
      rw [Function.update_self] at hnode
      cases hnode
    · rw [Function.update_of_ne hloc] at hnode
      exact t.fresh loc' i hnode
  closed loc' c hnode := by
    have hne' : loc' ++ [c] ≠ loc := by
      rintro rfl
      exact hnode (Function.update_self ..)
    rw [Function.update_of_ne hne'] at hnode
    have hparent := t.closed loc' c hnode
    have hne : loc' ≠ loc := by
      rintro rfl
      exact h hparent
    rwa [Function.update_of_ne hne]

@[simp] theorem node_remove_self (t : FileTree) {loc : Loc} (h : t.node loc ≠ some .dir) : (t.remove loc h).node loc = none :=
  Function.update_self ..

theorem node_remove_of_ne (t : FileTree) {loc l : Loc} (h : t.node loc ≠ some .dir) (hl : l ≠ loc) :
    (t.remove loc h).node l = t.node l := Function.update_of_ne hl ..

theorem node_of_remove {t : FileTree} {loc l : Loc} {h : t.node loc ≠ some .dir} {node : Node} (hnode : (t.remove loc h).node l = some node) :
    t.node l = some node := by
  by_cases hsame : l = loc
  · subst hsame
    rw [node_remove_self] at hnode
    cases hnode
  · rwa [node_remove_of_ne _ _ hsame] at hnode

/-- Without everything at the place and under it. -/
def removeAll (t : FileTree) (loc : Loc) : FileTree where
  node l := if loc <+: l then none else t.node l
  data := t.data
  next := t.next
  touched := t.touched ++ [loc]
  fresh loc' i h := by
    split at h
    · cases h
    · exact t.fresh loc' i h
  closed loc' c h := by
    split at h
    · exact absurd rfl h
    · rename_i hout
      have hne : ¬loc <+: loc' := fun hin => hout (hin.trans (List.prefix_append ..))
      rw [if_neg hne]
      exact t.closed loc' c h

/-- A place that another can be moved to. -/
structure Movable (t : FileTree) (src dst : Loc) : Prop where
  free : t.Free dst
  apart : ¬src <+: dst

instance (t : FileTree) (src dst : Loc) : Decidable (t.Movable src dst) :=
  decidable_of_iff (t.Free dst ∧ ¬src <+: dst) ⟨fun h => ⟨h.1, h.2⟩, fun h => ⟨h.free, h.apart⟩⟩

/-- What is under the first place is under the second instead. -/
def move (t : FileTree) (src dst : Loc) (h : t.Movable src dst) : FileTree where
  node l := if dst <+: l then t.node (src ++ l.drop dst.length) else if src <+: l then none else t.node l
  data := t.data
  next := t.next
  touched := t.touched ++ [src, dst]
  fresh loc i hnode := by
    split at hnode
    · exact t.fresh _ i hnode
    · split at hnode
      · cases hnode
      · exact t.fresh loc i hnode
  closed loc c hnode := by
    by_cases hin : dst <+: loc
    · have hlen := hin.length_le
      rw [if_pos (hin.trans (List.prefix_append ..)), List.drop_append_of_le_length hlen, ← List.append_assoc] at hnode
      rw [if_pos hin]
      exact t.closed _ c hnode
    · rw [if_neg hin]
      by_cases hdst : dst <+: loc ++ [c]
      · -- the parent of the new place stays
        have hdst : dst = loc ++ [c] := by
          rcases List.prefix_concat_iff.mp hdst with h | h
          · exact h
          · exact absurd h hin
        have hparent := h.free.parent
        rw [hdst, List.dropLast_concat] at hparent
        have hne : ¬src <+: loc := fun hsrc => h.apart (hdst ▸ hsrc.trans (List.prefix_append ..))
        rwa [if_neg hne]
      · rw [if_neg hdst] at hnode
        by_cases hsrc : src <+: loc ++ [c]
        · rw [if_pos hsrc] at hnode
          exact absurd rfl hnode
        · rw [if_neg hsrc] at hnode
          have hne : ¬src <+: loc := fun hsrc' => hsrc (hsrc'.trans (List.prefix_append ..))
          rw [if_neg hne]
          exact t.closed loc c hnode

end FileTree

/-! ## Calls -/

/-- An `OSError`, `FileExistsError` or another, or an error of the program itself. -/
inductive Raised (ε : Type)
  | fileExists
  | osError
  | other (err : ε)
  deriving DecidableEq

abbrev Fs (ε : Type) := ExceptT (Raised ε) (StateM FileTree)

variable {ε α β : Type}

def Fs.on (x : Fs ε α) (t : FileTree) : Except (Raised ε) α × FileTree := x.run.run t

section

variable (base : Loc) (path : List Text)

def locate (follow : Bool) : Fs ε Loc := do
  match (← get).find follow base path with
  | some loc => return loc
  | none => throw .osError

/-- `os.path.exists`, or `os.path.lexists` where a link is not followed. -/
def pathExists (follow : Bool) : Fs ε Bool := do
  let t ← get
  return ((t.find follow base path).bind t.node).isSome

def isDir : Fs ε Bool := do
  let t ← get
  return (t.find true base path).bind t.node = some .dir

theorem dir_ne_file (i : Nat) : Node.dir ≠ .file i := nofun

theorem link_ne_file (target : Text) (i : Nat) : Node.link target ≠ .file i := nofun

/-- The name is taken by a new entry. -/
def create (loc : Loc) (n : Node) (hn : ∀ i, n ≠ .file i) : Fs ε Unit := do
  let t ← get
  if hfree : t.Free loc then set (t.put loc n hfree fun i h => absurd h (hn i))
  else throw (if (t.node loc).isSome then .fileExists else .osError)

def mkdir : Fs ε Unit := do
  let loc ← locate base path false
  create loc .dir dir_ne_file

def symlink (target : Text) : Fs ε Unit := do
  if target = [] then throw .osError
  else
    let loc ← locate base path false
    create loc (.link target) (link_ne_file target)

/-- `open(path, "wb")` and a write. A file that is there keeps its inode. -/
def writeFile (content : Bytes) : Fs ε Unit := do
  let loc ← locate base path true
  let t ← get
  match t.node loc with
  | some (.file inode) => set (t.rewrite loc inode content)
  | some .dir => throw .osError
  | some (.link _) => throw .osError
  | none =>
    if hfree : (t.alloc content).Free loc then
      set ((t.alloc content).put loc (.file t.next) hfree fun _ h => Node.file.inj h ▸ Nat.lt_succ_self _)
    else throw .osError

def unlink : Fs ε Unit := do
  let loc ← locate base path false
  let t ← get
  if h : t.node loc ≠ none ∧ t.node loc ≠ some .dir then set (t.remove loc h.2) else throw .osError

/-- `os.link`. Whether a link at its source is followed depends on the system. -/
def hardLink (follow : Bool) (source : Loc) (sourcePath : List Text) : Fs ε Unit := do
  let src ← locate source sourcePath follow
  let loc ← locate base path false
  let t ← get
  match hsrc : t.node src with
  | some (.file inode) =>
    if hfree : t.Free loc then set (t.put loc (.file inode) hfree fun _ h => Node.file.inj h ▸ t.fresh src inode hsrc)
    else throw (if (t.node loc).isSome then .fileExists else .osError)
  | some (.link target) => create loc (.link target) (link_ne_file target)
  | some .dir => throw .osError
  | none => throw .osError

end

/-! ## Programs that keep an invariant -/

/-- From a tree with `J`, the program ends in a tree with `J`, and what it returns meets `Q`. -/
def Keeps (J : FileTree → Prop) (Q : α → Prop) (x : Fs ε α) : Prop := ∀ t, J t → J (x.on t).2 ∧ ∀ a, (x.on t).1 = .ok a → Q a

section

variable {J : FileTree → Prop} {Q : α → Prop} {R : β → Prop} {x : Fs ε α} {f : α → Fs ε β}

theorem on_bind (x : Fs ε α) (f : α → Fs ε β) (t : FileTree) :
    (x >>= f).on t =
      match x.on t with
      | (.ok a, t') => (f a).on t'
      | (.error err, t') => (.error err, t') := by
  simp only [Fs.on, bind, ExceptT.bind, ExceptT.mk, ExceptT.run, StateT.bind, StateT.run, ExceptT.bindCont]
  rcases x t with ⟨result, t'⟩
  cases result <;> rfl

theorem on_tryCatch (x : Fs ε α) (handler : Raised ε → Fs ε α) (t : FileTree) :
    (tryCatch x handler).on t =
      match x.on t with
      | (.ok a, t') => (.ok a, t')
      | (.error err, t') => (handler err).on t' := by
  simp only [Fs.on, tryCatch, tryCatchThe, MonadExceptOf.tryCatch, ExceptT.tryCatch, ExceptT.mk, ExceptT.run, bind, StateT.bind, StateT.run]
  rcases x t with ⟨result, t'⟩
  cases result <;> rfl

theorem keeps_pure {a : α} (ha : Q a) : Keeps J Q (pure a : Fs ε α) := fun _ ht => ⟨ht, fun _ h => Except.ok.inj h ▸ ha⟩

theorem keeps_throw {err : Raised ε} : Keeps J Q (throw err : Fs ε α) := fun _ ht => ⟨ht, nofun⟩

theorem keeps_get : Keeps J J (get : Fs ε FileTree) := fun _ ht => ⟨ht, fun _ h => Except.ok.inj h ▸ ht⟩

theorem keeps_set {t : FileTree} (ht : J t) : Keeps J (fun _ => True) (set t : Fs ε Unit) := fun _ _ => ⟨ht, fun _ _ => trivial⟩

theorem Keeps.bind (hx : Keeps J Q x) (hf : ∀ a, Q a → Keeps J R (f a)) : Keeps J R (x >>= f) := by
  intro t ht
  obtain ⟨htree, hresult⟩ := hx t ht
  rw [on_bind]
  rcases hrun : x.on t with ⟨result, t'⟩
  rw [hrun] at htree hresult
  cases result with
  | ok a => exact hf a (hresult a rfl) t' htree
  | error err => exact ⟨htree, nofun⟩

theorem Keeps.tryCatch {handler : Raised ε → Fs ε α} (hx : Keeps J Q x) (hhandler : ∀ err, Keeps J Q (handler err)) :
    Keeps J Q (tryCatch x handler) := by
  intro t ht
  obtain ⟨htree, hresult⟩ := hx t ht
  rw [on_tryCatch]
  rcases hrun : x.on t with ⟨result, t'⟩
  rw [hrun] at htree hresult
  cases result with
  | ok a => exact ⟨htree, hresult⟩
  | error err => exact hhandler err t' htree

end

/-! ## Links that lead downwards -/

/-- From the directory that the link is in, the path does not lead up. -/
structure Descends (target : Text) : Prop where
  relative : isAbsolute target = false
  down : above ∉ components target

/-- The links under the root lead downwards, and no file under it has a name elsewhere. -/
structure Confined (root : Loc) (t : FileTree) : Prop where
  dir : t.node root = some .dir
  links : ∀ loc target, root <+: loc → t.node loc = some (.link target) → Descends target
  apart : ∀ loc loc' i, root <+: loc → ¬root <+: loc' → t.node loc = some (.file i) → t.node loc' ≠ some (.file i)

/-- Outside of the root the tree is what it was, and all that has been touched since is under it. -/
structure Within (root : Loc) (t₀ t : FileTree) : Prop where
  node : ∀ loc, ¬root <+: loc → t.node loc = t₀.node loc
  data : ∀ loc i, ¬root <+: loc → t₀.node loc = some (.file i) → t.data i = t₀.data i
  touched : ∃ more, t.touched = t₀.touched ++ more ∧ ∀ loc ∈ more, root <+: loc

structure Held (root : Loc) (t₀ t : FileTree) : Prop where
  confined : Confined root t
  within : Within root t₀ t

section

variable {root loc base : Loc} {t₀ t : FileTree} {path : List Text} {follow : Bool} {n : Node} {content : Bytes} {inode : Nat}

theorem scan_confined (ht : Confined root t) {followLink : Loc → List Text → Option Loc}
    (hlink : ∀ loc path l, root <+: loc → above ∉ path → followLink loc path = some l → root <+: l) {l : Loc}
    (hloc : root <+: loc) (hpath : above ∉ path) (h : t.scan follow followLink loc path = some l) : root <+: l := by
  induction path generalizing loc with
  | nil =>
    cases h
    exact hloc
  | cons c path ih =>
    rw [List.mem_cons, not_or] at hpath
    have hnext : root <+: loc ++ [c] := hloc.trans (List.prefix_append ..)
    unfold FileTree.scan at h
    split at h
    · cases h
    split at h
    · exact ih hloc hpath.2 h
    split at h
    · rename_i habove
      exact absurd habove.symm hpath.1
    split at h
    · rename_i target hnode
      have htarget := ht.links _ target hnext hnode
      split at h
      · cases h
        exact hnext
      · rw [htarget.relative, if_neg Bool.false_ne_true] at h
        refine hlink loc _ l hloc ?_ h
        rw [List.mem_append, not_or]
        exact ⟨htarget.down, hpath.2⟩
    · exact ih hnext hpath.2 h
    · split at h
      · cases h
        exact hnext
      · cases h

/-- A path that does not go up stays under the root. -/
theorem lookup_confined (ht : Confined root t) {links : Nat} {l : Loc} (hloc : root <+: loc) (hpath : above ∉ path)
    (h : t.lookup follow links loc path = some l) : root <+: l := by
  induction links generalizing loc path l with
  | zero =>
    refine scan_confined ht (fun _ _ _ _ _ hnone => ?_) hloc hpath h
    cases hnone
  | succ links ih => exact scan_confined ht (fun _ _ _ hloc hpath h => ih hloc hpath h) hloc hpath h

theorem Within.refl : Within root t t := ⟨fun _ _ => rfl, fun _ _ _ _ => rfl, [], (List.append_nil _).symm, nofun⟩

theorem ne_of_outside {l : Loc} (hloc : root <+: loc) (hl : ¬root <+: l) : l ≠ loc := by
  rintro rfl
  exact hl hloc

theorem touched_snoc (h : Within root t₀ t) (hloc : root <+: loc) :
    ∃ more, t.touched ++ [loc] = t₀.touched ++ more ∧ ∀ l ∈ more, root <+: l := by
  obtain ⟨more, htouched, hmore⟩ := h.touched
  refine ⟨more ++ [loc], by rw [htouched, List.append_assoc], fun l hl => ?_⟩
  rcases List.mem_append.mp hl with hl | hl
  · exact hmore l hl
  · exact List.mem_singleton.mp hl ▸ hloc

/-- A new entry under the root: a directory, a link that leads downwards, or a file that has no name elsewhere. -/
theorem Held.put (h : Held root t₀ t) (hloc : root <+: loc) (hfree : t.Free loc) (hn : ∀ i, n = .file i → i < t.next)
    (hlink : ∀ target, n = .link target → Descends target)
    (hfile : ∀ i, n = .file i → ∀ loc', ¬root <+: loc' → t.node loc' ≠ some (.file i)) : Held root t₀ (t.put loc n hfree hn) where
  confined := {
    dir := by
      have hne : root ≠ loc := by
        rintro rfl
        have hmissing := hfree.missing
        rw [h.confined.dir] at hmissing
        cases hmissing
      rw [FileTree.node_put_of_ne _ _ _ hne]
      exact h.confined.dir
    links := by
      intro l target hl hnode
      by_cases hsame : l = loc
      · subst hsame
        rw [FileTree.node_put_self, Option.some.injEq] at hnode
        exact hlink target hnode
      · rw [FileTree.node_put_of_ne _ _ _ hsame] at hnode
        exact h.confined.links l target hl hnode
    apart := by
      intro l l' i hl hl' hnode
      rw [FileTree.node_put_of_ne _ _ _ (ne_of_outside hloc hl')]
      by_cases hsame : l = loc
      · subst hsame
        rw [FileTree.node_put_self, Option.some.injEq] at hnode
        exact hfile i hnode l' hl'
      · rw [FileTree.node_put_of_ne _ _ _ hsame] at hnode
        exact h.confined.apart l l' i hl hl' hnode }
  within := {
    node := fun l hl => (FileTree.node_put_of_ne _ _ _ (ne_of_outside hloc hl)).trans (h.within.node l hl)
    data := h.within.data
    touched := touched_snoc h.within hloc }

theorem Held.alloc (h : Held root t₀ t) : Held root t₀ (t.alloc content) where
  confined := ⟨h.confined.dir, h.confined.links, h.confined.apart⟩
  within := {
    node := h.within.node
    data := by
      intro l i hl hnode
      have hlt : i < t.next := t.fresh l i ((h.within.node l hl).trans hnode)
      exact (Function.update_of_ne (Nat.ne_of_lt hlt) ..).trans (h.within.data l i hl hnode)
    touched := h.within.touched }

theorem Held.rewrite (h : Held root t₀ t) (hloc : root <+: loc) (hnode : t.node loc = some (.file inode)) :
    Held root t₀ (t.rewrite loc inode content) where
  confined := ⟨h.confined.dir, h.confined.links, h.confined.apart⟩
  within := {
    node := h.within.node
    data := by
      intro l i hl hold
      have hne : i ≠ inode := by
        rintro rfl
        exact h.confined.apart loc l i hloc hl hnode ((h.within.node l hl).trans hold)
      exact (Function.update_of_ne hne ..).trans (h.within.data l i hl hold)
    touched := touched_snoc h.within hloc }

theorem Held.remove (h : Held root t₀ t) (hloc : root <+: loc) (hdir : t.node loc ≠ some .dir) : Held root t₀ (t.remove loc hdir) where
  confined := {
    dir := by
      have hne : root ≠ loc := by
        rintro rfl
        exact hdir h.confined.dir
      rw [FileTree.node_remove_of_ne _ _ hne]
      exact h.confined.dir
    links := by
      intro l target hl hnode
      exact h.confined.links l target hl (FileTree.node_of_remove hnode)
    apart := by
      intro l l' i hl hl' hnode
      rw [FileTree.node_remove_of_ne _ _ (ne_of_outside hloc hl')]
      exact h.confined.apart l l' i hl hl' (FileTree.node_of_remove hnode) }
  within := {
    node := fun l hl => (FileTree.node_remove_of_ne _ _ (ne_of_outside hloc hl)).trans (h.within.node l hl)
    data := h.within.data
    touched := touched_snoc h.within hloc }

/-! ## The calls under a root -/

variable (t₀) in
/-- The program only touches what is under the root. -/
abbrev Stays (root : Loc) (Q : α → Prop) (x : Fs ε α) : Prop := Keeps (Held root t₀) Q x

theorem stays_locate (hbase : root <+: base) (hpath : above ∉ path) : Stays t₀ root (root <+: ·) (locate base path follow : Fs ε Loc) := by
  refine keeps_get.bind fun t ht => ?_
  split
  · rename_i loc hloc
    exact keeps_pure (lookup_confined ht.confined hbase hpath hloc)
  · exact keeps_throw

theorem stays_pathExists : Stays t₀ root (fun _ => True) (pathExists base path follow : Fs ε Bool) :=
  keeps_get.bind fun _ _ => keeps_pure trivial

theorem stays_isDir : Stays t₀ root (fun _ => True) (isDir base path : Fs ε Bool) := keeps_get.bind fun _ _ => keeps_pure trivial

theorem stays_create (hloc : root <+: loc) (hn : ∀ i, n ≠ .file i) (hlink : ∀ target, n = .link target → Descends target) :
    Stays t₀ root (fun _ => True) (create loc n hn : Fs ε Unit) := by
  refine keeps_get.bind fun t ht => ?_
  split
  · rename_i hfree
    exact keeps_set (ht.put hloc hfree _ hlink fun i h => absurd h (hn i))
  · exact keeps_throw

theorem stays_mkdir (hbase : root <+: base) (hpath : above ∉ path) : Stays t₀ root (fun _ => True) (mkdir base path : Fs ε Unit) :=
  (stays_locate hbase hpath).bind fun _ hloc => stays_create hloc _ nofun

theorem stays_symlink {target : Text} (hbase : root <+: base) (hpath : above ∉ path) (htarget : Descends target) :
    Stays t₀ root (fun _ => True) (symlink base path target : Fs ε Unit) := by
  unfold symlink
  split
  · exact keeps_throw
  · exact (stays_locate hbase hpath).bind fun _ hloc => stays_create hloc _ fun _ h => Node.link.inj h ▸ htarget

theorem stays_writeFile (hbase : root <+: base) (hpath : above ∉ path) :
    Stays t₀ root (fun _ => True) (writeFile base path content : Fs ε Unit) := by
  refine (stays_locate hbase hpath).bind fun loc hloc => keeps_get.bind fun t ht => ?_
  split
  · rename_i inode hnode
    exact keeps_set (ht.rewrite hloc hnode)
  · exact keeps_throw
  · exact keeps_throw
  · split
    · rename_i hfree
      refine keeps_set (ht.alloc.put hloc hfree _ nofun ?_)
      intro i hi loc' hout hnode
      have hlt : i < t.next := t.fresh loc' i hnode
      rw [Node.file.inj hi] at hlt
      exact Nat.lt_irrefl _ hlt
    · exact keeps_throw

theorem stays_unlink (hbase : root <+: base) (hpath : above ∉ path) : Stays t₀ root (fun _ => True) (unlink base path : Fs ε Unit) := by
  refine (stays_locate hbase hpath).bind fun loc hloc => keeps_get.bind fun t ht => ?_
  split
  · rename_i h
    exact keeps_set (ht.remove hloc h.2)
  · exact keeps_throw

theorem stays_hardLink {source : Loc} {sourcePath : List Text} (hbase : root <+: base) (hpath : above ∉ path)
    (hsource : root <+: source) (hsourcePath : above ∉ sourcePath) :
    Stays t₀ root (fun _ => True) (hardLink base path follow source sourcePath : Fs ε Unit) := by
  refine (stays_locate hsource hsourcePath).bind fun src hsrc => (stays_locate hbase hpath).bind fun loc hloc =>
    keeps_get.bind fun t ht => ?_
  split
  · rename_i inode hnode
    split
    · rename_i hfree
      refine keeps_set (ht.put hloc hfree _ nofun ?_)
      intro i hi loc' hout
      exact Node.file.inj hi ▸ ht.confined.apart src loc' inode hsrc hout hnode
    · exact keeps_throw
  · rename_i target hnode
    exact stays_create hloc _ fun _ h => Node.link.inj h ▸ ht.confined.links src target hsrc hnode
  · exact keeps_throw
  · exact keeps_throw

end

end Lib

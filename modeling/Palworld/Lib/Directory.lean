import Palworld.Lib.FileTree

/-!
# Renames in a tree of directories

What is below a place moves with it. A rename goes through or leaves everything as it is.
-/

namespace Lib

inductive DirEntry (α : Type)
  | dir
  | file (content : α)

/-- What stands at each place. -/
abbrev Dirs (α : Type) := Loc → Option (DirEntry α)

/-- Neither place is inside the other. -/
def Unrelated (a b : Loc) : Prop := ¬a <+: b ∧ ¬b <+: a

section

variable {a b l parent : Loc}

theorem Unrelated.symm (h : Unrelated a b) : Unrelated b a := ⟨h.2, h.1⟩

theorem Unrelated.mono (h : Unrelated a b) (hpre : b <+: l) : Unrelated a l := by
  refine ⟨fun hal => ?_, fun hla => h.2 (hpre.trans hla)⟩
  rcases List.prefix_or_prefix_of_prefix hal hpre with hab | hba
  · exact h.1 hab
  · exact h.2 hba

/-- Nothing is below two unrelated places. -/
theorem Unrelated.append (h : Unrelated a b) (l : Loc) : ¬a <+: b ++ l := (h.mono (List.prefix_append b l)).1

theorem unrelated_siblings {c d : Text} (h : c ≠ d) : Unrelated (parent ++ [c]) (parent ++ [d]) := by
  constructor
  · intro hpre
    have heq := hpre.eq_of_length (by simp)
    exact h (by simpa using heq)
  · intro hpre
    have heq := hpre.eq_of_length (by simp)
    exact h (by simpa using heq.symm)

/-- A parent is below none of what is in it. -/
theorem not_below_parent (parent : Loc) (c : Text) (l : Loc) : ¬(parent ++ [c]) ++ l <+: parent := by
  intro hpre
  have hlength := hpre.length_le
  simp only [List.length_append, List.length_cons, List.length_nil] at hlength
  omega

end

namespace Dirs

variable {α : Type} {t t' : Dirs α} {src dst loc l path : Loc}

def isDir : Option (DirEntry α) → Bool
  | some .dir => true
  | _ => false

/-- The tree below a place. -/
def below (loc : Loc) (t : Dirs α) : Dirs α := fun l => t (loc ++ l)

def moved (src dst : Loc) (t : Dirs α) : Dirs α := fun l =>
  if dst <+: l then t (src ++ l.drop dst.length) else if src <+: l then none else t l

def without (loc : Loc) (t : Dirs α) : Dirs α := fun l => if loc <+: l then none else t l

/-- Something else stands at and below a place. -/
def replaced (t : Dirs α) (loc : Loc) (tree : Dirs α) : Dirs α := fun l => if loc <+: l then tree (l.drop loc.length) else t l

/-- The directories of a path are made where nothing stands, down to a depth. -/
def made (path : Loc) (depth : Nat) (t : Dirs α) : Dirs α := fun l =>
  if l <+: path ∧ l.length ≤ depth ∧ t l = none then some .dir else t l

/-- What can take the place of what: anything of nothing, and a file of a file. -/
def takes : Option (DirEntry α) → Option (DirEntry α) → Bool
  | some _, none => true
  | some (.file _), some (.file _) => true
  | _, _ => false

/-- `os.replace`. The host may refuse. No directory is the destination here. -/
def rename (lets : Bool) (src dst : Loc) (t : Dirs α) : Option (Dirs α) :=
  if lets ∧ takes (t src) (t dst) ∧ ¬src <+: dst ∧ isDir (t dst.dropLast) then some (t.moved src dst) else none

/-- `shutil.rmtree`, which may leave something of the tree. -/
def rmtree (left : Option (Dirs α)) (loc : Loc) (t : Dirs α) : Bool × Dirs α :=
  if isDir (t loc) then
    match left with
    | none => (true, t.without loc)
    | some left => (false, t.replaced loc left)
  else (false, t)

/-- How the host meets a `shutil.move`: whether it lets the rename through, and what a copy and a removal leave where they fail. -/
structure Moving (α : Type) where
  lets : Bool
  copied : Option (Dirs α)
  removed : Option (Dirs α)

/-- `shutil.move`: a rename, or else a copy and the removal of the source. -/
def move (host : Moving α) (src dst : Loc) (t : Dirs α) : Bool × Dirs α :=
  match t.rename host.lets src dst with
  | some t => (true, t)
  | none =>
    if src <+: dst ∨ takes (t src) (t dst) = false ∨ isDir (t dst.dropLast) = false then (false, t)
    else
      match host.copied with
      | some left => (false, t.replaced dst left)
      | none =>
        if isDir (t src) then (t.replaced dst fun l => t (src ++ l)).rmtree host.removed src
        else
          match host.removed with
          | none => (true, (t.replaced dst fun l => t (src ++ l)).without src)
          | some _ => (false, t.replaced dst fun l => t (src ++ l))

/-- `os.replace`, and `shutil.move` where it fails. -/
def renameOrMove (lets : Bool) (host : Moving α) (src dst : Loc) (t : Dirs α) : Bool × Dirs α :=
  match t.rename lets src dst with
  | some t => (true, t)
  | none => t.move host src dst

/-- A file stands where a directory of the path should. -/
def blocked (path : Loc) (t : Dirs α) : Bool := path.inits.any fun l => t l ≠ none && !isDir (t l)

/-- `mkdir(parents=True, exist_ok=True)`, which may fail at a depth. -/
def mkdirs (failing : Option Nat) (path : Loc) (t : Dirs α) : Bool × Dirs α :=
  if isDir (t path) then (true, t)
  else if blocked path t then (false, t)
  else (failing.isNone, t.made path (failing.getD path.length))

/-- Whatever stands somewhere stands in a directory. -/
def Grounded (t : Dirs α) : Prop := ∀ l m, m ≠ [] → t (l ++ m) ≠ none → isDir (t l) = true

@[simp] theorem moved_dst (l : Loc) : t.moved src dst (dst ++ l) = t (src ++ l) := by
  simp [moved]

theorem moved_src (h : ¬dst <+: src ++ l) : t.moved src dst (src ++ l) = none := by
  simp [moved, h]

theorem moved_src_self (h : ¬dst <+: src) : t.moved src dst src = none := by
  simp [moved, h]

theorem moved_of_not (hdst : ¬dst <+: l) (hsrc : ¬src <+: l) : t.moved src dst l = t l := by
  simp [moved, hdst, hsrc]

@[simp] theorem without_root : t.without loc loc = none := by
  simp [without]

theorem without_of_not (h : ¬loc <+: l) : t.without loc l = t l := by
  simp [without, h]

@[simp] theorem replaced_self (tree : Dirs α) (l : Loc) : t.replaced loc tree (loc ++ l) = tree l := by
  simp [replaced]

theorem replaced_of_not (tree : Dirs α) (h : ¬loc <+: l) : t.replaced loc tree l = t l := by
  simp [replaced, h]

theorem made_of_not {depth : Nat} (h : ¬l <+: path) : t.made path depth l = t l := by
  simp [made, h]

theorem made_of_some {depth : Nat} (h : t l ≠ none) : t.made path depth l = t l := by
  simp [made, h]

theorem rename_eq_some {lets : Bool} (h : t.rename lets src dst = some t') : lets = true ∧ t' = t.moved src dst := by
  unfold rename at h
  split at h
  · rename_i hlets
    exact ⟨hlets.1, (Option.some.inj h).symm⟩
  · cases h

theorem takes_none {entry : Option (DirEntry α)} (h : entry ≠ none) : takes entry none = true := by
  cases entry with
  | none => exact absurd rfl h
  | some _ => rfl

theorem rename_of {lets : Bool} (hlets : lets = true) (htakes : takes (t src) (t dst) = true) (hinside : ¬src <+: dst)
    (hparent : isDir (t dst.dropLast) = true) : t.rename lets src dst = some (t.moved src dst) :=
  if_pos ⟨hlets, htakes, hinside, hparent⟩

theorem rename_refused : t.rename false src dst = none := if_neg (by simp)

theorem rename_inside {lets : Bool} (h : src <+: dst) : t.rename lets src dst = none := if_neg fun hlets => hlets.2.2.1 h

theorem isDir_ne_none {entry : Option (DirEntry α)} (h : isDir entry = true) : entry ≠ none := by
  rintro rfl
  cases h

/-! ## The tree below a place -/

@[simp] theorem below_apply (l : Loc) : t.below loc l = t (loc ++ l) := rfl

@[simp] theorem below_moved : (t.moved src dst).below dst = t.below src := by
  funext l
  exact moved_dst l

theorem below_replaced_append (tree : Dirs α) : (t.replaced (loc ++ l) tree).below loc = (t.below loc).replaced l tree := by
  funext m
  simp [replaced, List.prefix_append_right_inj, ← List.drop_drop]

/-- What is unrelated to a place is not seen below it. -/
theorem below_without (h : Unrelated src loc) : (t.without src).below loc = t.below loc := by
  funext l
  exact without_of_not (h.append l)

theorem below_replaced_of (tree : Dirs α) (h : Unrelated src loc) : (t.replaced src tree).below loc = t.below loc := by
  funext l
  exact replaced_of_not tree (h.append l)

theorem below_moved_of (hsrc : Unrelated src loc) (hdst : Unrelated dst loc) : (t.moved src dst).below loc = t.below loc := by
  funext l
  exact moved_of_not (hdst.append l) (hsrc.append l)

/-! ## Removing and moving -/

theorem rmtree_of_not (left : Option (Dirs α)) (h : ¬loc <+: l) : (t.rmtree left loc).2 l = t l := by
  unfold rmtree
  split
  · cases left with
    | none => exact without_of_not h
    | some tree => exact replaced_of_not tree h
  · rfl

theorem below_rmtree (left : Option (Dirs α)) (h : Unrelated src loc) : (t.rmtree left src).2.below loc = t.below loc := by
  funext l
  exact rmtree_of_not left (h.append l)

/-- What a move that has not been refused leaves at its destination. -/
def Moving.leaves (host : Moving α) (tree : Dirs α) : Dirs α := if host.lets then tree else host.copied.getD tree

/-- Beside the source, a move that can be made changes what stands at its destination and nothing else. -/
theorem move_of_not (host : Moving α) (hapart : Unrelated src dst) (hparent : isDir (t dst.dropLast) = true) (hl : ¬src <+: l) :
    (t.move host src dst).2 l = if takes (t src) (t dst) then t.replaced dst (host.leaves (t.below src)) l else t l := by
  unfold move
  by_cases htakes : takes (t src) (t dst) = true
  · rw [if_pos htakes]
    cases hlets : host.lets with
    | true =>
      rw [rename_of rfl htakes hapart.1 hparent, Moving.leaves, hlets, if_pos rfl]
      by_cases hdst : dst <+: l
      · simp [moved, replaced, hdst]
      · exact (moved_of_not hdst hl).trans (replaced_of_not _ hdst).symm
    | false =>
      rw [rename_refused, Moving.leaves, hlets, if_neg Bool.false_ne_true]
      dsimp only
      rw [if_neg (by simp [hapart.1, htakes, hparent])]
      cases hcopied : host.copied with
      | some left => rfl
      | none =>
        dsimp only
        split
        · exact rmtree_of_not _ hl
        · cases host.removed with
          | none => exact without_of_not hl
          | some _ => rfl
  · have hrename : t.rename host.lets src dst = none := if_neg fun h => htakes h.2.1
    rw [if_neg htakes, hrename]
    dsimp only
    rw [if_pos (.inr (.inl (by simpa using htakes)))]

theorem move_inside (host : Moving α) (h : src <+: dst) : t.move host src dst = (false, t) := by
  unfold move
  rw [rename_inside h]
  dsimp only
  rw [if_pos (.inl h)]

/-- A directory is moved where the rename goes through, or else the copy and the removal. -/
theorem move_fst (host : Moving α) (hapart : Unrelated src dst) (hparent : isDir (t dst.dropLast) = true)
    (htakes : takes (t src) (t dst) = true) (hdir : isDir (t src) = true) :
    (t.move host src dst).1 = (host.lets || host.copied.isNone && host.removed.isNone) := by
  unfold move
  cases hlets : host.lets with
  | true =>
    rw [rename_of rfl htakes hapart.1 hparent]
    rfl
  | false =>
    rw [rename_refused]
    dsimp only
    rw [if_neg (by simp [hapart.1, htakes, hparent]), if_pos hdir]
    cases hcopied : host.copied with
    | some left => rfl
    | none =>
      have hsrc : (t.replaced dst fun l => t (src ++ l)) src = t src := replaced_of_not _ hapart.2
      dsimp only
      unfold rmtree
      rw [hsrc, if_pos hdir]
      cases host.removed with
      | none => rfl
      | some _ => rfl

/-- The second chance of a rename is one more way for the move to be let through. -/
theorem renameOrMove_eq (lets : Bool) (host : Moving α) :
    t.renameOrMove lets host src dst = t.move { host with lets := lets || host.lets } src dst := by
  unfold renameOrMove
  cases lets with
  | false =>
    rw [rename_refused, Bool.false_or]
  | true =>
    rw [Bool.true_or]
    unfold move
    cases hrename : t.rename true src dst with
    | some t' => rfl
    | none =>
      have hagain : t.rename host.lets src dst = none := by
        cases host.lets with
        | true => exact hrename
        | false => exact rename_refused
      rw [hagain]

/-- A move changes nothing that is unrelated to both its places. -/
theorem below_move (host : Moving α) (hsrc : Unrelated src loc) (hdst : Unrelated dst loc) : (t.move host src dst).2.below loc = t.below loc := by
  unfold move
  cases hrename : t.rename host.lets src dst with
  | some t' =>
    obtain ⟨_, rfl⟩ := rename_eq_some hrename
    exact below_moved_of hsrc hdst
  | none =>
    dsimp only
    split
    · rfl
    cases host.copied with
    | some left => exact below_replaced_of left hdst
    | none =>
      dsimp only
      split
      · funext l
        exact (rmtree_of_not _ (hsrc.append l)).trans (replaced_of_not _ (hdst.append l))
      · cases host.removed with
        | none => exact (below_without hsrc).trans (below_replaced_of _ hdst)
        | some left =>
          exact below_replaced_of (fun l => t (src ++ l)) hdst

/-! ## Making directories -/

theorem mkdirs_of_isDir {failing : Option Nat} (h : isDir (t path) = true) : t.mkdirs failing path = (true, t) := if_pos h

/-- What stands stays. -/
theorem mkdirs_of_some {failing : Option Nat} (h : t l ≠ none) : (t.mkdirs failing path).2 l = t l := by
  unfold mkdirs
  split
  · rfl
  · split
    · rfl
    · exact made_of_some h

theorem mkdirs_of_not {failing : Option Nat} (h : ¬l <+: path) : (t.mkdirs failing path).2 l = t l := by
  unfold mkdirs
  split
  · rfl
  · split
    · rfl
    · exact made_of_not h

theorem below_mkdirs_of {failing : Option Nat} (h : ¬loc <+: path) : (t.mkdirs failing path).2.below loc = t.below loc := by
  funext l
  exact mkdirs_of_not fun hpre => h ((List.prefix_append loc l).trans hpre)

theorem blocked_of_file (hsome : t path ≠ none) (hfile : ¬isDir (t path) = true) : blocked path t = true := by
  unfold blocked
  rw [List.any_eq_true]
  exact ⟨path, (List.mem_inits _ _).2 (List.prefix_refl _), by simp [hsome, hfile]⟩

/-- Where the directories have been made, the path is one. -/
theorem mkdirs_isDir {failing : Option Nat} (h : (t.mkdirs failing path).1 = true) : isDir ((t.mkdirs failing path).2 path) = true := by
  unfold mkdirs at h ⊢
  by_cases hdir : isDir (t path) = true
  · rwa [if_pos hdir]
  rw [if_neg hdir] at h ⊢
  by_cases hblocked : blocked path t = true
  · rw [if_pos hblocked] at h
    cases h
  rw [if_neg hblocked] at h ⊢
  have hnone : t path = none := by
    by_contra hsome
    exact hblocked (blocked_of_file hsome hdir)
  have hfailing : failing = none := by simpa using h
  simp [hfailing, made, hnone, isDir]

theorem blocked_append (habove : ∀ l, l <+: loc → isDir (t l) = true) : blocked (loc ++ path) t = blocked path (t.below loc) := by
  rw [Bool.eq_iff_iff]
  unfold blocked
  simp only [List.any_eq_true, List.mem_inits]
  constructor
  · rintro ⟨l, hl, hfile⟩
    rcases List.prefix_or_prefix_of_prefix hl (List.prefix_append loc path) with hpre | ⟨m, rfl⟩
    · simp [habove l hpre] at hfile
    · exact ⟨m, (List.prefix_append_right_inj loc).1 hl, hfile⟩
  · rintro ⟨l, hl, hfile⟩
    exact ⟨loc ++ l, (List.prefix_append_right_inj loc).2 hl, hfile⟩

theorem made_append {depth depth' : Nat} (hroot : t loc ≠ none)
    (hdepth : ∀ l : Loc, l ≠ [] → l <+: path → ((loc ++ l).length ≤ depth ↔ l.length ≤ depth')) :
    (t.made (loc ++ path) depth).below loc = (t.below loc).made path depth' := by
  funext l
  rw [below_apply]
  unfold made
  by_cases hnone : t (loc ++ l) = none
  · have hl : l ≠ [] := by
      rintro rfl
      exact hroot (by simpa using hnone)
    by_cases hpre : l <+: path
    · simp only [List.prefix_append_right_inj, hdepth l hl hpre]
      rfl
    · rw [if_neg fun h => hpre ((List.prefix_append_right_inj loc).1 h.1), if_neg fun h => hpre h.1, below_apply]
  · rw [if_neg fun h => hnone h.2.2, if_neg fun h => hnone h.2.2, below_apply]

/-- Making directories below a directory is seen below it as making directories there. -/
theorem mkdirs_append (failing : Option Nat) (habove : ∀ l, l <+: loc → isDir (t l) = true) :
    (t.mkdirs failing (loc ++ path)).1 = ((t.below loc).mkdirs (failing.map (· - loc.length)) path).1 ∧
      (t.mkdirs failing (loc ++ path)).2.below loc = ((t.below loc).mkdirs (failing.map (· - loc.length)) path).2 := by
  unfold mkdirs
  rw [blocked_append habove, below_apply]
  by_cases hdir : isDir (t (loc ++ path)) = true
  · rw [if_pos hdir, if_pos hdir]
    exact ⟨rfl, rfl⟩
  rw [if_neg hdir, if_neg hdir]
  by_cases hblocked : blocked path (t.below loc) = true
  · rw [if_pos hblocked, if_pos hblocked]
    exact ⟨rfl, rfl⟩
  rw [if_neg hblocked, if_neg hblocked]
  refine ⟨by simp, made_append (isDir_ne_none (habove loc (List.prefix_refl _))) ?_⟩
  intro l hl hpre
  have hpositive := List.length_pos_of_ne_nil hl
  cases failing with
  | none =>
    simp only [Option.map_none, Option.getD_none, List.length_append]
    omega
  | some depth =>
    simp only [Option.map_some, Option.getD_some, List.length_append]
    omega

end Dirs

end Lib

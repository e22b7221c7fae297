import Palworld.Lib.Text
import Mathlib.Tactic.Common

/-!
# Regular expressions that backtrack

A pattern lists its matches in the order in which they are tried, each with what it leaves. A match
of the whole is the first that is listed, so what a greedy part takes depends on what comes behind.
-/

namespace Lib

/-- A pattern with groups in `α`. -/
def Re (α : Type) : Type := Text → List (α × Text)

namespace Re

instance : Monad Re where
  pure a := fun s => [(a, s)]
  bind r f := fun s => (r s).flatMap fun m => f m.1 m.2

/-- One character of a class. -/
def char (p : Char → Bool) : Re Text
  | [] => []
  | c :: s => if p c then [([c], s)] else []

/-- `p*`. -/
def many (p : Char → Bool) : Re Text
  | [] => [([], [])]
  | c :: s => if p c then (many p s).map (fun m => (c :: m.1, m.2)) ++ [([], c :: s)] else [([], c :: s)]

/-- `p+`. -/
def many1 (p : Char → Bool) : Re Text := do
  let first ← char p
  let rest ← many p
  return first ++ rest

/-- `p{n}`. -/
def exactly (p : Char → Bool) : Nat → Re Text
  | 0 => pure []
  | n + 1 => do
    let first ← char p
    let rest ← exactly p n
    return first ++ rest

/-- The characters of `w`, one after the other, up to `fold`. -/
def word (fold : Char → Char) : Text → Re Text
  | [] => pure []
  | l :: w => do
    let first ← char (fun c => fold c == l)
    let rest ← word fold w
    return first ++ rest

/-- `(r)?`. -/
def opt {α : Type} (r : Re α) : Re (Option α) := fun s => (r s).map (fun m => (some m.1, m.2)) ++ [(none, s)]

/-- `(r)?`, with the empty text where `r` is left out. -/
def orEmpty (r : Re Text) : Re Text := do
  let m ← opt r
  return m.getD []

/-- `p{0,n}`. -/
def upTo (p : Char → Bool) : Nat → Re Text
  | 0 => pure []
  | n + 1 => orEmpty do
    let first ← char p
    let rest ← upTo p n
    return first ++ rest

/-- `p{low,high}`. -/
def between (p : Char → Bool) (low high : Nat) : Re Text := do
  let first ← exactly p low
  let rest ← upTo p (high - low)
  return first ++ rest

/-- `p{n,}`. -/
def atLeast (p : Char → Bool) (n : Nat) : Re Text := do
  let first ← exactly p n
  let rest ← many p
  return first ++ rest

/-- `(?:w|...)`, up to `fold`. -/
def oneOf (fold : Char → Char) (words : List Text) : Re Text := fun s => words.flatMap fun w => word fold w s

/-- `$`. -/
def atEnd : Re Unit
  | [] => [((), [])]
  | ['\n'] => [((), ['\n'])]
  | _ => []

/-- `re.match`. -/
def firstMatch {α : Type} (r : Re α) (s : Text) : Option α := (r s).head?.map Prod.fst

/-- The first match of `r` is `a`, and it leaves `t`. -/
def Yields {α : Type} (r : Re α) (s : Text) (a : α) (t : Text) : Prop := (r s).head? = some (a, t)

/-- There is no match. -/
def Fails {α : Type} (r : Re α) (s : Text) : Prop := r s = []

/-- A run of `p` does not go on in `s`. -/
def Stops (p : Char → Bool) (s : Text) : Prop := ∀ c ∈ s.head?, p c = false

section

variable {α β : Type} {r : Re α} {f : α → Re β} {s t u : Text} {a : α} {b : β} {p q : Char → Bool}

theorem char_cons {c : Char} : char p (c :: s) = if p c then [([c], s)] else [] := rfl

theorem many_cons {c : Char} :
    many p (c :: s) = if p c then (many p s).map (fun m => (c :: m.1, m.2)) ++ [([], c :: s)] else [([], c :: s)] := rfl

theorem bind_apply : (r >>= f) s = (r s).flatMap fun m => f m.1 m.2 := rfl

theorem Yields.firstMatch (h : Yields r s a t) : r.firstMatch s = some a := by
  unfold Re.firstMatch
  rw [h]
  rfl

theorem Fails.firstMatch (h : Fails r s) : r.firstMatch s = none := by
  unfold Re.firstMatch
  rw [h]
  rfl

theorem yields_pure : Yields (pure a : Re α) s a s := rfl

theorem Yields.bind (h : Yields r s a t) (hf : Yields (f a) t b u) : Yields (r >>= f) s b u := by
  obtain ⟨rest, hrest⟩ := List.head?_eq_some_iff.mp h
  unfold Yields
  rw [bind_apply, hrest, List.flatMap_cons, List.head?_append, hf]
  rfl

/-- What comes behind fails after each match. -/
theorem Fails.of_bind (h : ∀ a t, (a, t) ∈ r s → Fails (f a) t) : Fails (r >>= f) s :=
  List.flatMap_eq_nil_iff.mpr fun m hm => h m.1 m.2 hm

theorem Fails.bind (h : Fails r s) : Fails (r >>= f) s := by
  refine Fails.of_bind fun a t hm => ?_
  rw [h] at hm
  cases hm

theorem Stops.mono (h : Stops p s) (hpq : ∀ c, q c = true → p c = true) : Stops q s := by
  intro c hc
  have hp := h c hc
  cases hq : q c with
  | false => rfl
  | true => rw [hpq c hq] at hp; cases hp

theorem stops_nil : Stops p [] := nofun

theorem stops_cons {c : Char} : Stops p (c :: s) ↔ p c = false := by
  unfold Stops
  simp

/-! ## One character -/

theorem yields_char {c : Char} (h : p c = true) : Yields (char p) (c :: s) [c] s := by
  unfold Yields
  rw [char_cons, if_pos h]
  rfl

theorem fails_char (h : Stops p s) : Fails (char p) s := by
  cases s with
  | nil => rfl
  | cons c s =>
    unfold Fails
    rw [char_cons, stops_cons.mp h]
    rfl

theorem mem_char {w : Text} (h : (w, t) ∈ char p s) : ∃ c, p c = true ∧ s = c :: t := by
  cases s with
  | nil => cases h
  | cons c s =>
    rw [char_cons] at h
    split at h
    · rename_i hc
      have heq := List.mem_singleton.mp h
      cases heq
      exact ⟨c, hc, rfl⟩
    · cases h

/-! ## Runs -/

theorem yields_many {w : Text} (hw : ∀ c ∈ w, p c = true) (hs : Stops p s) : Yields (many p) (w ++ s) w s := by
  induction w with
  | nil =>
    cases s with
    | nil => rfl
    | cons c s =>
      unfold Yields
      rw [List.nil_append, many_cons, stops_cons.mp hs]
      rfl
  | cons c w ih =>
    have htail := ih fun d hd => hw d (List.mem_cons_of_mem c hd)
    unfold Yields
    rw [List.cons_append, many_cons, if_pos (hw c List.mem_cons_self), List.head?_append, List.head?_map, htail]
    rfl

/-- A run may be given back, from its end. -/
theorem mem_many {w : Text} (hw : ∀ c ∈ w, p c = true) (hs : Stops p s) {x : Text} (h : (x, t) ∈ many p (w ++ s)) :
    ∃ v, t = v ++ s ∧ ∀ c ∈ v, p c = true := by
  induction w generalizing x with
  | nil =>
    refine ⟨[], ?_, nofun⟩
    cases s with
    | nil =>
      obtain heq := List.mem_singleton.mp h
      cases heq
      rfl
    | cons c s =>
      rw [List.nil_append, many_cons, stops_cons.mp hs, if_neg Bool.false_ne_true, List.mem_singleton] at h
      cases h
      rfl
  | cons c w ih =>
    rw [List.cons_append, many_cons, if_pos (hw c List.mem_cons_self), List.mem_append, List.mem_map, List.mem_singleton] at h
    rcases h with ⟨⟨x', t'⟩, hm, heq⟩ | heq
    · cases heq
      exact ih (fun d hd => hw d (List.mem_cons_of_mem c hd)) hm
    · cases heq
      exact ⟨c :: w, rfl, hw⟩

theorem yields_many1 {w : Text} (hne : w ≠ []) (hw : ∀ c ∈ w, p c = true) (hs : Stops p s) : Yields (many1 p) (w ++ s) w s := by
  cases w with
  | nil => exact absurd rfl hne
  | cons c w =>
    unfold many1
    exact (yields_char (hw c List.mem_cons_self)).bind
      ((yields_many (fun d hd => hw d (List.mem_cons_of_mem c hd)) hs).bind yields_pure)

theorem fails_many1 (h : Stops p s) : Fails (many1 p) s := (fails_char h).bind

theorem mem_many1 {w : Text} (hw : ∀ c ∈ w, p c = true) (hs : Stops p s) {x : Text} (h : (x, t) ∈ many1 p (w ++ s)) :
    ∃ v, t = v ++ s ∧ ∀ c ∈ v, p c = true := by
  cases w with
  | nil =>
    rw [List.nil_append, fails_many1 hs] at h
    cases h
  | cons c w =>
    unfold many1 at h
    rw [List.cons_append, bind_apply, char_cons, if_pos (hw c List.mem_cons_self), List.flatMap_singleton, bind_apply,
      List.mem_flatMap] at h
    obtain ⟨⟨x', t'⟩, hm, heq⟩ := h
    have heq := List.mem_singleton.mp heq
    cases heq
    exact mem_many (fun d hd => hw d (List.mem_cons_of_mem c hd)) hs hm

theorem yields_exactly {w : Text} {n : Nat} (hlen : w.length = n) (hw : ∀ c ∈ w, p c = true) : Yields (exactly p n) (w ++ s) w s := by
  induction n generalizing w with
  | zero =>
    obtain rfl := List.eq_nil_of_length_eq_zero hlen
    exact yields_pure
  | succ n ih =>
    cases w with
    | nil => cases hlen
    | cons c w =>
      unfold exactly
      exact (yields_char (hw c List.mem_cons_self)).bind
        ((ih (Nat.succ.inj hlen) fun d hd => hw d (List.mem_cons_of_mem c hd)).bind yields_pure)

/-! ## Words -/

theorem yields_word {fold : Char → Char} {w k : Text} (h : k.map fold = w) : Yields (word fold w) (k ++ s) k s := by
  subst h
  induction k with
  | nil => exact yields_pure
  | cons c k ih =>
    have hc : Yields (char fun d => fold d == fold c) (c :: (k ++ s)) [c] (k ++ s) := yields_char (beq_self_eq_true (fold c))
    rw [List.map_cons]
    unfold word
    exact hc.bind (ih.bind yields_pure)

theorem fails_word {fold : Char → Char} {l : Char} {w : Text} (h : Stops (fun c => fold c == l) s) : Fails (word fold (l :: w)) s :=
  (fails_char h).bind

/-- A word is found where the text begins with it. -/
theorem fails_word_id {w : Text} (h : ¬ w <+: s) : Fails (word id w) s := by
  induction w generalizing s with
  | nil => exact absurd s.nil_prefix h
  | cons l w ih =>
    unfold word
    cases s with
    | nil => exact Fails.bind rfl
    | cons c s =>
      refine Fails.of_bind fun a t hm => ?_
      obtain ⟨d, hd, heq⟩ := mem_char hm
      cases heq
      obtain rfl : c = l := beq_iff_eq.mp hd
      refine (ih fun hw => h ?_).bind
      exact List.cons_prefix_cons.mpr ⟨rfl, hw⟩

theorem word_id_append {w : Text} : word id w (w ++ s) = [(w, s)] := by
  induction w with
  | nil => rfl
  | cons l w ih =>
    unfold word
    rw [bind_apply, List.cons_append, char_cons, if_pos (by simp), List.flatMap_singleton, bind_apply, ih]
    rfl

theorem fails_behind_word {w : Text} {f : Text → Re β} (h : Fails (f w) s) : Fails (word id w >>= f) (w ++ s) := by
  unfold Fails
  rw [bind_apply, word_id_append, List.flatMap_singleton]
  exact h

/-! ## Optional parts -/

theorem Yields.opt (h : Yields r s a t) : Yields r.opt s (some a) t := by
  unfold Yields Re.opt
  rw [List.head?_append, List.head?_map, h]
  rfl

theorem Fails.opt (h : Fails r s) : Yields r.opt s none s := by
  unfold Yields Re.opt
  rw [h]
  rfl

theorem mem_opt {m : Option α} (h : (m, t) ∈ r.opt s) : (∃ a, (a, t) ∈ r s) ∨ t = s := by
  rcases List.mem_append.mp h with h | h
  · obtain ⟨⟨a, t'⟩, hm, heq⟩ := List.mem_map.mp h
    cases heq
    exact Or.inl ⟨a, hm⟩
  · rw [List.mem_singleton] at h
    cases h
    exact Or.inr rfl

theorem Yields.orEmpty {r : Re Text} {w : Text} (h : Yields r s w t) : Yields r.orEmpty s w t := h.opt.bind yields_pure

theorem Fails.orEmpty {r : Re Text} (h : Fails r s) : Yields r.orEmpty s [] s := h.opt.bind yields_pure

theorem mem_orEmpty {r : Re Text} {w : Text} (h : (w, t) ∈ r.orEmpty s) : (∃ a, (a, t) ∈ r s) ∨ t = s := by
  unfold Re.orEmpty at h
  rw [bind_apply, List.mem_flatMap] at h
  obtain ⟨⟨m, t'⟩, hm, heq⟩ := h
  have heq := List.mem_singleton.mp heq
  cases heq
  exact mem_opt hm

/-- A character that may be left out. -/
theorem yields_orEmpty_char {w : Text} (hw : w = [] ∨ ∃ c, p c = true ∧ w = [c]) (hs : Stops p s) :
    Yields (char p).orEmpty (w ++ s) w s := by
  rcases hw with rfl | ⟨c, hc, rfl⟩
  · exact (fails_char hs).orEmpty
  · exact (yields_char hc).orEmpty

theorem yields_atEnd : Yields atEnd [] () [] := rfl

end

end Re

/-! ## A `$` at the end -/

section

variable {name : Text → Bool} {t : Text}

/-- Where no name holds a newline, a pattern with a `$` finds before a newline at the end what is a name. -/
theorem dollar_newline (hname : ∀ t, name t = true → '\n' ∉ t) :
    (name (t ++ ['\n']) || ((t ++ ['\n']).getLast? == some '\n' && name (t ++ ['\n']).dropLast)) = name t := by
  have hnot : name (t ++ ['\n']) = false := by
    rw [Bool.eq_false_iff]
    exact fun h => hname _ h (by simp)
  simp [hnot]

/-- Without a newline at the end it finds the names. -/
theorem dollar_end (hend : ∀ front, t ≠ front ++ ['\n']) :
    (name t || (t.getLast? == some '\n' && name t.dropLast)) = name t := by
  have hlast : (t.getLast? == some '\n') = false := by
    rw [beq_eq_false_iff_ne]
    intro hlast
    obtain ⟨front, rfl⟩ := List.getLast?_eq_some_iff.mp hlast
    exact hend front rfl
  rw [hlast, Bool.false_and, Bool.or_false]

end

end Lib

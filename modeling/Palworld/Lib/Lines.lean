import Palworld.Lib.Str
import Mathlib.Data.List.Infix

/-!
# Lines

A text read line by line. A line keeps its end.
-/

namespace Lib

/-- The lines with their ends. -/
def linesWithEnds (isEnd : Char → Bool) : Text → List Text
  | [] => []
  | c :: s =>
    if isEnd c then [c] :: linesWithEnds isEnd s
    else
      match linesWithEnds isEnd s with
      | [] => [[c]]
      | line :: lines => (c :: line) :: lines

section

variable {isEnd : Char → Bool} {text line body stop a b t t' : Text} {c : Char}

theorem linesWithEnds_spec (h : line ∈ linesWithEnds isEnd text) :
    ∃ body stop, line = body ++ stop ∧ (∀ c ∈ body, isEnd c = false ∧ c ∈ text) ∧ (stop = [] ∨ ∃ c, stop = [c] ∧ isEnd c = true) := by
  induction text generalizing line with
  | nil => cases h
  | cons c s ih =>
    unfold linesWithEnds at h
    split at h
    · rename_i hend
      rcases List.mem_cons.mp h with rfl | h
      · exact ⟨[], [c], rfl, nofun, .inr ⟨c, rfl, hend⟩⟩
      · obtain ⟨body, stop, hline, hbody, hstop⟩ := ih h
        exact ⟨body, stop, hline, fun d hd => ⟨(hbody d hd).1, List.mem_cons_of_mem c (hbody d hd).2⟩, hstop⟩
    · rename_i hend
      have hc : isEnd c = false := by simpa using hend
      split at h
      · obtain rfl := List.mem_singleton.mp h
        exact ⟨[c], [], rfl, by simp [hc], .inl rfl⟩
      · rename_i first lines hlines
        rcases List.mem_cons.mp h with rfl | h
        · obtain ⟨body, stop, rfl, hbody, hstop⟩ := ih (hlines ▸ List.mem_cons_self ..)
          refine ⟨c :: body, stop, rfl, ?_, hstop⟩
          rw [List.forall_mem_cons]
          exact ⟨⟨hc, List.mem_cons_self ..⟩, fun d hd => ⟨(hbody d hd).1, List.mem_cons_of_mem c (hbody d hd).2⟩⟩
        · obtain ⟨body, stop, hline, hbody, hstop⟩ := ih (hlines ▸ List.mem_cons_of_mem first h)
          exact ⟨body, stop, hline, fun d hd => ⟨(hbody d hd).1, List.mem_cons_of_mem c (hbody d hd).2⟩, hstop⟩

theorem linesWithEnds_single {isEnd : Char → Bool} (hline : ∀ c ∈ line, isEnd c = false) (hne : line ≠ []) :
    linesWithEnds isEnd line = [line] := by
  induction line with
  | nil => exact absurd rfl hne
  | cons c line ih =>
    rw [List.forall_mem_cons] at hline
    unfold linesWithEnds
    rw [if_neg (by simp [hline.1])]
    cases line with
    | nil => rfl
    | cons d line => rw [ih hline.2 (List.cons_ne_nil d line)]

theorem linesWithEnds_end (hc : isEnd c = true) : linesWithEnds isEnd (c :: t) = [c] :: linesWithEnds isEnd t := by
  rw [linesWithEnds, if_pos hc]

theorem linesWithEnds_eq_nil : linesWithEnds isEnd t = [] ↔ t = [] := by
  cases t with
  | nil => simp [linesWithEnds]
  | cons c t =>
    unfold linesWithEnds
    split
    · simp
    · split
      · simp
      · simp

theorem linesWithEnds_inner {lines : List Text} (hc : isEnd c = false) (h : linesWithEnds isEnd t = line :: lines) :
    linesWithEnds isEnd (c :: t) = (c :: line) :: lines := by
  rw [linesWithEnds, if_neg (by simp [hc]), h]

theorem linesWithEnds_body (hbody : ∀ c ∈ body, isEnd c = false) (hc : isEnd c = true) :
    linesWithEnds isEnd (body ++ c :: t) = (body ++ [c]) :: linesWithEnds isEnd t := by
  induction body with
  | nil => exact linesWithEnds_end hc
  | cons d body ih =>
    rw [List.forall_mem_cons] at hbody
    exact linesWithEnds_inner hbody.1 (ih hbody.2)

/-- What ends with the end of a line is read on its own. -/
theorem linesWithEnds_append (hc : isEnd c = true) : linesWithEnds isEnd (a ++ c :: t) = linesWithEnds isEnd (a ++ [c]) ++ linesWithEnds isEnd t := by
  induction a with
  | nil =>
    rw [List.nil_append, List.nil_append, linesWithEnds_end hc, linesWithEnds_end hc]
    rfl
  | cons d a ih =>
    rw [List.cons_append, List.cons_append]
    by_cases hd : isEnd d = true
    · rw [linesWithEnds_end hd, linesWithEnds_end hd, ih, List.cons_append]
    · have hd : isEnd d = false := by simpa using hd
      cases hlines : linesWithEnds isEnd (a ++ [c]) with
      | nil => exact absurd (linesWithEnds_eq_nil.mp hlines) (by simp)
      | cons line lines =>
        rw [hlines] at ih
        rw [linesWithEnds_inner hd hlines, linesWithEnds_inner hd ih]
        rfl

/-- Of a text cut off somewhere, the last line may be cut off as well. -/
theorem linesWithEnds_cut (isEnd : Char → Bool) (h : a <+: t) : linesWithEnds isEnd a <+: linesWithEnds isEnd t ∨
    ∃ lines part line rest, linesWithEnds isEnd a = lines ++ [part] ∧ linesWithEnds isEnd t = lines ++ line :: rest ∧ part <+: line := by
  obtain ⟨b, rfl⟩ := h
  induction a with
  | nil => exact .inl List.nil_prefix
  | cons c a ih =>
    rw [List.cons_append]
    by_cases hc : isEnd c = true
    · rw [linesWithEnds_end hc, linesWithEnds_end hc]
      rcases ih with ih | ⟨lines, part, line, rest, ha, ht, hpart⟩
      · exact .inl (List.cons_prefix_cons.mpr ⟨rfl, ih⟩)
      · exact .inr ⟨[c] :: lines, part, line, rest, by rw [ha]; rfl, by rw [ht]; rfl, hpart⟩
    · have hc : isEnd c = false := by simpa using hc
      cases ha : linesWithEnds isEnd a with
      | nil =>
        obtain rfl := linesWithEnds_eq_nil.mp ha
        have hone : linesWithEnds isEnd [c] = [[c]] := linesWithEnds_single (by simp [hc]) (List.cons_ne_nil c [])
        right
        cases hb : linesWithEnds isEnd b with
        | nil =>
          obtain rfl := linesWithEnds_eq_nil.mp hb
          exact ⟨[], [c], [c], [], hone, hone, List.prefix_refl [c]⟩
        | cons line rest => exact ⟨[], [c], c :: line, rest, hone, linesWithEnds_inner hc hb, ⟨line, rfl⟩⟩
      | cons first more =>
        rw [linesWithEnds_inner hc ha]
        rw [ha] at ih
        rcases ih with ⟨after, hafter⟩ | ⟨lines, part, line, rest, hlines, ht, hpart⟩
        · left
          rw [linesWithEnds_inner hc hafter.symm]
          exact ⟨after, rfl⟩
        · right
          cases lines with
          | nil =>
            obtain ⟨rfl, rfl⟩ := List.cons.inj hlines
            exact ⟨[], c :: first, c :: line, rest, rfl, linesWithEnds_inner hc ht, List.cons_prefix_cons.mpr ⟨rfl, hpart⟩⟩
          | cons head lines =>
            obtain ⟨rfl, rfl⟩ := List.cons.inj hlines
            exact ⟨(c :: first) :: lines, part, line, rest, rfl, linesWithEnds_inner hc ht, hpart⟩

/-- The first lines are what is read of a text cut off behind them. -/
theorem linesWithEnds_take (isEnd : Char → Bool) (t : Text) (n : Nat) :
    ∃ a, a <+: t ∧ linesWithEnds isEnd a = (linesWithEnds isEnd t).take n := by
  induction t generalizing n with
  | nil => exact ⟨[], List.prefix_refl [], by simp [linesWithEnds]⟩
  | cons c t ih =>
    cases n with
    | zero => exact ⟨[], List.nil_prefix, rfl⟩
    | succ n =>
      by_cases hc : isEnd c = true
      · obtain ⟨a, ha, hlines⟩ := ih n
        refine ⟨c :: a, List.cons_prefix_cons.mpr ⟨rfl, ha⟩, ?_⟩
        rw [linesWithEnds_end hc, linesWithEnds_end hc, List.take_succ_cons, hlines]
      · have hc : isEnd c = false := by simpa using hc
        obtain ⟨a, ha, hlines⟩ := ih (n + 1)
        refine ⟨c :: a, List.cons_prefix_cons.mpr ⟨rfl, ha⟩, ?_⟩
        cases ht : linesWithEnds isEnd t with
        | nil =>
          obtain rfl := linesWithEnds_eq_nil.mp ht
          obtain rfl := List.prefix_nil.mp ha
          rw [linesWithEnds_single (by simp [hc]) (List.cons_ne_nil c [])]
          simp
        | cons line lines =>
          rw [ht, List.take_succ_cons] at hlines
          rw [linesWithEnds_inner hc ht, linesWithEnds_inner hc hlines, List.take_succ_cons]

theorem cut_at_line (hbody : ∀ c ∈ body, isEnd c = false) (h : a <+: body ++ c :: t) (hc : isEnd c = true) :
    (a <+: body ∧ ∀ d ∈ a, isEnd d = false) ∨ ∃ b, a = body ++ c :: b ∧ b <+: t := by
  rcases List.prefix_or_prefix_of_prefix h (List.prefix_append body (c :: t)) with ha | ⟨b, rfl⟩
  · exact .inl ⟨ha, fun d hd => hbody d (ha.subset hd)⟩
  · rw [List.prefix_append_right_inj] at h
    cases b with
    | nil =>
      rw [List.append_nil]
      exact .inl ⟨List.prefix_refl body, hbody⟩
    | cons d b =>
      obtain ⟨rfl, hb⟩ := List.cons_prefix_cons.mp h
      exact .inr ⟨b, rfl, hb⟩

/-- A text is one line that may lack its end, or a line before another text. -/
theorem lines_cases (isEnd : Char → Bool) (t : Text) :
    (∀ c ∈ t, isEnd c = false) ∨ ∃ body c rest, t = body ++ c :: rest ∧ (∀ d ∈ body, isEnd d = false) ∧ isEnd c = true := by
  induction t with
  | nil => left; simp
  | cons c t ih =>
    by_cases hc : isEnd c = true
    · exact .inr ⟨[], c, t, rfl, by simp, hc⟩
    · have hc : isEnd c = false := by simpa using hc
      rcases ih with h | ⟨body, d, rest, rfl, hbody, hd⟩
      · left
        rw [List.forall_mem_cons]
        exact ⟨hc, h⟩
      · refine .inr ⟨c :: body, d, rest, rfl, ?_, hd⟩
        rw [List.forall_mem_cons]
        exact ⟨hc, hbody⟩

/-- Induction over the lines of a text. -/
@[elab_as_elim]
theorem lines_induction {motive : Text → Prop} (isEnd : Char → Bool) (last : ∀ t, (∀ c ∈ t, isEnd c = false) → motive t)
    (line : ∀ body c t, (∀ d ∈ body, isEnd d = false) → isEnd c = true → motive t → motive (body ++ c :: t)) (t : Text) : motive t := by
  induction hn : t.length using Nat.strongRecOn generalizing t with
  | ind n ih =>
    subst hn
    rcases lines_cases isEnd t with h | ⟨body, c, rest, rfl, hbody, hc⟩
    · exact last t h
    · refine line body c rest hbody hc (ih _ ?_ rest rfl)
      rw [List.length_append, List.length_cons]
      omega

theorem infix_of_mem_linesWithEnds (h : line ∈ linesWithEnds isEnd t) : line <:+: t := by
  induction t using lines_induction isEnd with
  | last t hline =>
    cases t with
    | nil => cases h
    | cons c t =>
      rw [linesWithEnds_single hline (List.cons_ne_nil c t), List.mem_singleton] at h
      rw [h]
  | line body c t hbody hc ih =>
    rw [linesWithEnds_body hbody hc, List.mem_cons] at h
    rcases h with rfl | h
    · exact ⟨[], t, by simp⟩
    · have ht : t <:+: body ++ c :: t := ⟨body ++ [c], [], by simp⟩
      exact (ih h).trans ht

end

/-! ## Where a mark stands -/

section

variable {c : Char} {pat a z : Text}

theorem infix_skip (hc : c ∉ a) : c :: pat <:+: a ++ z ↔ c :: pat <:+: z := by
  constructor
  · intro h
    rcases List.infix_append_iff_ne_nil.mp h with h | h | ⟨l₁, l₂, hne, -, hpat, hsuffix, -⟩
    · exact absurd (h.subset (List.mem_cons_self ..)) hc
    · exact h
    · cases l₁ with
      | nil => exact absurd rfl hne
      | cons d l₁ =>
        obtain ⟨rfl, -⟩ := List.cons.inj hpat
        exact absurd (hsuffix.subset (List.mem_cons_self ..)) hc
  · exact List.infix_append_of_infix_right

/-- A mark without `c` does not reach across `c`. -/
theorem infix_split (hc : c ∉ pat) (h : pat <:+: a ++ c :: z) : pat <:+: a ∨ pat <:+: z := by
  rcases List.infix_append_iff_ne_nil.mp h with h | h | ⟨l₁, l₂, -, hne, rfl, -, hpre⟩
  · exact .inl h
  · rcases List.infix_cons_iff.mp h with h | h
    · cases pat with
      | nil => exact .inl (List.nil_infix)
      | cons d pat =>
        obtain ⟨rfl, -⟩ := List.cons_prefix_cons.mp h
        exact absurd (List.mem_cons_self ..) hc
    · exact .inr h
  · cases l₂ with
    | nil => exact absurd rfl hne
    | cons d l₂ =>
      obtain ⟨rfl, -⟩ := List.cons_prefix_cons.mp hpre
      exact absurd (List.mem_append_right l₁ (List.mem_cons_self ..)) hc

/-- A mark that begins with the only `c` in it begins at a `c`. -/
theorem infix_head (hpat : c ∉ pat) (hz : c ∉ z) (h : c :: pat <:+: a ++ c :: z) : c :: pat <:+: a ∨ c :: pat <+: c :: z := by
  rcases List.infix_append_iff_ne_nil.mp h with h | h | ⟨l₁, l₂, hl₁, hl₂, hsplit, -, hpre⟩
  · exact .inl h
  · rcases List.infix_cons_iff.mp h with h | h
    · exact .inr h
    · exact absurd (h.subset (List.mem_cons_self ..)) hz
  · cases l₁ with
    | nil => exact absurd rfl hl₁
    | cons d l₁ =>
      cases l₂ with
      | nil => exact absurd rfl hl₂
      | cons e l₂ =>
        obtain ⟨rfl, -⟩ := List.cons_prefix_cons.mp hpre
        obtain ⟨-, rfl⟩ := List.cons.inj hsplit
        exact absurd (List.mem_append_right l₁ (List.mem_cons_self ..)) hpat

end

end Lib

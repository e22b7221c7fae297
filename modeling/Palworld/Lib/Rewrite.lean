import Mathlib.Data.List.Basic
import Mathlib.Data.List.Infix

/-!
# Replacing the matches of a pattern

The leftmost match is replaced, then the next one behind it. A pattern is a matcher for the
beginning of a list. Where it only asks whether there is a match, it is a machine that reads
item after item.
-/

namespace Lib

variable {α : Type}

/-- What takes the place of a match at the beginning of the list, and the rest behind the match. -/
abbrev Matcher (α : Type) := List α → Option (List α × List α)

/-- A match is not empty. -/
def Matcher.Shrinks (m : Matcher α) : Prop := ∀ s r rest, m s = some (r, rest) → rest.length < s.length

def subFuel (m : Matcher α) : Nat → List α → List α
  | 0, s => s
  | _ + 1, [] => []
  | fuel + 1, c :: s =>
    match m (c :: s) with
    | some (r, rest) => r ++ subFuel m fuel rest
    | none => c :: subFuel m fuel s

def sub (m : Matcher α) (s : List α) : List α := subFuel m s.length s

/-- `u` is `s` with its matches replaced. -/
inductive Subs (m : Matcher α) : List α → List α → Prop
  | nil : Subs m [] []
  | copy {c : α} {s u : List α} (hnone : m (c :: s) = none) (h : Subs m s u) : Subs m (c :: s) (c :: u)
  | replace {s r rest u : List α} (hmatch : m s = some (r, rest)) (h : Subs m rest u) : Subs m s (r ++ u)

variable {m : Matcher α} {s t u p : List α}

theorem subs_subFuel (hm : m.Shrinks) {fuel : Nat} (hfuel : s.length ≤ fuel) : Subs m s (subFuel m fuel s) := by
  induction fuel generalizing s with
  | zero =>
    obtain rfl : s = [] := List.length_eq_zero_iff.mp (by omega)
    exact .nil
  | succ fuel ih =>
    cases s with
    | nil => exact .nil
    | cons c s =>
      rw [List.length_cons] at hfuel
      unfold subFuel
      split
      · rename_i r rest hmatch
        have hrest := hm _ _ _ hmatch
        rw [List.length_cons] at hrest
        exact .replace hmatch (ih (by omega))
      · rename_i hnone
        exact .copy hnone (ih (by omega))

theorem subs_sub (hm : m.Shrinks) (s : List α) : Subs m s (sub m s) := subs_subFuel hm (Nat.le_refl _)

theorem Subs.unique (hm : m.Shrinks) (h : Subs m s t) (h' : Subs m s u) : t = u := by
  induction h generalizing u with
  | nil =>
    cases h' with
    | nil => rfl
    | replace hmatch h' => exact absurd (hm _ _ _ hmatch) (Nat.not_lt_zero _)
  | copy hnone h ih =>
    cases h' with
    | copy _ h' => rw [ih h']
    | replace hmatch h' =>
      rw [hnone] at hmatch
      cases hmatch
  | replace hmatch h ih =>
    cases h' with
    | nil => exact absurd (hm _ _ _ hmatch) (Nat.not_lt_zero _)
    | copy hnone h' =>
      rw [hnone] at hmatch
      cases hmatch
    | replace hmatch' h' =>
      rw [hmatch] at hmatch'
      cases hmatch'
      rw [ih h']

theorem Subs.eq_nil (h : Subs m s u) (hm : ∀ v r rest, m v = some (r, rest) → r ≠ []) (hu : u = []) : s = [] := by
  cases h with
  | nil => rfl
  | copy hnone h => cases hu
  | replace hmatch h => exact absurd (List.append_eq_nil_iff.mp hu).1 (hm _ _ _ hmatch)

/-- Where each match is replaced by what is there, nothing changes. -/
theorem Subs.fixed (h : Subs m t u) (hfix : ∀ v, v <:+ t → ∀ r rest, m v = some (r, rest) → r ++ rest = v) : u = t := by
  induction h with
  | nil => rfl
  | copy hnone h ih => rw [ih fun v hv => hfix v (hv.trans (List.suffix_cons ..))]
  | @replace s r rest u hmatch h ih =>
    have hsame := hfix s (List.suffix_refl s) r rest hmatch
    rw [ih fun v hv => hfix v (hv.trans ⟨r, hsame⟩), hsame]

/-- A part in which no match begins is copied. -/
theorem Subs.copies (h : Subs m (p ++ t) u) (hp : ∀ x, x <:+ p → x ≠ [] → m (x ++ t) = none) :
    ∃ v, u = p ++ v ∧ Subs m t v := by
  induction p generalizing u with
  | nil => exact ⟨u, rfl, h⟩
  | cons c p ih =>
    have hnone : m (c :: (p ++ t)) = none := hp (c :: p) (List.suffix_refl _) (List.cons_ne_nil c p)
    rw [List.cons_append] at h
    cases h with
    | copy _ h =>
      obtain ⟨v, rfl, hv⟩ := ih h fun x hx => hp x (hx.trans (List.suffix_cons ..))
      exact ⟨v, rfl, hv⟩
    | replace hmatch h =>
      rw [hnone] at hmatch
      cases hmatch

/-- A suffix lies in the second part, or it begins in the first. -/
theorem suffix_append_cases {v a b : List α} (h : v <:+ a ++ b) : v <:+ b ∨ ∃ x, x ≠ [] ∧ x <:+ a ∧ v = x ++ b := by
  obtain ⟨pre, hpre⟩ := h
  rcases List.append_eq_append_iff.mp hpre with ⟨x, rfl, rfl⟩ | ⟨x, -, rfl⟩
  · cases x with
    | nil => exact .inl (List.suffix_refl _)
    | cons c x => exact .inr ⟨c :: x, List.cons_ne_nil c x, List.suffix_append pre _, rfl⟩
  · exact .inl (List.suffix_append x v)

theorem mem_of_suffix {x u p : List α} {c : α} (hx : x <:+ p) (hne : x ≠ []) (hs : x ++ u = c :: s) : c ∈ p := by
  cases x with
  | nil => exact absurd rfl hne
  | cons d x =>
    obtain ⟨rfl, -⟩ := List.cons.inj hs
    exact hx.subset (List.mem_cons_self ..)

/-! ## Machines -/

inductive Verdict (σ : Type)
  | fail
  | accept
  | go (q : σ)
  deriving DecidableEq

def Verdict.map {σ τ : Type} (f : σ → τ) : Verdict σ → Verdict τ
  | .fail => .fail
  | .accept => .accept
  | .go q => .go (f q)

section

variable {σ : Type} (step : σ → α → Verdict σ)

/-- The machine accepts a beginning of the list. -/
def reaches : σ → List α → Bool
  | _, [] => false
  | q, c :: s =>
    match step q c with
    | .fail => false
    | .accept => true
    | .go q => reaches q s

/-- The machine fails within the list. -/
def dies : σ → List α → Bool
  | _, [] => false
  | q, c :: s =>
    match step q c with
    | .fail => true
    | .accept => false
    | .go q => dies q s

variable {step} {q n : σ} {c : α}

theorem reaches_go (h : step q c = .go n) : reaches step q (c :: s) = reaches step n s := by
  rw [reaches, h]

theorem reaches_accept (h : step q c = .accept) : reaches step q (c :: s) = true := by
  rw [reaches, h]

theorem reaches_fail (h : step q c = .fail) : reaches step q (c :: s) = false := by
  rw [reaches, h]

theorem reaches_of_dies (h : dies step q s = true) (t : List α) : reaches step q (s ++ t) = false := by
  induction s generalizing q with
  | nil => cases h
  | cons c s ih =>
    rw [List.cons_append]
    cases hstep : step q c with
    | fail => exact reaches_fail hstep
    | accept =>
      rw [dies, hstep] at h
      cases h
    | go q' =>
      rw [dies, hstep] at h
      rw [reaches_go hstep]
      exact ih h

variable (m step) in
/-- From a good state, no replacement is accepted unless what it stands for is. -/
def Backs (G : σ → Prop) : Prop :=
  ∀ q s r rest u, G q → m s = some (r, rest) → Subs m rest u → reaches step q (r ++ u) = true → reaches step q s = true

/-- What the machine accepts after the replacements it accepted before them, if no replacement is accepted unless what it
stands for is. -/
theorem Subs.back {G : σ → Prop} (hgood : ∀ q c q', G q → step q c = .go q' → G q') (hback : Backs m step G)
    (h : Subs m t u) (hq : G q) (hu : reaches step q u = true) : reaches step q t = true := by
  induction h generalizing q with
  | nil => exact hu
  | @copy c s u hnone h ih =>
    cases hstep : step q c with
    | fail =>
      rw [reaches_fail hstep] at hu
      cases hu
    | accept => exact reaches_accept hstep
    | go q' =>
      rw [reaches_go hstep] at hu ⊢
      exact ih (hgood q c q' hq hstep) hu
  | replace hmatch h ih => exact hback q _ _ _ _ hq hmatch h hu

/-- What a machine does not accept behind the copied items and within what is put in, it accepts nowhere. -/
theorem Subs.gone {G : σ → Prop} (hgood : ∀ q c q', G q → step q c = .go q' → G q') (hback : Backs m step G)
    (hrest : ∀ s r rest, m s = some (r, rest) → rest <:+ s) (hq : G q)
    (hdead : ∀ s r rest u x, m s = some (r, rest) → x <:+ r → x ≠ [] → reaches step q (x ++ u) = false)
    (h : Subs m t u) (ht : ∀ v, v <:+ t → m v = none → reaches step q v = false) {v : List α} (hv : v <:+ u) :
    reaches step q v = false := by
  induction h generalizing v with
  | nil =>
    rw [List.suffix_nil.mp hv]
    rfl
  | @copy c s u hnone h ih =>
    rcases List.suffix_cons_iff.mp hv with rfl | hv
    · rw [← Bool.not_eq_true]
      intro hreach
      have hback := Subs.back hgood hback (.copy hnone h) hq hreach
      rw [ht _ (List.suffix_refl _) hnone] at hback
      cases hback
    · exact ih (fun v hv => ht v (hv.trans (List.suffix_cons ..))) hv
  | @replace s r rest u hmatch h ih =>
    rcases suffix_append_cases hv with hv | ⟨x, hx, hsuffix, rfl⟩
    · exact ih (fun v hv => ht v (hv.trans (hrest _ _ _ hmatch))) hv
    · exact hdead _ _ _ _ _ hmatch hsuffix hx

end

/-! ## Where a pass stands -/

section

variable {w c : List α}

/-- Replacing in `s`, the pass comes to stand at `t`. It has written `u` by then. -/
inductive Scan (m : Matcher α) (t : List α) : List α → List α → Prop
  | here : Scan m t t []
  | copy {c : α} {s u : List α} (hnone : m (c :: s) = none) (h : Scan m t s u) : Scan m t (c :: s) (c :: u)
  | replace {s r rest u : List α} (hmatch : m s = some (r, rest)) (h : Scan m t rest u) : Scan m t s (r ++ u)

theorem Scan.trans (h : Scan m t s u) (ht : Scan m p t w) : Scan m p s (u ++ w) := by
  induction h with
  | here => exact ht
  | copy hnone h ih => exact .copy hnone ih
  | replace hmatch h ih =>
    rw [List.append_assoc]
    exact .replace hmatch ih

theorem subs_iff_scan : Subs m s u ↔ Scan m [] s u := by
  constructor
  · intro h
    induction h with
    | nil => exact .here
    | copy hnone h ih => exact .copy hnone ih
    | replace hmatch h ih => exact .replace hmatch ih
  · intro h
    induction h with
    | here => exact .nil
    | copy hnone h ih => exact .copy hnone ih
    | replace hmatch h ih => exact .replace hmatch ih

theorem Scan.subs {v : List α} (h : Scan m t s u) (ht : Subs m t v) : Subs m s (u ++ v) :=
  subs_iff_scan.mpr (h.trans (subs_iff_scan.mp ht))

/-- The pass comes to stand behind a part, or at a match that begins in it. -/
theorem Scan.part (m : Matcher α) (p t : List α) :
    Scan m t (p ++ t) p ∨ ∃ x y r rest, p = x ++ y ∧ y ≠ [] ∧ m (y ++ t) = some (r, rest) ∧ Scan m (y ++ t) (p ++ t) x := by
  induction p with
  | nil => exact .inl .here
  | cons a p ih =>
    cases hmatch : m (a :: (p ++ t)) with
    | some found => exact .inr ⟨[], a :: p, found.1, found.2, rfl, List.cons_ne_nil a p, hmatch, .here⟩
    | none =>
      rcases ih with h | ⟨x, y, r, rest, rfl, hy, hstart, h⟩
      · exact .inl (.copy hmatch h)
      · exact .inr ⟨a :: x, y, r, rest, rfl, hy, hstart, .copy hmatch h⟩

theorem Scan.of_copies (hp : ∀ x, x <:+ p → x ≠ [] → m (x ++ t) = none) : Scan m t (p ++ t) p := by
  rcases Scan.part m p t with h | ⟨x, y, r, rest, rfl, hy, hmatch, -⟩
  · exact h
  · rw [hp y (List.suffix_append x y) hy] at hmatch
    cases hmatch

/-- What a match of the pattern keeps is `k`, where `Keeps k` holds of what is behind it. Then follow a separator, if there is
one, and the placeholder between its brackets. -/
structure Marks (m : Matcher α) (Keeps : List α → List α → Prop) (sep : Option α) (l : α) (body : List α) (l' : α) : Prop where
  written : ∀ v r rest, m v = some (r, rest) →
    ∃ k after, v = k ++ after ∧ Keeps k after ∧ rest <:+ after ∧ r = k ++ (sep.toList ++ l :: (body ++ [l']))

/-- What is written up to the separator behind what a match keeps ends with `c`. -/
def Spliced (m : Matcher α) (Keeps : List α → List α → Prop) (sep : Option α) (s c : List α) : Prop :=
  ∃ u k after e, Scan m (k ++ after) s u ∧ Keeps k after ∧ sep = some e ∧ c <:+ u ++ (k ++ [e])

theorem Spliced.behind {Keeps : List α → List α → Prop} {sep : Option α} (h : Spliced m Keeps sep t c) (ht : Scan m t s u) :
    Spliced m Keeps sep s c := by
  obtain ⟨v, k, after, e, hscan, hk, he, hc⟩ := h
  refine ⟨u ++ v, k, after, e, ht.trans hscan, hk, he, ?_⟩
  rw [List.append_assoc]
  exact hc.trans (List.suffix_append u _)

theorem Spliced.ends {Keeps : List α → List α → Prop} {e : α} (h : Spliced m Keeps (some e) s c) (hc : c ≠ []) : ∃ z, c = z ++ [e] := by
  obtain ⟨u, k, after, e', -, -, he, hend⟩ := h
  cases he
  rw [← List.append_assoc] at hend
  rcases List.suffix_concat_iff.mp hend with rfl | ⟨z, rfl, -⟩
  · exact absurd rfl hc
  · exact ⟨z, rfl⟩

/-- A part without the item `l` lies on one side of it. -/
theorem infix_of_fence {x y : List α} {l : α} (hl : l ∉ c) (h : c <:+: x ++ l :: y) : c <:+: x ∨ c <:+: y := by
  have hstart : ∀ z, l ∉ z → z <+: l :: y → z = [] := by
    intro z hz hpre
    rcases List.prefix_cons_iff.mp hpre with rfl | ⟨t, rfl, -⟩
    · rfl
    · exact absurd (List.mem_cons_self ..) hz
  rcases List.infix_append_iff.mp h with h | h | ⟨a, b, rfl, ha, hb⟩
  · exact .inl h
  · rcases List.infix_cons_iff.mp h with h | h
    · rw [hstart c hl h]
      exact .inl List.nil_infix
    · exact .inr h
  · rw [hstart b (fun hb => hl (List.mem_append_right a hb)) hb, List.append_nil]
    exact .inl ha.isInfix

theorem prefix_of_fence {x y : List α} {l : α} (hl : l ∉ c) (h : c <+: x ++ l :: y) : c <+: x := by
  induction x generalizing c with
  | nil =>
    rcases List.prefix_cons_iff.mp h with rfl | ⟨t, rfl, -⟩
    · exact List.nil_prefix
    · exact absurd (List.mem_cons_self ..) hl
  | cons a x ih =>
    rcases List.prefix_cons_iff.mp h with rfl | ⟨t, rfl, ht⟩
    · exact List.nil_prefix
    · exact List.cons_prefix_cons.mpr ⟨rfl, ih (fun hmem => hl (List.mem_cons_of_mem _ hmem)) ht⟩

section

variable {Keeps : List α → List α → Prop} {sep : Option α} {l l' : α} {body : List α}

theorem Scan.suffix (hm : Marks m Keeps sep l body l') (h : Scan m t s u) : t <:+ s := by
  induction h with
  | here => exact List.suffix_refl t
  | copy hnone h ih => exact ih.trans (List.suffix_cons ..)
  | replace hmatch h ih =>
    obtain ⟨k, after, rfl, -, hrest, -⟩ := hm.written _ _ _ hmatch
    exact (ih.trans hrest).trans (List.suffix_append k after)

/-- A part without brackets at the front of what was written was there, or it ends with what a match keeps. -/
theorem Scan.front (hm : Marks m Keeps sep l body l') (h : Scan m t s u) (hs : s = p ++ t) (hl : l ∉ c) (hc : c <+: u ++ w) :
    c <+: p ++ w ∨ ∃ x k after e, Scan m (k ++ after) s x ∧ Keeps k after ∧ sep = some e ∧ c = x ++ (k ++ [e]) := by
  induction h generalizing c p with
  | here =>
    obtain rfl : p = [] := List.append_left_eq_self.mp hs.symm
    exact .inl hc
  | @copy a s u hnone h ih =>
    obtain ⟨p', rfl⟩ := h.suffix hm
    rw [← List.cons_append] at hs
    obtain rfl := List.append_cancel_right hs
    rcases List.prefix_cons_iff.mp hc with rfl | ⟨c, rfl, hcopied⟩
    · exact .inl List.nil_prefix
    · rcases ih rfl (fun hmem => hl (List.mem_cons_of_mem _ hmem)) hcopied with hc | ⟨x, k, after, e, hx, hk, he, rfl⟩
      · exact .inl (List.cons_prefix_cons.mpr ⟨rfl, hc⟩)
      · exact .inr ⟨a :: x, k, after, e, .copy hnone hx, hk, he, rfl⟩
  | @replace s r rest u hmatch h ih =>
    obtain ⟨k, after, rfl, hk, hrest, rfl⟩ := hm.written _ _ _ hmatch
    obtain ⟨z, rfl⟩ := (h.suffix hm).trans hrest
    rw [← List.append_assoc] at hs
    obtain rfl := List.append_cancel_right hs
    have hkept : c <+: k ++ sep.toList := prefix_of_fence hl (by simpa using hc)
    cases sep with
    | none => exact .inl (((List.append_nil k ▸ hkept : c <+: k).trans (List.prefix_append k z)).trans (List.prefix_append ..))
    | some e =>
      rcases List.prefix_concat_iff.mp hkept with rfl | hkept
      · exact .inr ⟨[], k, _, e, .here, hk, rfl, rfl⟩
      · exact .inl ((hkept.trans (List.prefix_append k z)).trans (List.prefix_append ..))

/-- A part without brackets in what was written was there, or it is a part of a placeholder, or it ends with what a match keeps. -/
theorem Scan.parts (hm : Marks m Keeps sep l body l') (h : Scan m t s u) (hs : s = p ++ t) (hl : l ∉ c) (hl' : l' ∉ c) (hc : c <:+: u ++ w) :
    c <:+: p ++ w ∨ (c <:+: body ∧ l :: (body ++ [l']) <:+: u ++ w) ∨ Spliced m Keeps sep s c := by
  induction h generalizing p with
  | here =>
    obtain rfl : p = [] := List.append_left_eq_self.mp hs.symm
    exact .inl hc
  | @copy a s u hnone h ih =>
    obtain ⟨p', rfl⟩ := h.suffix hm
    have hs' := hs
    rw [← List.cons_append] at hs'
    obtain rfl := List.append_cancel_right hs'
    rcases List.infix_cons_iff.mp hc with hc | hc
    · rcases (Scan.copy hnone h).front hm hs hl hc with hc | ⟨x, k, after, e, hx, hk, he, rfl⟩
      · exact .inl hc.isInfix
      · exact .inr (.inr ⟨x, k, after, e, hx, hk, he, List.suffix_refl _⟩)
    · rcases ih rfl hc with hc | ⟨hc, hmark⟩ | hc
      · exact .inl (List.infix_cons hc)
      · exact .inr (.inl ⟨hc, List.infix_cons hmark⟩)
      · exact .inr (.inr (hc.behind (.copy hnone .here)))
  | @replace s r rest u hmatch h ih =>
    obtain ⟨k, after, rfl, hk, ⟨y, rfl⟩, rfl⟩ := hm.written _ _ _ hmatch
    obtain ⟨z, rfl⟩ := h.suffix hm
    obtain rfl : p = k ++ (y ++ z) := List.append_cancel_right (by simpa using hs.symm)
    have hwritten : k ++ (sep.toList ++ l :: (body ++ [l'])) ++ u ++ w = (k ++ sep.toList) ++ l :: (body ++ l' :: (u ++ w)) := by simp
    rw [hwritten] at hc
    rcases infix_of_fence hl hc with hc | hc
    · have hspliced : c <:+: k ∨ Spliced m Keeps sep (k ++ (y ++ (z ++ t))) c := by
        cases sep with
        | none => exact .inl (List.append_nil k ▸ hc)
        | some e =>
          rcases List.infix_concat_iff.mp hc with hc | hc
          · exact .inr ⟨[], k, _, e, .here, hk, rfl, hc⟩
          · exact .inl hc
      rcases hspliced with hc | hc
      · exact .inl ((hc.trans (List.prefix_append k _).isInfix).trans (List.prefix_append ..).isInfix)
      · exact .inr (.inr hc)
    · rcases infix_of_fence hl' hc with hc | hc
      · exact .inr (.inl ⟨hc, k ++ sep.toList, u ++ w, by simp⟩)
      · rcases ih rfl hc with hc | ⟨hc, hmark⟩ | hc
        · exact .inl (hc.trans ⟨k ++ y, [], by simp⟩)
        · exact .inr (.inl ⟨hc, hmark.trans ⟨k ++ (sep.toList ++ l :: (body ++ [l'])), [], by simp⟩⟩)
        · exact .inr (.inr (hc.behind (.replace hmatch .here)))

end

end

end Lib

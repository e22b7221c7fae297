import Palworld.Lib.Text
import Mathlib.Tactic.Common

/-!
# The text forms of IP addresses

What Python's `ipaddress.ip_address` takes: an IPv4 address of four decimal octets, or an IPv6
address, which may have a `%scope` behind it.
-/

namespace Lib

variable {t : Text} {parts : List Text} {c : Char}

/-! ## IPv4 -/

/-- A decimal number up to 255, without leading zeros. -/
def parseOctet (t : Text) : Option Nat :=
  if t.isEmpty || !t.all Char.isDigit || t.length > 3 || (t != ['0'] && t.head? == some '0') then none
  else
    let n := Nat.ofDigitChars 10 t 0
    if n > 255 then none else some n

def parseIPv4 (t : Text) : Option Nat :=
  if '/' ∈ t then none
  else match t.splitOn '.' with
  | [a, b, c, d] => do
    let a ← parseOctet a
    let b ← parseOctet b
    let c ← parseOctet c
    let d ← parseOctet d
    some (((a * 256 + b) * 256 + c) * 256 + d)
  | _ => none

/-! ## IPv6 -/

def isHexDigit (c : Char) : Bool := c.isDigit || ('a' ≤ c && c ≤ 'f') || ('A' ≤ c && c ≤ 'F')

def isHextet (t : Text) : Bool := t.all isHexDigit && decide (t.length ≤ 4) && !t.isEmpty

/-- An IPv4 address as the last part becomes two hextets. -/
def hexSuffix (parts : List Text) : Option (List Text) :=
  match parts.getLast? with
  | none => some parts
  | some last =>
    if '.' ∈ last then
      (parseIPv4 last).map fun n =>
        parts.dropLast ++ [Nat.toDigits 16 (n / 65536 % 65536), Nat.toDigits 16 (n % 65536)]
    else some parts

/-- Where a `::` stands: the empty parts that are not at an end. -/
def skipIndices (parts : List Text) : List Nat :=
  (List.range' 1 (parts.length - 2)).filter fun i => parts[i]? == some []

/-- The parts between the colons make eight hextets, or fewer with one `::`, which alone may stand at an end. -/
def isIPv6Parts (parts : List Text) : Bool :=
  let emptyFirst := parts.head? == some []
  let emptyLast := parts.getLast? == some []
  match skipIndices parts with
  | [] => parts.length == 8 && !emptyFirst && !emptyLast && parts.all isHextet
  | [i] =>
    let hi := if emptyFirst then i - 1 else i
    let lo := if emptyLast then parts.length - i - 2 else parts.length - i - 1
    (!emptyFirst || hi == 0) && (!emptyLast || lo == 0) && decide (hi + lo < 8) &&
      (parts.take hi).all isHextet && (parts.drop (parts.length - lo)).all isHextet
  | _ => false

/-- An IPv6 address without a scope. -/
def isIPv6Address (t : Text) : Bool :=
  let parts := t.splitOn ':'
  !t.isEmpty && decide (parts.length ≥ 3) &&
    match hexSuffix parts with
    | none => false
    | some parts => decide (parts.length ≤ 9) && isIPv6Parts parts

/-- `partition('%')`: the address and the scope, which is nonempty and has no `%` of its own. -/
def isIPv6 (t : Text) : Bool :=
  !t.contains '/' && isIPv6Address (t.takeWhile (· ≠ '%')) &&
    match t.dropWhile (· ≠ '%') with
    | [] => true
    | _ :: scope => !scope.isEmpty && !scope.contains '%'

def isIpAddress (t : Text) : Bool := (parseIPv4 t).isSome || isIPv6 t

/-! ## The characters of an address -/

theorem mem_intercalate {sep : Char} (h : c ∈ [sep].intercalate parts) : c = sep ∨ ∃ part ∈ parts, c ∈ part := by
  induction parts with
  | nil => cases h
  | cons a parts ih =>
    cases parts with
    | nil => exact Or.inr ⟨a, List.mem_cons_self, by simpa [List.intercalate] using h⟩
    | cons b parts =>
      rw [List.intercalate_cons_cons, List.append_assoc, List.mem_append, List.mem_append, List.mem_singleton] at h
      rcases h with hmem | rfl | hmem
      · exact Or.inr ⟨a, List.mem_cons_self, hmem⟩
      · exact Or.inl rfl
      · exact (ih hmem).imp_right fun ⟨part, hpart, hc⟩ => ⟨part, List.mem_cons_of_mem _ hpart, hc⟩

theorem mem_splitOn {sep : Char} (h : c ∈ t) : c = sep ∨ ∃ part ∈ t.splitOn sep, c ∈ part := by
  rw [← @List.intercalate_splitOn _ t _ _ sep] at h
  exact mem_intercalate h

theorem parseOctet_chars {n : Nat} (h : parseOctet t = some n) : ∀ c ∈ t, c.isDigit = true := by
  unfold parseOctet at h
  split at h
  · cases h
  · rename_i hnot
    simp only [Bool.or_eq_true, not_or, Bool.not_eq_true', Bool.not_eq_true, Bool.not_eq_false] at hnot
    exact List.all_eq_true.mp hnot.1.1.2

theorem parseIPv4_chars {n : Nat} (h : parseIPv4 t = some n) : ∀ c ∈ t, c.isDigit = true ∨ c = '.' := by
  intro c hc
  unfold parseIPv4 at h
  split at h
  · cases h
  split at h
  · rename_i a b e d hsplit
    simp only [Option.bind_eq_bind, Option.bind_eq_some_iff] at h
    obtain ⟨_, ha, _, hb, _, he, _, hd, _⟩ := h
    rcases mem_splitOn hc with hdot | ⟨part, hpart, hmem⟩
    · exact Or.inr hdot
    · rw [hsplit] at hpart
      simp only [List.mem_cons, List.not_mem_nil, or_false] at hpart
      rcases hpart with rfl | rfl | rfl | rfl
      · exact Or.inl (parseOctet_chars ha c hmem)
      · exact Or.inl (parseOctet_chars hb c hmem)
      · exact Or.inl (parseOctet_chars he c hmem)
      · exact Or.inl (parseOctet_chars hd c hmem)
  · cases h

theorem isHextet_chars (h : isHextet t = true) : ∀ c ∈ t, isHexDigit c = true := by
  simp only [isHextet, Bool.and_eq_true] at h
  exact List.all_eq_true.mp h.1.1

theorem isIPv6Parts_chars (h : isIPv6Parts parts = true) : ∀ part ∈ parts, ∀ c ∈ part, isHexDigit c = true := by
  intro part hpart c hc
  unfold isIPv6Parts at h
  split at h
  · simp only [Bool.and_eq_true] at h
    exact isHextet_chars (List.all_eq_true.mp h.2 part hpart) c hc
  · rename_i i hskip
    have hi : i ∈ skipIndices parts := by rw [hskip]; exact List.mem_singleton_self i
    simp only [skipIndices, List.mem_filter, List.mem_range'_1, beq_iff_eq] at hi
    obtain ⟨⟨hlow, hhigh⟩, hempty⟩ := hi
    simp only [Bool.and_eq_true, decide_eq_true_eq, List.all_eq_true] at h
    obtain ⟨⟨⟨⟨hfirst, hlast⟩, _⟩, hhead⟩, htail⟩ := h
    obtain ⟨k, hk, rfl⟩ := List.getElem_of_mem hpart
    have hnone : parts[k]? ≠ some [] := by
      intro hnone
      rw [List.getElem?_eq_getElem hk, Option.some.injEq] at hnone
      rw [hnone] at hc
      cases hc
    rcases Nat.lt_trichotomy k i with hlt | rfl | hgt
    -- A part before the `::` is a hextet, or the one empty part at the start.
    · cases hopen : parts.head? == some [] with
      | true =>
        simp only [hopen, Bool.not_true, Bool.false_or, if_true, beq_iff_eq] at hfirst
        have hzero : k = 0 := by omega
        rw [hzero, ← List.head?_eq_getElem?] at hnone
        exact absurd (beq_iff_eq.mp hopen) hnone
      | false =>
        simp only [hopen, Bool.false_eq_true, if_false] at hhead
        exact isHextet_chars (hhead _ (List.mem_take_iff_getElem.mpr ⟨k, by omega, rfl⟩)) c hc
    · exact absurd hempty hnone
    · cases hopen : parts.getLast? == some [] with
      | true =>
        simp only [hopen, Bool.not_true, Bool.false_or, if_true, beq_iff_eq] at hlast
        have hend : k = parts.length - 1 := by omega
        rw [hend, ← List.getLast?_eq_getElem?] at hnone
        exact absurd (beq_iff_eq.mp hopen) hnone
      | false =>
        simp only [hopen, Bool.false_eq_true, if_false] at htail
        have hbehind : parts.length - (parts.length - i - 1) = i + 1 := by omega
        rw [hbehind] at htail
        refine isHextet_chars (htail _ (List.mem_drop_iff_getElem.mpr ⟨k - (i + 1), by omega, ?_⟩)) c hc
        congr 1
        omega
  · cases h

theorem isHexDigit_of_isDigit (h : c.isDigit = true) : isHexDigit c = true := by
  rw [isHexDigit, h]
  rfl

theorem hexSuffix_chars {hextets : List Text} (h : hexSuffix parts = some hextets)
    (hchars : ∀ part ∈ hextets, ∀ c ∈ part, isHexDigit c = true) :
    ∀ part ∈ parts, ∀ c ∈ part, isHexDigit c = true ∨ c = '.' := by
  intro part hpart c hc
  unfold hexSuffix at h
  cases hlast : parts.getLast? with
  | none =>
    rw [List.getLast?_eq_none_iff.mp hlast] at hpart
    cases hpart
  | some last =>
    simp only [hlast] at h
    split at h
    · obtain ⟨n, hsuffix, rfl⟩ := Option.map_eq_some_iff.mp h
      obtain ⟨front, rfl⟩ := List.getLast?_eq_some_iff.mp hlast
      rw [List.dropLast_concat] at hchars
      rcases List.mem_append.mp hpart with hfront | hsame
      · exact Or.inl (hchars part (List.mem_append_left _ hfront) c hc)
      · rw [List.mem_singleton.mp hsame] at hc
        exact (parseIPv4_chars hsuffix c hc).imp_left isHexDigit_of_isDigit
    · cases h
      exact Or.inl (hchars part hpart c hc)

/-- An IPv6 address without a scope is written with hexadecimal digits, colons and dots. -/
theorem isIPv6Address_chars (h : isIPv6Address t = true) : ∀ c ∈ t, isHexDigit c = true ∨ c = ':' ∨ c = '.' := by
  intro c hc
  simp only [isIPv6Address, Bool.and_eq_true] at h
  obtain ⟨-, hparts⟩ := h
  cases hsuffix : hexSuffix (t.splitOn ':') with
  | none =>
    rw [hsuffix] at hparts
    cases hparts
  | some hextets =>
    simp only [hsuffix, Bool.and_eq_true] at hparts
    rcases mem_splitOn hc with hcolon | ⟨part, hpart, hmem⟩
    · exact Or.inr (Or.inl hcolon)
    · exact (hexSuffix_chars hsuffix (isIPv6Parts_chars hparts.2) part hpart c hmem).imp_right Or.inr

end Lib

import Palworld.Lib.Json
import Palworld.Lib.Numeral
import Palworld.Lib.Str

/-!
# The fields of a line

A line is cut at its blanks, and a field may be a number in base 16.
-/

namespace Lib

/-- `str.split()`. -/
def words (t : Text) : List Text := (t.splitOnP isSpace).filter (· ≠ [])

/-- The digits of a number. Each underscore has to stand between two of them. -/
def readHex (value : Nat) (afterDigit : Bool) : Text → Option Nat
  | [] => if afterDigit then some value else none
  | c :: rest =>
    match hexValue c with
    | some digit => readHex (16 * value + digit) true rest
    | none => if c = '_' ∧ afterDigit = true then readHex value false rest else none

/-- `0x` and the underscore that may follow it. -/
def dropHexPrefix : Text → Text
  | '0' :: 'x' :: '_' :: rest | '0' :: 'X' :: '_' :: rest => rest
  | '0' :: 'x' :: rest | '0' :: 'X' :: rest => rest
  | t => t

/-- `int(t, 16)` of an ASCII text without blanks. -/
def hexInt (t : Text) : Option Int :=
  (readHex 0 false (dropHexPrefix (readSign t).2)).map fun n => if (readSign t).1 then -n else n

def upperHex (n : Nat) : Char := if n < 10 then Char.ofNat (48 + n) else Char.ofNat (55 + n)

/-- `%08X` of a number of 32 bits. -/
def hexWord (n : Nat) : Text := (List.range 8).reverse.map fun i => upperHex (n / 16 ^ i % 16)

section

variable {t rest : Text} {c : Char} {n : Nat}

theorem words_cons (hne : t ≠ []) (hsolid : ∀ c ∈ t, isSpace c = false) (hc : isSpace c = true) :
    words (t ++ c :: rest) = t :: words rest := by
  unfold words
  rw [List.splitOnP_append_cons_of_forall_mem hsolid c hc, List.filter_cons_of_pos (by simpa using hne)]

theorem hexValue_upperHex : ∀ n < 16, hexValue (upperHex n) = some n := by decide

theorem hexWord_digits (n : Nat) : ∀ c ∈ hexWord n, c.isAlphanum = true ∧ c ≠ 'x' ∧ c ≠ 'X' := by
  have hdigit : ∀ n < 16, (upperHex n).isAlphanum = true ∧ upperHex n ≠ 'x' ∧ upperHex n ≠ 'X' := by decide
  intro c hc
  obtain ⟨i, -, rfl⟩ := List.mem_map.mp hc
  exact hdigit _ (Nat.mod_lt _ (by decide))

theorem readHex_hexWord (h : n < 2 ^ 32) : readHex 0 false (hexWord n) = some n := by
  have hdigits : hexWord n = [upperHex (n / 16 ^ 7 % 16), upperHex (n / 16 ^ 6 % 16), upperHex (n / 16 ^ 5 % 16), upperHex (n / 16 ^ 4 % 16),
    upperHex (n / 16 ^ 3 % 16), upperHex (n / 16 ^ 2 % 16), upperHex (n / 16 ^ 1 % 16), upperHex (n / 16 ^ 0 % 16)] := rfl
  rw [hdigits]
  simp only [readHex, hexValue_upperHex _ (Nat.mod_lt _ (by decide : 0 < 16)), if_true, Option.some.injEq]
  omega

theorem readSign_of_alphanum (h : c.isAlphanum = true) : readSign (c :: t) = (false, c :: t) := by
  unfold readSign
  split
  · rename_i heq
    cases heq
    exact absurd h (by decide)
  · rename_i heq
    cases heq
    exact absurd h (by decide)
  · rfl

theorem dropHexPrefix_of_digit {d : Char} (h : d ≠ 'x' ∧ d ≠ 'X') : dropHexPrefix (c :: d :: t) = c :: d :: t := by
  unfold dropHexPrefix
  split
  · rename_i heq
    cases heq
    exact absurd rfl h.1
  · rename_i heq
    cases heq
    exact absurd rfl h.2
  · rename_i heq
    cases heq
    exact absurd rfl h.1
  · rename_i heq
    cases heq
    exact absurd rfl h.2
  · rfl

theorem hexInt_hexWord (h : n < 2 ^ 32) : hexInt (hexWord n) = some (n : Int) := by
  obtain ⟨c, d, rest, hword⟩ : ∃ c d rest, hexWord n = c :: d :: rest := ⟨_, _, _, rfl⟩
  have hread := readHex_hexWord h
  have hdigits := hexWord_digits n
  rw [hword] at hread hdigits
  have hc := (hdigits c List.mem_cons_self).1
  have hd := (hdigits d (List.mem_cons_of_mem c List.mem_cons_self)).2
  unfold hexInt
  rw [hword, readSign_of_alphanum hc, dropHexPrefix_of_digit hd, hread]
  rfl

theorem hexWord_injective {m : Nat} (hn : n < 2 ^ 32) (hm : m < 2 ^ 32) (h : hexWord n = hexWord m) : n = m := by
  have hread := readHex_hexWord hn
  rw [h, readHex_hexWord hm] at hread
  exact (Option.some.inj hread).symm

end

end Lib

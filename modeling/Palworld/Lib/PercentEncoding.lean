import Palworld.Lib.Utf8
import Palworld.Lib.Str

/-!
# Percent encoding

The query string of a URL: each text as UTF-8, with every byte escaped that is not unreserved, and what a server reads of it.
-/

namespace Lib

/-! ## Writing -/

def isUnreserved (c : Char) : Bool := c.isAlphanum || c == '-' || c == '.' || c == '_' || c == '~'

def hexUpper (n : Nat) : Char := if n < 10 then Char.ofNat (48 + n) else Char.ofNat (55 + n)

def quoteByte (b : UInt8) : Text :=
  if isUnreserved (Char.ofNat b.toNat) then [Char.ofNat b.toNat] else ['%', hexUpper (b.toNat / 16), hexUpper (b.toNat % 16)]

/-- `quote(t, safe="")`. -/
def quote (t : Text) : Text := (utf8Encode t).flatMap quoteByte

/-- `urlencode(pairs, quote_via=quote)`. -/
def urlencode (pairs : List (Text × Text)) : Text := ['&'].intercalate (pairs.map fun pair => quote pair.1 ++ '=' :: quote pair.2)

/-! ## Reading -/

def hexNumber (c : Char) : Option Nat :=
  if c.isDigit then some (c.toNat - 48)
  else if 'A' ≤ c ∧ c ≤ 'F' then some (c.toNat - 55)
  else if 'a' ≤ c ∧ c ≤ 'f' then some (c.toNat - 87)
  else none

/-- The bytes of a text with escapes. A `+` is a space, and an escape that is none stands for itself. -/
def unquoteBytes : Text → List UInt8
  | [] => []
  | '%' :: a :: b :: rest =>
    match hexNumber a, hexNumber b with
    | some x, some y => UInt8.ofNat (16 * x + y) :: unquoteBytes rest
    | _, _ => 37 :: unquoteBytes (a :: b :: rest)
  | c :: rest => (if c = '+' then [32] else String.utf8EncodeChar c) ++ unquoteBytes rest

def unquote (t : Text) : Text := utf8DecodeReplace (unquoteBytes t)

/-- The fields between the `&`, each cut at its first `=`. -/
def queryPairs (query : Text) : List (Text × Text) :=
  (query.splitOn '&').map fun field =>
    (unquote (field.takeWhile (· ≠ '=')), unquote ((field.dropWhile (· ≠ '=')).drop 1))

/-! ## What was written is read -/

variable {c : Char} {t rest : Text} {b : UInt8} {pairs : List (Text × Text)}

theorem hexNumber_hexUpper {n : Nat} (h : n < 16) : hexNumber (hexUpper n) = some n := by
  have hall : ∀ n < 16, hexNumber (hexUpper n) = some n := by decide +kernel
  exact hall n h

theorem isUnreserved_hexUpper {n : Nat} (h : n < 16) : isUnreserved (hexUpper n) = true := by
  have hall : ∀ n < 16, isUnreserved (hexUpper n) = true := by decide +kernel
  exact hall n h

/-- A byte that is not escaped is that of its character. -/
theorem unreserved_byte (h : isUnreserved (Char.ofNat b.toNat) = true) :
    Char.ofNat b.toNat ≠ '%' ∧ Char.ofNat b.toNat ≠ '+' ∧ String.utf8EncodeChar (Char.ofNat b.toNat) = [b] := by
  have hall : ∀ b : UInt8, isUnreserved (Char.ofNat b.toNat) = true →
      Char.ofNat b.toNat ≠ '%' ∧ Char.ofNat b.toNat ≠ '+' ∧ String.utf8EncodeChar (Char.ofNat b.toNat) = [b] := by
    have hfin : ∀ n < 256, isUnreserved (Char.ofNat n) = true →
        Char.ofNat n ≠ '%' ∧ Char.ofNat n ≠ '+' ∧ String.utf8EncodeChar (Char.ofNat n) = [UInt8.ofNat n] := by decide +kernel
    intro b hb
    have := hfin b.toNat b.toNat_lt hb
    simpa using this
  exact hall b h

theorem unquoteBytes_char (hpercent : c ≠ '%') (hplus : c ≠ '+') : unquoteBytes (c :: t) = String.utf8EncodeChar c ++ unquoteBytes t := by
  rw [unquoteBytes, if_neg hplus]
  intro a b rest hc
  exact absurd hc hpercent

theorem unquoteBytes_quoteByte (b : UInt8) (t : Text) : unquoteBytes (quoteByte b ++ t) = b :: unquoteBytes t := by
  unfold quoteByte
  split
  · rename_i hunreserved
    obtain ⟨hpercent, hplus, hbyte⟩ := unreserved_byte hunreserved
    rw [List.singleton_append, unquoteBytes_char hpercent hplus, hbyte, List.singleton_append]
  · have hlt := b.toNat_lt
    have hvalue : 16 * (b.toNat / 16) + b.toNat % 16 = b.toNat := by omega
    simp only [List.cons_append, List.nil_append, unquoteBytes]
    rw [hexNumber_hexUpper (by omega), hexNumber_hexUpper (by omega)]
    simp [hvalue]

theorem unquote_quote (t : Text) : unquote (quote t) = t := by
  have hbytes : ∀ bs : List UInt8, unquoteBytes (bs.flatMap quoteByte) = bs := by
    intro bs
    induction bs with
    | nil => rfl
    | cons b bs ih => rw [List.flatMap_cons, unquoteBytes_quoteByte, ih]
  unfold unquote quote
  rw [hbytes, utf8DecodeReplace_encode]

/-- The characters of an escaped text. -/
theorem mem_quote (h : c ∈ quote t) : isUnreserved c = true ∨ c = '%' := by
  obtain ⟨b, -, hb⟩ := List.mem_flatMap.mp h
  have hlt := b.toNat_lt
  unfold quoteByte at hb
  split at hb
  · rename_i hunreserved
    rw [List.mem_singleton.mp hb]
    exact .inl hunreserved
  · simp only [List.mem_cons, List.not_mem_nil, or_false] at hb
    rcases hb with rfl | rfl | rfl
    · exact .inr rfl
    · exact .inl (isUnreserved_hexUpper (by omega))
    · exact .inl (isUnreserved_hexUpper (by omega))

theorem notMem_quote (hreserved : isUnreserved c = false) (hpercent : c ≠ '%') : c ∉ quote t := by
  intro h
  rcases mem_quote h with hc | hc
  · rw [hreserved] at hc
    cases hc
  · exact hpercent hc

/-- A reserved character is in no query string, but for the two that part it. -/
theorem notMem_urlencode (hreserved : isUnreserved c = false) (hpercent : c ≠ '%') (hfield : c ≠ '=') (hpair : c ≠ '&') :
    c ∉ urlencode pairs := by
  have hfields : ∀ pair ∈ pairs, c ∉ quote pair.1 ++ '=' :: quote pair.2 := by
    intro pair _ h
    rcases List.mem_append.mp h with h | h
    · exact notMem_quote hreserved hpercent h
    · rcases List.mem_cons.mp h with h | h
      · exact hfield h
      · exact notMem_quote hreserved hpercent h
  unfold urlencode
  induction pairs with
  | nil => simp
  | cons pair pairs ih =>
    rw [List.forall_mem_cons] at hfields
    cases pairs with
    | nil => simpa [List.intercalate] using hfields.1
    | cons next pairs =>
      intro h
      rw [List.map_cons, List.map_cons, List.intercalate_cons_cons] at h
      rcases List.mem_append.mp h with h | h
      · rcases List.mem_append.mp h with h | h
        · exact hfields.1 h
        · exact hpair (List.mem_singleton.mp h)
      · exact ih hfields.2 h

/-- **A query string is read as the pairs it was written from.** -/
theorem queryPairs_urlencode (h : pairs ≠ []) : queryPairs (urlencode pairs) = pairs := by
  have hamp : ∀ field ∈ pairs.map fun pair => quote pair.1 ++ '=' :: quote pair.2, '&' ∉ field := by
    intro field hfield
    obtain ⟨pair, -, rfl⟩ := List.mem_map.mp hfield
    rw [List.mem_append, List.mem_cons]
    rintro (h | h | h)
    · exact notMem_quote rfl (by decide) h
    · exact absurd h (by decide)
    · exact notMem_quote rfl (by decide) h
  unfold queryPairs urlencode
  rw [List.splitOn_intercalate '&' hamp (by simpa using h), List.map_map]
  refine (List.map_congr_left fun pair _ => ?_).trans (List.map_id pairs)
  have hkey : '=' ∉ quote pair.1 := notMem_quote rfl (by decide)
  simp only [Function.comp_apply, id_eq]
  rw [takeWhile_ne_stop hkey, dropWhile_ne_stop hkey, List.drop_one, List.tail_cons, unquote_quote, unquote_quote]

end Lib

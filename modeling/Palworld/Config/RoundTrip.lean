import Palworld.Config.Spill

/-!
# The settings round trip

A dict of word keys, truth values, integers, decimals of six places and plain strings is
what the parser reads in the file that the serializer writes for it.
-/

open Lib

namespace Palworld.Config

section RoundTrip

variable [Unicode] {v : PyValue ℚ} {kv : Text × PyValue ℚ}

/-- No double quote, no carriage return, and no closing parenthesis inside a parenthesised string. -/
def PlainString (s : Text) : Prop :=
  '"' ∉ s ∧ '\r' ∉ s ∧ ∀ inner, s = '(' :: (inner ++ [')']) → ')' ∉ inner

def PlainValue : PyValue ℚ → Prop
  | .bool _ | .int _ => True
  | .float q => AtMostSixPlaces q
  | .str s => PlainString s
  | .none | .other _ => False

/-! ## One value -/

/-- **A value is read as it was written**, with nothing left behind it. -/
theorem firstRead_plain (h : PlainValue v) : firstRead v = v ∧ behind v = [] := by
  cases v with
  | bool | int => exact ⟨rfl, rfl⟩
  | float q =>
    have hread := read_format6f_rat h
    obtain ⟨n, hn⟩ := h
    refine ⟨?_, rfl⟩
    show bareValue (PyFloat.format6f q) = .float q
    rw [format6f_rat hn] at hread ⊢
    rw [bareValue_decimalText, hread]
    rfl
  | str s =>
    obtain ⟨hquote, hreturn, hlist⟩ := h
    by_cases hparens : ∃ inner, s = '(' :: (inner ++ [')'])
    · obtain ⟨inner, rfl⟩ := hparens
      have hinner := hlist inner rfl
      have hreturn' : '\r' ∉ inner := by simpa using hreturn
      rw [firstRead_list hreturn', behind_list, universalNewlines_eq hreturn', dropWhile_ne_stop hinner]
      exact ⟨hinner, rfl⟩
    · rw [firstRead_of_not_list hreturn hparens, behind, if_neg (mt (listLike_iff s).mp hparens), behindQuote_eq hquote]
      exact ⟨hquote, rfl⟩
  | none | other shown => exact absurd h id

/-! ## One entry -/

theorem tokens_writtenEntry (hkey : IsKey kv.1) (hvalue : PlainValue kv.2) :
    Closed ℚ (writtenEntry kv) ∧ tokens (writtenEntry kv) = [kv] := by
  obtain ⟨hread, hbehind⟩ := firstRead_plain hvalue
  obtain ⟨hclosed, htokens⟩ := tokens_written (v := kv.2) hkey
  rw [hread, spilled, hbehind] at htokens
  rw [hbehind] at hclosed
  exact ⟨hclosed.mpr closed_nil, htokens⟩

/-! ## The file -/

/-- **The settings round trip.** The parser reads back the dict that was serialized: its keys in
their order, and under each of them its value. -/
theorem parse_serialize_eq {settings : Settings ℚ} (hkeys : ∀ kv ∈ settings.entries, IsKey kv.1)
    (hvalues : ∀ kv ∈ settings.entries, PlainValue kv.2) : parseIniFile (serializeIniSettings settings) = settings := by
  have hentry : ∀ kv ∈ settings.entries, Closed ℚ (writtenEntry kv) ∧ tokens (writtenEntry kv) = [kv] :=
    fun kv hkv => tokens_writtenEntry (hkeys kv hkv) (hvalues kv hkv)
  have hread : readBack settings = settings.entries := by
    rw [readBack_of_closed fun kv hkv => (hentry kv hkv).1, List.flatMap_congr fun kv hkv => (hentry kv hkv).2,
      List.flatMap_singleton']
  rw [parse_serialize, hread, Dict.ofList_entries]

end RoundTrip

section Example

attribute [local instance] Unicode.ascii

/-- Quoted commas and equals signs, a list and a negative decimal. -/
def mixedSettings : Settings ℚ where
  entries := [(lit "ServerName", .str (lit "a,b=(c)")), (lit "CrossplayPlatforms", .str (lit "(Steam,Xbox)")),
    (lit "ExpRate", .float (-1 / 4)), (lit "DropItemMaxNum", .int ⟨3000, by decide +kernel⟩), (lit "bIsPvP", .bool true)]
  nodup := by decide +kernel

theorem mixedSettings_read_back : parseIniFile (serializeIniSettings mixedSettings) = mixedSettings := by
  refine parse_serialize_eq (by decide +kernel) ?_
  rw [mixedSettings]
  simp only [List.forall_mem_cons, List.not_mem_nil, false_imp_iff, implies_true, and_true]
  refine ⟨⟨by decide +kernel, by decide +kernel, ?_⟩, ⟨by decide +kernel, by decide +kernel, ?_⟩,
    ⟨-250000, by norm_num⟩, trivial, trivial⟩
  · intro inner h
    have hhead : (lit "a,b=(c)").head? = some '(' := by rw [h]; rfl
    exact absurd hhead (by decide +kernel)
  · intro inner h
    have hinner : inner = (lit "(Steam,Xbox)").tail.dropLast := by simp [h]
    rw [hinner]
    decide +kernel

end Example

end Palworld.Config

import Palworld.Config.Standing

/-!
# The protected keys in a public write

A public write does not change the protected entries, but the text it writes is read again.
A value that leaves text behind it can assign a protected key, and one that leaves a quote
open can swallow a protected entry.
-/

open Lib

namespace Palworld.Config

section Protected

variable {F : Type} [Unicode] [PyFloat F]

/-- The live entries, with the public values put in place or appended. -/
def withPublic (live : Text) (incoming : Settings F) : Settings F := (parseIniFile live).update (publicEntries incoming)

/-- The value reads back from its own text. -/
def Survives : PyValue F → Prop
  | .bool _ | .int _ => True
  | .float x => bareValue (PyFloat.format6f x) = (.float x : PyValue F)
  | .str s => TextSurvives s
  | .none | .other _ => False

theorem firstRead_eq_self (v : PyValue F) : firstRead v = v ↔ Survives v := by
  cases v with
  | bool | int => exact iff_of_true rfl trivial
  | float x => exact Iff.rfl
  | str s => exact firstRead_str_iff s
  | none | other shown => exact iff_of_false (by simp [firstRead]) id

/-- What becomes of the entry of `k` in the file. Where the values behind it leave assignments of the key, the last one is of
its live value, and otherwise a live entry stands and its value survives. -/
def KeepsLive (k : Text) (live : Text) (incoming : Settings F) : Prop :=
  match lastOf k (leftBehind k (withPublic live incoming)) with
  | some w => (parseIniFile live : Settings F).get? k = some w
  | none => ∀ v, (parseIniFile live : Settings F).get? k = some v → Stands k (withPublic live incoming) ∧ Survives v

theorem isKey_protected {k : Text} (hk : k ∈ protectedAdminKeys) : IsKey k := by
  have hall : ∀ k ∈ protectedAdminKeys, k ≠ [] ∧ k.all (fun c => c.toNat < 128 && (c.isAlphanum || c == '_')) = true := by
    decide +kernel
  exact isKey_of_ascii (hall k hk).1 (hall k hk).2

theorem get?_mergeAndSerialize (live : Text) (incoming : Settings F) {k : Text} (hk : k ∈ protectedAdminKeys) :
    (parseIniFile (mergeAndSerialize (some live) incoming)).get? k =
      (lastOf k (leftBehind k (withPublic live incoming))).or
        ((if Stands k (withPublic live incoming) then (parseIniFile live).get? k else none).map firstRead) := by
  have hprotected : isProtected k = true := List.contains_iff_mem.mpr hk
  have hlive : (withPublic live incoming).get? k = (parseIniFile live).get? k := by
    rw [withPublic, Dict.get?_update, lastOf_publicEntries, if_pos hprotected, Option.none_or]
  rw [← hlive, mergeAndSerialize, merge_eq]
  exact get?_parse_serialize_standing (isKey_protected hk) (withPublic live incoming)

/-- **When a public write keeps the protected keys.** -/
theorem protected_kept_iff (live : Text) (incoming : Settings F) :
    (∀ k ∈ protectedAdminKeys,
        (parseIniFile (mergeAndSerialize (some live) incoming) : Settings F).get? k = (parseIniFile live).get? k) ↔
      ∀ k ∈ protectedAdminKeys, KeepsLive k live incoming := by
  refine forall₂_congr fun k hk => ?_
  rw [get?_mergeAndSerialize live incoming hk, KeepsLive]
  cases lastOf k (leftBehind k (withPublic live incoming)) with
  | some w => exact eq_comm
  | none =>
    rw [Option.none_or]
    cases (parseIniFile live : Settings F).get? k with
    | none => simp
    | some v => by_cases hstands : Stands k (withPublic live incoming) <;> simp [hstands, firstRead_eq_self]

end Protected

section Example

attribute [local instance] Unicode.ascii

def liveSample : Text := lit "OptionSettings=(AdminPassword=\"s3cret\",Difficulty=None)"

/-- `{"Difficulty": 'None",AdminPassword="mine'}`. -/
def quotedSample : Settings Binary64 :=
  Dict.ofList [(lit "Difficulty", .str (lit "None\",AdminPassword=\"mine"))]

/-- A quote in a public value sets the password. -/
theorem quote_sets_password :
    ¬ ∀ k ∈ protectedAdminKeys,
      (parseIniFile (mergeAndSerialize (some liveSample) quotedSample) : Settings Binary64).get? k
        = (parseIniFile liveSample).get? k := by
  decide +kernel

end Example

end Palworld.Config

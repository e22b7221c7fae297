import Palworld.Settings.Schema
import Palworld.Settings.Newest
import Palworld.Config.Standing
import Palworld.Config.PartialSave
import Palworld.Config.Harmless

/-!
# What is saved and what is shown

A save validates the payload, merges it into the INI and writes the text to the INI or to
the home directory. The view that follows parses the INI again.
-/

open Lib Palworld.Config

namespace Palworld.Settings

/-- The value with its decimal rounded to six places. -/
def rounded : PyValue Binary64 → PyValue Binary64
  | .float x => .float ((roundSix x).getD x)
  | .bool b => .bool b
  | .int n => .int n
  | .str s => .str s
  | .none => .none
  | .other shown => .other shown

section Shown

variable [Unicode] {incoming : Settings Binary64} {ini : Option Text} {k : Text} {io : IniIo} {text : Text} {st : Store}
  {ready : Option Bool} {reloads : Bool}

/-- The view has each public value of the dict, rounded. -/
def Shows (ini : Option Text) (incoming : Settings Binary64) : Prop :=
  ∀ kv ∈ incoming.entries, isProtected kv.1 = false → (getPublicView ini).get? kv.1 = some (rounded kv.2)

/-! ## The view -/

theorem get?_publicView (ini : Option Text) (hpublic : isProtected k = false) :
    (getPublicView ini : Settings Binary64).get? k = (liveSettings ini).get? k := by
  cases ini with
  | none => rfl
  | some file =>
    have hfilter := Dict.get?_filter (d := (parseIniFile file : Settings Binary64)) (k := k) fun k => !isProtected k
    rw [hpublic] at hfilter
    exact hfilter

/-! ## Values that come back -/

/-- The value reads back from its own text. It is not null, and a number is finite. -/
def ComesBack : PyValue Binary64 → Prop
  | .bool _ | .int _ => True
  | .float x => (roundSix x).isSome = true
  | .str s => TextSurvives s
  | .none | .other _ => False

/-- Each public value of the dict stands in the file and comes back. Where the merged values leave assignments of its key behind, the
last of them assigns it rounded. -/
def SavesAll (ini : Option Text) (incoming : Settings Binary64) : Prop :=
  ∀ kv ∈ incoming.entries, isProtected kv.1 = false →
    match lastOf kv.1 (leftBehind kv.1 (merge ini incoming)) with
    | some w => w = rounded kv.2
    | none => Stands kv.1 (merge ini incoming) ∧ ComesBack kv.2

theorem firstRead_eq_rounded (v : PyValue Binary64) : firstRead v = rounded v ↔ ComesBack v := by
  cases v with
  | bool | int => exact iff_of_true rfl trivial
  | float x =>
    simp only [firstRead, rounded, ComesBack]
    cases x with
    | finite neg mag =>
      refine iff_of_true ?_ rfl
      have hread := read_format6f (x := .finite neg mag) rfl
      show bareValue (format6f (.finite neg mag)) = _
      rw [format6f_finite] at hread ⊢
      rw [bareValue_decimalText]
      show ((pyFloat _).map PyValue.float).getD _ = _
      rw [hread]
      rfl
    | infinite neg =>
      refine iff_of_false (bareValue_ne_float ?_) (by simp [roundSix])
      show '.' ∉ format6f (.infinite neg)
      cases neg <;> decide
    | nan =>
      refine iff_of_false (bareValue_ne_float ?_) (by simp [roundSix])
      show '.' ∉ format6f .nan
      decide
  | str s => exact firstRead_str_iff s
  | none | other shown => exact iff_of_false (by simp [firstRead, rounded]) id

theorem shows_saved (hkeys : ∀ kv ∈ incoming.entries, IsKey kv.1) :
    Shows (some (mergeAndSerialize ini incoming)) incoming ↔ SavesAll ini incoming := by
  have hone : ∀ kv ∈ incoming.entries, isProtected kv.1 = false →
      ((getPublicView (some (mergeAndSerialize ini incoming))).get? kv.1 = some (rounded kv.2) ↔
        match lastOf kv.1 (leftBehind kv.1 (merge ini incoming)) with
        | some w => w = rounded kv.2
        | none => Stands kv.1 (merge ini incoming) ∧ ComesBack kv.2) := by
    intro kv hkv hpublic
    have hread := get?_parse_serialize_standing (hkeys kv hkv) (merge ini incoming)
    rw [get?_merge, hpublic, Dict.mem_entries.mp hkv] at hread
    rw [get?_publicView _ hpublic]
    show (parseIniFile (serializeIniSettings (merge ini incoming))).get? kv.1 = _ ↔ _
    rw [hread]
    cases lastOf kv.1 (leftBehind kv.1 (merge ini incoming)) with
    | some w => simp
    | none => by_cases hstands : Stands kv.1 (merge ini incoming) <;> simp [hstands, ← firstRead_eq_rounded]
  exact forall₃_congr hone

/-! ## The save -/

omit [Unicode] in
/-- After a save that succeeds the INI has the text, or it is as it was and the home directory has the text. -/
theorem target_saveSettings (h : (saveSettings io text ready reloads st).2 = true) :
    (saveSettings io text ready reloads st).1.inis .target = if io .target then some text else st.inis .target := by
  have htarget : ∀ inis, writeIniFileWithFallback io st.inis text = some inis →
      inis .target = if io .target then some text else st.inis .target := by
    intro inis hwrite
    unfold writeIniFileWithFallback atomicWriteIni at hwrite
    by_cases hio : io .target = true
    · rw [if_pos hio, Option.some_or] at hwrite
      rw [if_pos hio, ← Option.some.inj hwrite, Function.update_self]
    · rw [if_neg hio, Option.none_or] at hwrite
      split at hwrite
      · rw [if_neg hio, ← Option.some.inj hwrite]
        rfl
      · cases hwrite
  unfold saveSettings at h ⊢
  split
  · rename_i hwrite
    rw [hwrite] at h
    cases h
  · rename_i inis hwrite
    rw [← htarget inis hwrite]
    rcases ready with _ | _ | _
    · rfl
    · rfl
    · exact stageSettingsForReboot_target

variable [Pydantic Binary64] [PydanticFloat]

inductive SaveAnswer
  | unprocessable  -- 422, the schema has not accepted the body
  | failed         -- 500
  | success
  deriving DecidableEq

/-- `save_sanitized_settings`. `ini` is what the merge reads of the INI. -/
def saveSanitizedSettings (body : Settings Binary64) (ini : Option Text) (io : IniIo) (ready : Option Bool)
    (reloads : Bool) (st : Store) : Store × SaveAnswer :=
  match GameplaySettings.validate body with
  | none => (st, .unprocessable)
  | some payload =>
    let saved := saveSettings io (mergeAndSerialize ini payload.explicit) ready reloads st
    (saved.1, if saved.2 then .success else .failed)

theorem GameplaySettings.isKey (payload : GameplaySettings) : ∀ kv ∈ payload.explicit.entries, IsKey kv.1 := by
  intro kv hkv
  obtain ⟨f, hf, hname, -⟩ := payload.checked kv hkv
  exact hname ▸ isKey_name hf

/-- **What is saved is what is shown** exactly when the INI is written and the merged values restore each
public one, or the INI is not written and shows the values already. -/
theorem saved_is_shown_iff {body : Settings Binary64}
    (h : (saveSanitizedSettings body ini io ready reloads st).2 = .success) :
    ∃ payload, GameplaySettings.validate body = some payload ∧
      (Shows ((saveSanitizedSettings body ini io ready reloads st).1.inis .target) payload.explicit ↔
        if io .target then SavesAll ini payload.explicit else Shows (st.inis .target) payload.explicit) := by
  unfold saveSanitizedSettings at h ⊢
  cases hvalid : GameplaySettings.validate body with
  | none =>
    rw [hvalid] at h
    cases h
  | some payload =>
    refine ⟨payload, rfl, ?_⟩
    rw [hvalid] at h
    simp only at h ⊢
    split at h
    · rename_i hsaved
      rw [target_saveSettings hsaved]
      split
      · exact shows_saved payload.isKey
      · exact Iff.rfl
    · cases h

end Shown

section Example

attribute [local instance] Unicode.ascii pydanticSample

@[reducible]
def pydanticFloatSample : PydanticFloat where
  float
    | .float x => some x
    | _ => none
  float_float _ := rfl

attribute [local instance] pydanticFloatSample

def emptyStore : Store := ⟨fun _ => none, none⟩

def nameBody (name : String) : Settings Binary64 where
  entries := [(lit "ServerName", .str (lit name))]
  nodup := List.nodup_singleton _

/-- The validated values of the name are the name. -/
theorem explicit_nameBody {name : String} {payload : GameplaySettings}
    (h : GameplaySettings.validate (nameBody name) = some payload)
    (hentries : (GameplaySettings.validate (nameBody name)).map (fun payload => payload.explicit.entries) =
      some (nameBody name).entries) : payload.explicit = nameBody name := by
  rw [h, Option.map_some, Option.some.injEq] at hentries
  obtain ⟨⟨entries, nodup⟩, checked⟩ := payload
  obtain rfl : entries = (nameBody name).entries := hentries
  rfl

theorem saved_is_shown_plain : ∃ payload, GameplaySettings.validate (nameBody "Pals") = some payload ∧
    Shows ((saveSanitizedSettings (nameBody "Pals") none everyWrite (some false) true emptyStore).1.inis .target)
      payload.explicit := by
  have hsuccess : (saveSanitizedSettings (nameBody "Pals") none everyWrite (some false) true emptyStore).2 =
      .success := by decide +kernel
  obtain ⟨payload, hvalid, hiff⟩ := saved_is_shown_iff hsuccess
  refine ⟨payload, hvalid, hiff.mpr ?_⟩
  have htarget : everyWrite .target = true := rfl
  rw [explicit_nameBody hvalid (by decide +kernel), if_pos htarget]
  intro kv hkv _
  obtain rfl := List.mem_singleton.mp hkv
  have hleft : lastOf (lit "ServerName") (leftBehind (lit "ServerName") (merge none (nameBody "Pals"))) = none := by
    decide +kernel
  rw [hleft]
  refine ⟨by decide +kernel, by decide +kernel, fun inner hinner => ?_, fun _ => by decide +kernel⟩
  have hhead : (lit "Pals").head? = some '(' := congrArg List.head? hinner
  exact absurd hhead (by decide +kernel)

/-- A name in parentheses loses what follows its first closing one. -/
theorem parenthesised_name_is_cut : ¬ ∀ (_ : Unicode) (_ : Pydantic Binary64) (_ : PydanticFloat)
    (body : Settings Binary64) (ini : Option Text) (io : IniIo) (ready : Option Bool) (reloads : Bool) (st : Store)
    (payload : GameplaySettings), GameplaySettings.validate body = some payload →
    (saveSanitizedSettings body ini io ready reloads st).2 = .success →
    Shows ((saveSanitizedSettings body ini io ready reloads st).1.inis .target) payload.explicit := by
  intro h
  have hvalid : (GameplaySettings.validate (nameBody "(EU) Pals (PvP)")).isSome = true := by decide +kernel
  obtain ⟨payload, hpayload⟩ := Option.isSome_iff_exists.mp hvalid
  have hsuccess : (saveSanitizedSettings (nameBody "(EU) Pals (PvP)") none everyWrite (some false) true emptyStore).2 =
      .success := by decide +kernel
  have hshown := h _ _ _ _ _ _ _ _ _ payload hpayload hsuccess
  rw [explicit_nameBody hpayload (by decide +kernel)] at hshown
  have hview := hshown _ (List.mem_singleton.mpr rfl) (by decide +kernel)
  exact absurd hview (by decide +kernel)

end Example

end Palworld.Settings

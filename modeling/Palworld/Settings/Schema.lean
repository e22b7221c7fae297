import Palworld.Config.AppSettings
import Palworld.Config.Spill

/-!
# The schema of the gameplay settings

`GameplaySettingsSchema` bounds the numbers of a payload and sanitizes three of its
strings. `model_dump(exclude_unset=True)` hands on the fields that the payload names.
-/

open Lib Palworld.Config

namespace Palworld.Settings

/-! ## The fields -/

/-- The annotation of a field, `| None` apart, with its bounds. -/
inductive SettingType
  | str (maxLength : Option Nat)
  | bool
  | int (ge le : PyInt)
  | float (ge le : ℚ)

inductive SettingValidator
  | keep
  | sanitize      -- `sanitize_strings`
  | deathPenalty  -- `validate_death_penalty`
  deriving DecidableEq

structure SettingField where
  name : Text
  type : SettingType
  validator : SettingValidator

def strSetting (name : String) (maxLength : Option Nat) (validator : SettingValidator) : SettingField :=
  ⟨lit name, .str maxLength, validator⟩

def boolSetting (name : String) : SettingField := ⟨lit name, .bool, .keep⟩

def intSetting (name : String) (ge le : Nat) (hge : ge < 10 ^ 5 := by decide) (hle : le < 10 ^ 5 := by decide) :
    SettingField :=
  ⟨lit name, .int (smallInt ge hge) (smallInt le hle), .keep⟩

def floatSetting (name : String) (ge le : ℚ) : SettingField := ⟨lit name, .float ge le, .keep⟩

/-- The fields of `GameplaySettingsSchema`, in their order. -/
def gameplaySettingsSchema : List SettingField :=
  [strSetting "ServerName" (some 128) .sanitize,
    strSetting "ServerDescription" (some 256) .sanitize,
    strSetting "Region" (some 32) .sanitize,
    strSetting "CrossplayPlatforms" none .keep,
    strSetting "AllowConnectPlatform" none .keep,
    boolSetting "bIsMultiplay",
    boolSetting "bShowPlayerList",
    boolSetting "bIsShowJoinLeftMessage",
    intSetting "ServerPlayerMaxNum" 1 32,
    intSetting "CoopPlayerMaxNum" 1 4,
    boolSetting "bUseBackupSaveData",
    boolSetting "RCONEnabled",
    strSetting "Difficulty" none .keep,
    floatSetting "ExpRate" 0.1 20,
    floatSetting "PalCaptureRate" 0.5 5,
    floatSetting "PalEggDefaultHatchingTime" 0 240,
    floatSetting "WorkSpeedRate" 0.1 10,
    floatSetting "DayTimeSpeedRate" 0.1 10,
    floatSetting "NightTimeSpeedRate" 0.1 10,
    floatSetting "PlayerStaminaDecreaceRate" 0.1 5,
    floatSetting "PalStaminaDecreaceRate" 0.1 5,
    floatSetting "PlayerStomachDecreaceRate" 0.1 5,
    floatSetting "PalStomachDecreaceRate" 0.1 5,
    floatSetting "PlayerAutoHPRegeneRate" 0.1 10,
    floatSetting "PlayerAutoHPRegeneRateInSleep" 0.1 10,
    floatSetting "PalAutoHPRegeneRate" 0.1 10,
    floatSetting "PalAutoHPRegeneRateInSleep" 0.1 10,
    boolSetting "bEnableNonLoginPenalty",
    boolSetting "bEnableFastTravel",
    boolSetting "bIsStartLocationSelectByMap",
    boolSetting "bExistPlayerAfterLogout",
    strSetting "DeathPenalty" none .deathPenalty,
    boolSetting "bEnableInvaderEnemy",
    boolSetting "bEnablePlayerToPlayerDamage",
    boolSetting "bEnableFriendlyFire",
    boolSetting "bEnableDefenseOtherGuildPlayer",
    boolSetting "bInvisibleOtherGuildBaseCampAreaFX",
    floatSetting "PlayerDamageRateAttack" 0.1 10,
    floatSetting "PlayerDamageRateDefense" 0.1 10,
    floatSetting "PalDamageRateAttack" 0.1 10,
    floatSetting "PalDamageRateDefense" 0.1 10,
    floatSetting "PalDamageRateToPlayer" 0.1 10,
    floatSetting "PalDamageRateFromPlayer" 0.1 10,
    boolSetting "bEnableAimAssistPad",
    boolSetting "bEnableAimAssistKeyboard",
    intSetting "BaseCampMaxNum" 1 256,
    intSetting "BaseCampMaxNumInGuild" 1 20,
    intSetting "BaseCampWorkerMaxNum" 1 50,
    intSetting "GuildPlayerMaxNum" 1 100,
    intSetting "MaxBuildingLimitNum" 0 10000,
    floatSetting "BuildObjectDamageRate" 0.1 10,
    floatSetting "BuildObjectDeteriorationDamageRate" 0 10,
    boolSetting "AutoResetGuildNoOnlinePlayers",
    floatSetting "AutoResetGuildTimeNoOnlinePlayers" 0 720,
    floatSetting "CollectionDropRate" 0.5 10,
    floatSetting "CollectionObjectHpRate" 0.5 10,
    floatSetting "CollectionObjectRespawnSpeedRate" 0.5 10,
    floatSetting "EnemyDropItemRate" 0.5 10,
    floatSetting "PalSpawnNumRate" 0.5 3,
    intSetting "DropItemMaxNum" 0 5000,
    intSetting "DropItemMaxNum_UNKO" 0 500,
    floatSetting "DropItemAliveMaxHours" 0 24,
    boolSetting "bActiveUNKO",
    intSetting "SupplyDropSpan" 0 1000]

theorem names_nodup : (gameplaySettingsSchema.map SettingField.name).Nodup := by decide +kernel

theorem isKey_name [Unicode] {f : SettingField} (hf : f ∈ gameplaySettingsSchema) : IsKey f.name := by
  have hascii : (gameplaySettingsSchema.all fun f => f.name ≠ [] &&
      f.name.all fun c => c.toNat < 128 && (c.isAlphanum || c == '_')) = true := by decide +kernel
  have hname := List.all_eq_true.mp hascii f hf
  simp only [Bool.and_eq_true, decide_eq_true_eq] at hname
  exact isKey_of_ascii hname.1 (by simpa using hname.2)

/-! ## Validation -/

/-- What pydantic makes of a value for a `float`. `none` is its `ValidationError`. -/
class PydanticFloat where
  float : PyValue Binary64 → Option Binary64
  float_float (x : Binary64) : float (.float x) = some x

def floatLt : Binary64 → Binary64 → Bool
  | .finite neg mag, .finite neg' mag' =>
    decide ((if neg then -mag.toRat else mag.toRat) < if neg' then -mag'.toRat else mag'.toRat)
  | .finite _ _, .infinite neg' => !neg'
  | .infinite neg, .finite _ _ => neg
  | .infinite neg, .infinite neg' => neg && !neg'
  | .nan, _ | _, .nan => false

def sanitizeStrings : PyValue Binary64 → PyValue Binary64
  | .none => .str []
  | .str s => .str (strip (s.filter fun c => c ∉ ['\r', '\n', '\t', '"']))
  | v => v

def deathPenalties : List Text := ["None", "Item", "ItemAndEquipment", "All"].map lit

def validateDeathPenalty : PyValue Binary64 → PyValue Binary64
  | .str s => if s ∈ deathPenalties then .str s else .str (lit "None")
  | _ => .str (lit "None")

def SettingValidator.apply : SettingValidator → PyValue Binary64 → PyValue Binary64
  | .keep, v => v
  | .sanitize, v => sanitizeStrings v
  | .deathPenalty, v => validateDeathPenalty v

section Validate

variable [Pydantic Binary64] [PydanticFloat]

/-- The value of the annotated type, within its bounds. `nan` passes every bound. -/
def SettingType.check (v : PyValue Binary64) : SettingType → Option (PyValue Binary64)
  | .str maxLength => ((Pydantic.str v).filter fun s => maxLength.all fun most => s.length ≤ most).map .str
  | .bool => (Pydantic.bool v).map .bool
  | .int ge le =>
    (Pydantic.int v).bind fun n =>
      if h : ge.val ≤ n ∧ n ≤ le.val then
        have hn : n.natAbs < 10 ^ intMaxStrDigits := by
          have hge := ge.val_lt
          have hle := le.val_lt
          omega
        some (.int ⟨n, hn⟩)
      else none
  | .float ge le =>
    ((PydanticFloat.float v).filter fun x =>
      !floatLt x (Binary64.round false ge) && !floatLt (Binary64.round false le) x).map .float

def SettingField.check (f : SettingField) (v : PyValue Binary64) : Option (PyValue Binary64) :=
  (if v matches .none then some .none else f.type.check v).map f.validator.apply

/-- The fields that the body names, with their validated values. -/
def validatedEntries (body : Settings Binary64) : List SettingField → Option (List (Text × PyValue Binary64))
  | [] => some []
  | f :: fields =>
    match body.get? f.name with
    | none => validatedEntries body fields
    | some v => do
      let validated ← f.check v
      let rest ← validatedEntries body fields
      return (f.name, validated) :: rest

/-- A payload that the schema accepted, with the fields set in it. -/
structure GameplaySettings where
  explicit : Settings Binary64
  checked : ∀ kv ∈ explicit.entries, ∃ f ∈ gameplaySettingsSchema, f.name = kv.1 ∧ ∃ v, f.check v = some kv.2

theorem validatedEntries_spec {body : Settings Binary64} {fields : List SettingField}
    {entries : List (Text × PyValue Binary64)} (h : validatedEntries body fields = some entries) :
    (entries.map Prod.fst).Sublist (fields.map SettingField.name) ∧
      ∀ kv ∈ entries, ∃ f ∈ fields, f.name = kv.1 ∧ ∃ v, f.check v = some kv.2 := by
  induction fields generalizing entries with
  | nil =>
    obtain rfl := Option.some.inj h
    exact ⟨List.Sublist.refl _, by simp⟩
  | cons f fields ih =>
    unfold validatedEntries at h
    split at h
    · obtain ⟨hsub, hchecked⟩ := ih h
      refine ⟨hsub.cons _, fun kv hkv => ?_⟩
      obtain ⟨g, hg, hname⟩ := hchecked kv hkv
      exact ⟨g, List.mem_cons_of_mem _ hg, hname⟩
    · rename_i v hv
      simp only [bind, Option.bind_eq_some_iff, pure] at h
      obtain ⟨validated, hcheck, rest, hrest, hentries⟩ := h
      obtain rfl := Option.some.inj hentries
      obtain ⟨hsub, hchecked⟩ := ih hrest
      refine ⟨hsub.cons_cons _, fun kv hkv => ?_⟩
      rcases List.mem_cons.mp hkv with rfl | hkv
      · exact ⟨f, List.mem_cons_self, rfl, v, hcheck⟩
      · obtain ⟨g, hg, hname⟩ := hchecked kv hkv
        exact ⟨g, List.mem_cons_of_mem _ hg, hname⟩

/-- `GameplaySettingsSchema(**body)`. `none` is the `ValidationError` of a field. -/
def GameplaySettings.validate (body : Settings Binary64) : Option GameplaySettings :=
  match h : validatedEntries body gameplaySettingsSchema with
  | none => none
  | some entries =>
    have hspec := validatedEntries_spec h
    some ⟨⟨entries, names_nodup.sublist hspec.1⟩, hspec.2⟩

end Validate

end Palworld.Settings

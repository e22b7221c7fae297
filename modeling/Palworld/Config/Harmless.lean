import Palworld.Config.AppSettings

/-!
# What a public write does to the portal

The filter of the pipeline knows ten keys. A field of `AppSettings` reads every key that
the INI source hands on under one of its names.
-/

open Lib

namespace Palworld.Config

def publicFields : List Text :=
  ["ServerName", "ServerDescription", "QueryPort", "CrossplayPlatforms"].map lit

section Write

variable {F : Type} [Unicode] [PyFloat F] [Pydantic F]

/-- Of the names a field is read by, those at which the INI may decide. -/
def iniNames (env : Environment F) : List Text → List Text
  | [] => []
  | n :: ns =>
    if (env.vars.get? n).isSome then []
    else if (env.secrets.get? n).isSome then [n]
    else n :: iniNames env ns

def AppField.Reads (f : AppField F) (env : Environment F) (k : Text) : Prop :=
  ∃ n ∈ exportedNames k, n ∈ iniNames env f.lookupNames

instance (f : AppField F) (env : Environment F) (k : Text) : Decidable (f.Reads env k) :=
  inferInstanceAs (Decidable (∃ n ∈ exportedNames k, n ∈ iniNames env f.lookupNames))

/-- The value that a field accepts once the entry is written and read again. -/
def AppField.Accepts (f : AppField F) (kv : Text × PyValue F) : Prop :=
  (reread kv.1 kv.2).any (fun v => (f.type.check v).isSome) = true

instance (f : AppField F) (kv : Text × PyValue F) : Decidable (f.Accepts kv) := inferInstanceAs (Decidable (_ = true))

/-- Every written entry keeps to itself. The live ones that a field reads come back unchanged, and the
incoming ones reach only public fields, which accept them. -/
structure Harmless (env : Environment F) (live : Text) (incoming : Settings F) : Prop where
  isolated : ∀ kv ∈ (merge (some live) incoming).entries, Isolated kv
  stable : ∀ kv ∈ (merge (some live) incoming).entries, kv ∈ (parseIniFile live : Settings F).entries →
    (∃ f ∈ appFields, f.Reads env kv.1) → reread kv.1 kv.2 = some kv.2
  onlyPublic : ∀ kv ∈ publicEntries incoming, ∀ f ∈ appFields, f.Reads env kv.1 → f.name ∈ publicFields
  accepted : ∀ kv ∈ publicEntries incoming, ∀ f ∈ appFields, f.Reads env kv.1 → f.Accepts kv

variable {env : Environment F} {live : Text} {incoming : Settings F} {f : AppField F} {source source' : Settings F}

/-! ## The names that a field reads -/

omit [Unicode] [PyFloat F] [Pydantic F] in
theorem findSome?_sourceValue {Good : PyValue F → Prop} {ns : List Text}
    (h : ∀ n ∈ iniNames env ns, source'.get? n = source.get? n ∨ ∃ v, source'.get? n = some v ∧ Good v) :
    ns.findSome? (sourceValue env source') = ns.findSome? (sourceValue env source) ∨
      ∃ v, ns.findSome? (sourceValue env source') = some v ∧ Good v := by
  induction ns with
  | nil => exact .inl rfl
  | cons n ns ih =>
    rw [List.findSome?_cons, List.findSome?_cons]
    unfold iniNames at h
    cases hvars : env.vars.get? n with
    | some v => simp [sourceValue, hvars]
    | none =>
      simp only [hvars, Option.isSome_none, Bool.false_eq_true, if_false] at h
      simp only [sourceValue, hvars, Option.none_or]
      cases hsecret : env.secrets.get? n with
      | some w =>
        simp only [hsecret, Option.isSome_some, if_true, List.mem_singleton, forall_eq] at h
        rcases h with h | ⟨v, h, hv⟩
        · exact .inl (by rw [h]; cases source.get? n <;> rfl)
        · exact .inr ⟨v, by rw [h]; rfl, hv⟩
      | none =>
        simp only [hsecret, Option.isSome_none, Bool.false_eq_true, if_false, List.forall_mem_cons] at h
        -- Neither the environment nor a secret decides, so the INI does.
        rcases h.1 with hn | ⟨v, hn, hv⟩
        · rw [hn]
          cases source.get? n with
          | some v => exact .inl rfl
          | none => simpa using ih h.2
        · exact .inr ⟨v, by rw [hn]; rfl, hv⟩

/-! ## The INI source after the write -/

omit [Pydantic F] in
theorem get?_iniSource (ini : Option Text) (n : Text) :
    (iniSource ini : Settings F).get? n
      = (lastWith (fun k => decide (n ∈ exportedNames k)) (liveSettings ini).entries).map Prod.snd := by
  rw [iniSource, Dict.get?_ofList]
  exact lastOf_names exportedNames fun k => decide_eq_true_iff

omit [Pydantic F] in
theorem entries_saved (h : ∀ kv ∈ (merge (some live) incoming).entries, Isolated kv) :
    (liveSettings (some (mergeAndSerialize (some live) incoming)) : Settings F).entries
      = (merge (some live) incoming).entries.filterMap fun kv => (reread kv.1 kv.2).map fun v => (kv.1, v) := by
  rw [liveSettings, Option.elim_some, mergeAndSerialize, parse_serialize, readBack_of_closed fun kv hkv => (h kv hkv).1]
  exact Dict.entries_ofList_flatMap (merge (some live) incoming).nodup fun kv hkv => (h kv hkv).2

/-- A field finds what it found before at each name, or a value it accepts when it is public. -/
theorem iniSource_saved (h : Harmless env live incoming) (hf : f ∈ appFields) {n : Text}
    (hn : n ∈ iniNames env f.lookupNames) :
    (iniSource (some (mergeAndSerialize (some live) incoming)) : Settings F).get? n
        = (iniSource (some live) : Settings F).get? n ∨
      ∃ v : PyValue F, (iniSource (some (mergeAndSerialize (some live) incoming)) : Settings F).get? n = some v ∧
        (f.name ∈ publicFields ∧ (f.type.check v).isSome = true) := by
  have hreads : ∀ kv : Text × PyValue F, decide (n ∈ exportedNames kv.1) = true → f.Reads env kv.1 :=
    fun kv hkv => ⟨n, of_decide_eq_true hkv, hn⟩
  have hreread : ∀ kv ∈ (merge (some live) incoming).entries, decide (n ∈ exportedNames kv.1) = true →
      (reread kv.1 kv.2).isSome = true := by
    intro kv hkv hexp
    have hmem := hkv
    rw [merge_eq] at hmem
    rcases Dict.mem_update hmem with hlive | hpub
    · rw [h.stable kv hkv hlive ⟨f, hf, hreads kv hexp⟩]
      rfl
    · exact Option.isSome_of_any (h.accepted kv hpub f hf (hreads kv hexp))
  rw [get?_iniSource, get?_iniSource, entries_saved h.isolated, lastWith_filterMap hreread, merge_eq]
  have hlast := Dict.lastWith_update (d := liveSettings (some live)) (p := fun k => decide (n ∈ exportedNames k))
    (publicEntries incoming)
  -- The entry that decides the name is the one that did before, or one of the request.
  rcases hlast with hlast | ⟨kv, hkv, hexp, hlast⟩
  · left
    cases hwin : lastWith (fun k => decide (n ∈ exportedNames k)) (liveSettings (some live) : Settings F).entries with
    | none => rw [hlast, hwin]; rfl
    | some kv =>
      have hwin' := List.mem_filter.mp (List.mem_of_getLast? hwin)
      have hmerged := (List.mem_filter.mp (List.mem_of_getLast? (hlast.trans hwin))).1
      rw [← merge_eq] at hmerged
      rw [hlast, hwin, Option.bind_some, h.stable kv hmerged hwin'.1 ⟨f, hf, hreads kv hwin'.2⟩]
      rfl
  · right
    have haccepted := h.accepted kv hkv f hf (hreads kv hexp)
    unfold AppField.Accepts at haccepted
    cases hv : reread kv.1 kv.2 with
    | none =>
      rw [hv] at haccepted
      cases haccepted
    | some v =>
      rw [hv] at haccepted
      refine ⟨v, ?_, h.onlyPublic kv hkv f hf (hreads kv hexp), haccepted⟩
      rw [hlast, Option.bind_some, hv]
      rfl

theorem load_saved (h : Harmless env live incoming) (hf : f ∈ appFields)
    (hload : (f.load env (iniSource (some live))).isSome = true) :
    (f.load env (iniSource (some (mergeAndSerialize (some live) incoming)))).isSome = true ∧
      (f.name ∉ publicFields → f.load env (iniSource (some (mergeAndSerialize (some live) incoming)))
        = f.load env (iniSource (some live))) := by
  rcases findSome?_sourceValue fun n hn => iniSource_saved h hf hn with hsame | ⟨v, hv, hpublic, hcheck⟩
  · have hinput : f.load env (iniSource (some (mergeAndSerialize (some live) incoming)))
        = f.load env (iniSource (some live)) := by
      unfold AppField.load AppField.input
      rw [hsame]
    rw [hinput]
    exact ⟨hload, fun _ => rfl⟩
  · refine ⟨?_, fun hprivate => absurd hpublic hprivate⟩
    unfold AppField.load AppField.input
    rw [hv]
    exact hcheck

theorem loadAppSettings_value {ini : Option Text} {settings : AppSettings F}
    (h : loadAppSettings env ini = some settings) (f : AppField F) (hf : f ∈ appFields) :
    f.load env (iniSource ini) = some (settings f hf) := by
  unfold loadAppSettings at h
  split at h
  · cases h
    exact (Option.some_get _).symm
  · cases h

/-- **A harmless write leaves the portal as it is**: its configuration loads again, and every field
that is not public has the value it had. -/
theorem harmless_write (h : Harmless env live incoming) {before : AppSettings F}
    (hload : loadAppSettings env (some live) = some before) :
    ∃ after, loadAppSettings env (some (mergeAndSerialize (some live) incoming)) = some after ∧
      ∀ f hf, f.name ∉ publicFields → after f hf = before f hf := by
  have hall : ∀ f ∈ (appFields : List (AppField F)),
      (f.load env (iniSource (some (mergeAndSerialize (some live) incoming)))).isSome = true := by
    intro f hf
    exact (load_saved h hf (by rw [loadAppSettings_value hload f hf]; rfl)).1
  have hafter : loadAppSettings env (some (mergeAndSerialize (some live) incoming)) = some _ := dif_pos hall
  refine ⟨_, hafter, fun f hf hprivate => ?_⟩
  have hbefore := loadAppSettings_value hload f hf
  have hsame := (load_saved h hf (by rw [hbefore]; rfl)).2 hprivate
  rw [loadAppSettings_value hafter f hf, hbefore] at hsame
  exact Option.some.inj hsame

end Write

section Example

attribute [local instance] Unicode.ascii

/-- The lax mode on the values of the samples. -/
@[reducible]
def pydanticSample : Pydantic Binary64 where
  str
    | .str s => some s
    | _ => none
  int
    | .int n => some n.val
    | .bool b => some (if b then 1 else 0)
    | .str s => (pyInt (strip s)).map PyInt.val
    | _ => none
  bool
    | .bool b => some b
    | .int n => if n.val = 0 then some false else if n.val = 1 then some true else none
    | _ => none
  str_str _ := rfl
  int_int _ := rfl
  bool_bool _ := rfl

attribute [local instance] pydanticSample

def emptyEnvironment : Environment Binary64 := ⟨Dict.empty, Dict.empty, ⟨[], [], [], [], [], []⟩⟩

def portalIni : Text := lit "OptionSettings=(AdminPassword=\"s3cret\",ServerName=\"Pals\",PublicPort=8211)"

def renamed : Settings Binary64 :=
  Dict.ofList [(lit "ServerName", .str (lit "Pals, again")), (lit "bEnableFriendlyFire", .bool true)]

theorem renamed_harmless : Harmless emptyEnvironment portalIni renamed where
  isolated := by decide +kernel
  stable := by decide +kernel
  onlyPublic := by decide +kernel
  accepted := by decide +kernel

theorem harmless_write_renamed : ∃ before after, loadAppSettings emptyEnvironment (some portalIni) = some before ∧
    loadAppSettings emptyEnvironment (some (mergeAndSerialize (some portalIni) renamed)) = some after ∧
    ∀ f hf, f.name ∉ publicFields → after f hf = before f hf := by
  have hloads : (loadAppSettings emptyEnvironment (some portalIni)).isSome = true := by decide +kernel
  obtain ⟨before, hload⟩ := Option.isSome_iff_exists.mp hloads
  obtain ⟨after, hload', hsame⟩ := harmless_write renamed_harmless hload
  exact ⟨before, after, hload, hload', hsame⟩

def aliased : Settings Binary64 := Dict.ofList [(lit "ADMIN_PASSWORD", .str (lit "mine"))]

/-- The filter does not know the aliases of the password. -/
theorem alias_sets_password : ¬ ∀ (live : Text) (incoming : Settings Binary64) (before : AppSettings Binary64),
    loadAppSettings emptyEnvironment (some live) = some before →
    ∃ after, loadAppSettings emptyEnvironment (some (mergeAndSerialize (some live) incoming)) = some after ∧
      ∀ f hf, f.name ∉ publicFields → after f hf = before f hf := by
  intro h
  let f : AppField Binary64 := strField "AdminPassword" ["ADMIN_PASSWORD"] "admin_password"
  have hf : f ∈ appFields := List.mem_cons_self
  have hloads : (loadAppSettings emptyEnvironment (some portalIni)).isSome = true := by decide +kernel
  obtain ⟨before, hload⟩ := Option.isSome_iff_exists.mp hloads
  obtain ⟨after, hload', hsame⟩ := h portalIni aliased before hload
  have hbefore := loadAppSettings_value hload f hf
  have hafter := loadAppSettings_value hload' f hf
  rw [hsame f hf (by decide +kernel)] at hafter
  have hne : f.load emptyEnvironment (iniSource (some (mergeAndSerialize (some portalIni) aliased)))
      ≠ f.load emptyEnvironment (iniSource (some portalIni)) := by decide +kernel
  exact hne (hafter.trans hbefore.symm)

end Example

end Palworld.Config

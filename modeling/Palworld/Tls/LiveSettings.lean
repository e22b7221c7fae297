import Palworld.Config.Harmless
import Palworld.Lib.Run
import Palworld.Tls.Scheduler

/-!
# The TLS settings in memory

`update_tls_settings` assigns to the object that the routers bound at import, and then has the
singleton rebuilt from the environment and the INI. The scheduler reads the singleton.
-/

open Lib Palworld.Config

namespace Palworld.Tls

inductive TlsField
  | autoRenew
  | certMode
  deriving DecidableEq

def SSLCertMode.text : SSLCertMode → Text
  | .letsencrypt => lit "letsencrypt"
  | .selfSigned => lit "self_signed"
  | .custom => lit "custom"

structure TLSSettingsUpdateRequest where
  autoRenew : Option Bool
  certMode : Option SSLCertMode

def TLSSettingsUpdateRequest.value (payload : TLSSettingsUpdateRequest) : TlsField → Option FieldValue
  | .autoRenew => payload.autoRenew.map .bool
  | .certMode => payload.certMode.map fun mode => .str mode.text

section Object

variable {F : Type}

def TlsField.field : TlsField → AppField F
  | .autoRenew => boolField "ssl_auto_renew" (aliasChoices "SSL_AUTO_RENEW" "ssl_auto_renew") false
  | .certMode =>
    { strField "ssl_cert_mode" (aliasChoices "SSL_CERT_MODE" "ssl_cert_mode") "letsencrypt" with
      type := .literal (["letsencrypt", "self_signed", "custom"].map lit) }

theorem TlsField.field_mem (t : TlsField) : t.field ∈ (appFields : List (AppField F)) := by
  cases t with
  | autoRenew => exact List.mem_of_getElem? (show appFields[37]? = some _ from rfl)
  | certMode => exact List.mem_of_getElem? (show appFields[38]? = some _ from rfl)

def readField (cfg : AppSettings F) (t : TlsField) : FieldValue := cfg t.field t.field_mem

/-- `cfg.name = value`. Assignments are not validated. -/
def assignField (cfg : AppSettings F) (t : TlsField) (v : FieldValue) : AppSettings F :=
  fun f hf => if f.name = (t.field : AppField F).name then v else cfg f hf

theorem readField_assignField {cfg : AppSettings F} {t t' : TlsField} {v : FieldValue} :
    readField (assignField cfg t v) t' = if t' = t then v else readField cfg t' := by
  have hname : (t'.field : AppField F).name = (t.field : AppField F).name ↔ t' = t := by
    cases t <;> cases t' <;> simp [TlsField.field, strField, boolField] <;> decide +kernel
  simp only [readField, assignField, hname]

end Object

/-! ## The requests -/

section Requests

variable {F : Type} [Unicode] [PyFloat F] [Pydantic F]

/-- The singleton is the object of the routers until it is rebuilt for the first time. -/
structure Live (F : Type) where
  settings : AppSettings F
  rebuilt : Option (AppSettings F)
  env : Environment F
  ini : Option Text
  accepted : TlsField → Option FieldValue    -- the value that a request was last accepted with

def getSettings (s : Live F) : AppSettings F := s.rebuilt.getD s.settings

/-- `reload_settings`, and whether it returns. When the new object is invalid, the old one stays. -/
def reloadSettings (s : Live F) : Live F × Bool :=
  match loadAppSettings s.env s.ini with
  | some fresh => ({ s with rebuilt := some fresh }, true)
  | none => (s, false)

def assignNamed (payload : TLSSettingsUpdateRequest) (t : TlsField) (done : AppSettings F × Bool) : AppSettings F × Bool :=
  match payload.value t with
  | some v => if v ≠ readField done.1 t then (assignField done.1 t v, true) else done
  | none => done

def assigned (payload : TLSSettingsUpdateRequest) (cfg : AppSettings F) : AppSettings F × Bool :=
  assignNamed payload .certMode (assignNamed payload .autoRenew (cfg, false))

/-- `update_tls_settings`. `answers` says that nothing behind the rebuild raises. -/
def updateTlsSettings (payload : TLSSettingsUpdateRequest) (answers : Bool) (s : Live F) : Live F :=
  let after := { s with settings := (assigned payload s.settings).1 }
  let reloaded := if (assigned payload s.settings).2 then reloadSettings after else (after, true)
  if reloaded.2 && answers then
    { reloaded.1 with accepted := fun t => (payload.value t).or (reloaded.1.accepted t) }
  else reloaded.1

/-- A settings save, or a reboot with settings, writes the INI and later rebuilds the singleton. -/
inductive LiveAction (F : Type)
  | update (payload : TLSSettingsUpdateRequest) (answers : Bool)
  | writeIni (incoming : Settings F)
  | rebuild
  | outside (env : Environment F) (ini : Option Text)     -- the operator or the game edits the files

def LiveAction.run (s : Live F) : LiveAction F → Live F
  | .update payload answers => updateTlsSettings payload answers s
  | .writeIni incoming => { s with ini := some (mergeAndSerialize s.ini incoming) }
  | .rebuild => (reloadSettings s).1
  | .outside env ini => { s with env, ini }

def LiveStep (s : Live F) (a : LiveAction F) (t : Live F) : Prop := a.run s = t

def Started (s : Live F) : Prop :=
  s.rebuilt = none ∧ s.accepted = (fun _ => none) ∧ loadAppSettings s.env s.ini = some s.settings

/-- The scheduler reads the values that were last accepted. -/
def AsAccepted (s : Live F) : Prop := ∀ t v, s.accepted t = some v → readField (getSettings s) t = v

/-! ## What keeps the values -/

/-- The environment and the INI give these values, or an invalid field. -/
def Gives (s : Live F) (values : TlsField → Option FieldValue) : Prop :=
  (loadAppSettings s.env s.ini).isSome = true →
    ∀ t v, values t = some v → (t.field : AppField F).load s.env (iniSource s.ini) = some v

def Changes (payload : TLSSettingsUpdateRequest) (s : Live F) : Prop :=
  ∃ t v, payload.value t = some v ∧ v ≠ readField s.settings t

/-- What a step must find. A rebuild has to find the accepted values in the environment and the INI. A
request without a rebuild has to name values that the singleton has. -/
def Harmonious (s : Live F) : LiveAction F → Prop
  | .update payload answers =>
    (Changes payload s →
      Gives s (fun t => if answers then (payload.value t).or (s.accepted t) else s.accepted t) ∧
      (loadAppSettings s.env s.ini = none → s.rebuilt = none →
        ∀ t v w, s.accepted t = some v → payload.value t = some w → v = w)) ∧
    (¬ Changes payload s → answers = true → ∀ t v, payload.value t = some v → readField (getSettings s) t = v)
  | .rebuild => Gives s s.accepted
  | .writeIni _ | .outside _ _ => True

end Requests

section Lemmas

variable {F : Type} [Unicode] [PyFloat F] [Pydantic F] {s : Live F} {payload : TLSSettingsUpdateRequest} {answers : Bool}

omit [Unicode] [PyFloat F] [Pydantic F] in
theorem readField_assignNamed {done : AppSettings F × Bool} {t t' : TlsField} :
    readField (assignNamed payload t done).1 t' =
      if t' = t then (payload.value t).getD (readField done.1 t) else readField done.1 t' := by
  unfold assignNamed
  cases hvalue : payload.value t with
  | none => simp +contextual
  | some v =>
    by_cases hne : v = readField done.1 t
    · simp +contextual [← hne]
    · simp [hne, readField_assignField]

omit [Unicode] [PyFloat F] [Pydantic F] in
theorem changed_assignNamed {done : AppSettings F × Bool} {t : TlsField} :
    (assignNamed payload t done).2 = true ↔
      done.2 = true ∨ ∃ v, payload.value t = some v ∧ v ≠ readField done.1 t := by
  unfold assignNamed
  cases hvalue : payload.value t with
  | none => simp
  | some v =>
    by_cases hne : v = readField done.1 t <;> simp [hne]

omit [Unicode] [PyFloat F] [Pydantic F] in
theorem readField_assigned {cfg : AppSettings F} {t : TlsField} :
    readField (assigned payload cfg).1 t = (payload.value t).getD (readField cfg t) := by
  unfold assigned
  cases t <;> simp [readField_assignNamed]

omit [Unicode] [PyFloat F] [Pydantic F] in
theorem changed_assigned : (assigned payload s.settings).2 = true ↔ Changes payload s := by
  unfold assigned Changes
  rw [changed_assignNamed, changed_assignNamed, readField_assignNamed]
  simp only [reduceCtorEq, if_false, Bool.false_eq_true, false_or]
  constructor
  · rintro (⟨v, hv⟩ | ⟨v, hv⟩)
    · exact ⟨_, v, hv⟩
    · exact ⟨_, v, hv⟩
  · rintro ⟨t, v, hv⟩
    cases t with
    | autoRenew => exact .inl ⟨v, hv⟩
    | certMode => exact .inr ⟨v, hv⟩

theorem readField_fresh {fresh : AppSettings F} (hload : loadAppSettings s.env s.ini = some fresh) {t : TlsField}
    {v : FieldValue} : (t.field : AppField F).load s.env (iniSource s.ini) = some v ↔ readField fresh t = v := by
  rw [loadAppSettings_value hload t.field t.field_mem, Option.some.injEq]
  rfl

theorem gives_iff {fresh : AppSettings F} (hload : loadAppSettings s.env s.ini = some fresh)
    {values : TlsField → Option FieldValue} :
    Gives s values ↔ ∀ t v, values t = some v → readField fresh t = v := by
  simp only [Gives, hload, Option.isSome_some, true_implies, readField_fresh hload]

theorem rebuild_iff (h : AsAccepted s) : AsAccepted (reloadSettings s).1 ↔ Gives s s.accepted := by
  unfold reloadSettings
  cases hload : loadAppSettings s.env s.ini with
  | none => simp [Gives, hload, h]
  | some fresh => rw [gives_iff hload]; rfl

theorem update_changes (h : AsAccepted s) (hchanges : Changes payload s) :
    AsAccepted (updateTlsSettings payload answers s) ↔
      Gives s (fun t => if answers then (payload.value t).or (s.accepted t) else s.accepted t) ∧
      (loadAppSettings s.env s.ini = none → s.rebuilt = none →
        ∀ t v w, s.accepted t = some v → payload.value t = some w → v = w) := by
  have hassigned := changed_assigned.mpr hchanges
  unfold updateTlsSettings reloadSettings
  simp only [hassigned, if_true]
  cases hload : loadAppSettings s.env s.ini with
  | some fresh =>
    rw [gives_iff hload]
    cases answers <;> simp [AsAccepted, getSettings]
  | none =>
    -- The assignments stay, and the singleton shows them if it is the same object.
    simp only [Gives, hload, Bool.false_and, Bool.false_eq_true, if_false, Option.isSome_none, false_implies, true_and,
      true_implies]
    cases hrebuilt : s.rebuilt with
    | some other =>
      simp only [reduceCtorEq, false_implies, iff_true]
      intro t v hv
      simpa [getSettings, hrebuilt] using h t v hv
    | none =>
      simp only [AsAccepted, getSettings, Option.getD_none, readField_assigned, true_implies]
      refine forall_congr' fun t => forall_congr' fun v => ?_
      have hsame := h t v
      simp only [getSettings, hrebuilt, Option.getD_none] at hsame
      cases hvalue : payload.value t with
      | none => simpa [hvalue] using hsame
      | some w => simp [eq_comm]

theorem update_keeps (h : AsAccepted s) (hkeeps : ¬ Changes payload s) :
    AsAccepted (updateTlsSettings payload answers s) ↔
      (answers = true → ∀ t v, payload.value t = some v → readField (getSettings s) t = v) := by
  have hassigned : (assigned payload s.settings).2 = false := by
    rw [Bool.eq_false_iff]
    exact mt changed_assigned.mp hkeeps
  have hread : ∀ t, readField (getSettings { s with settings := (assigned payload s.settings).1 }) t =
      readField (getSettings s) t := by
    intro t
    cases hrebuilt : s.rebuilt with
    | some other => simp [getSettings, hrebuilt]
    | none =>
      simp only [getSettings, hrebuilt, Option.getD_none, readField_assigned]
      cases hvalue : payload.value t with
      | none => rfl
      | some v =>
        by_contra hne
        exact hkeeps ⟨t, v, hvalue, hne⟩
  unfold updateTlsSettings
  simp only [hassigned, Bool.false_eq_true, if_false, Bool.true_and]
  cases answers with
  | false =>
    simp only [Bool.false_eq_true, if_false, false_implies, iff_true]
    intro t v hv
    exact (hread t).trans (h t v hv)
  | true =>
    simp only [if_true, true_implies]
    constructor
    · intro hafter t v hv
      rw [← hread t]
      exact hafter t v (by simp [hv])
    · intro hnamed t v hv
      have hgoal : readField (getSettings s) t = v := by
        rcases Option.or_eq_some_iff.mp hv with hv | ⟨-, hv⟩
        · exact hnamed t v hv
        · exact h t v hv
      exact (hread t).trans hgoal

theorem asAccepted_run_iff (h : AsAccepted s) (a : LiveAction F) : AsAccepted (a.run s) ↔ Harmonious s a := by
  cases a with
  | update payload answers =>
    unfold LiveAction.run Harmonious
    by_cases hchanges : Changes payload s
    · simp only [update_changes h hchanges, hchanges, true_implies, not_true_eq_false, false_implies, and_true]
    · simp only [update_keeps h hchanges, hchanges, false_implies, not_false_eq_true, true_implies, true_and]
  | rebuild => exact rebuild_iff h
  | writeIni incoming => exact iff_of_true h trivial
  | outside env ini => exact iff_of_true h trivial

/-- **The settings stay as they were last accepted** in every run whose steps are harmonious. -/
theorem tls_settings_stay (h : Reachable Started (Only LiveStep Harmonious) s) : AsAccepted s := by
  refine h.invariant (fun s hstarted t v hv => ?_) fun s a t hs hstep => ?_
  · rw [hstarted.2.1] at hv
    cases hv
  · obtain ⟨rfl, hharmonious⟩ := hstep
    exact (asAccepted_run_iff hs a).mpr hharmonious

end Lemmas

section Example

attribute [local instance] Unicode.ascii pydanticSample

def startSample : Live Binary64 where
  settings := (loadAppSettings emptyEnvironment none).get (by decide +kernel)
  rebuilt := none
  env := emptyEnvironment
  ini := none
  accepted _ := none

theorem startSample_started : Started startSample := ⟨rfl, rfl, by simp [startSample]⟩

def renewEnvironment : Environment Binary64 :=
  { emptyEnvironment with vars := Dict.ofList [(lit "SSL_AUTO_RENEW", .bool true)] }

theorem tls_settings_stay_renewed :
    AsAccepted ((LiveAction.update ⟨some true, none⟩ true).run
      ((LiveAction.outside renewEnvironment none).run startSample)) := by
  apply tls_settings_stay
  refine ((Reachable.of_init startSample_started).step ⟨rfl, trivial⟩).step ⟨rfl, ?_⟩
  have hchanges : Changes ⟨some true, none⟩ ((LiveAction.outside renewEnvironment none).run startSample) :=
    ⟨.autoRenew, .bool true, rfl, by decide +kernel⟩
  refine ⟨fun _ => ⟨fun _ t v hv => ?_, ?_⟩, fun hkeeps => absurd hchanges hkeeps⟩
  · cases t with
    | autoRenew =>
      cases hv
      decide +kernel
    | certMode => cases hv
  · intro hload
    exact absurd hload (by decide +kernel)

/-- An accepted request switches the toggle on, and the rebuild behind it switches it off again. -/
theorem accepted_toggle_is_lost : ¬ ∀ s : Live Binary64, Reachable Started LiveStep s → AsAccepted s := by
  intro h
  have hreach : Reachable Started LiveStep ((LiveAction.update ⟨some true, none⟩ true).run startSample) :=
    (Reachable.of_init startSample_started).step rfl
  have hread := h _ hreach .autoRenew (.bool true) (by decide +kernel)
  exact absurd hread (by decide +kernel)

end Example

end Palworld.Tls

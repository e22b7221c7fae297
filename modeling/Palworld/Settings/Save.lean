import Palworld.Config.Pipeline
import Palworld.Settings.Newest

/-!
# Concurrent saves

`save_sanitized_settings` merges into the live INI, writes the text in a worker thread
and waits for the readiness of the server. Other saves go on at each of its awaits.
-/

open Lib Palworld.Config

namespace Palworld.Settings

section Requests

variable {ι F : Type} [DecidableEq ι] [Unicode] [PyFloat F]

inductive SavePhase
  | idle
  | merged (text : Text)
  | written (text : Text)
  | returned (success : Bool)
  deriving DecidableEq

structure Saves (ι : Type) where
  store : Store
  phase : ι → SavePhase

/-- The parts of a request between its awaits. -/
inductive SaveAct (ι : Type)
  | merge (i : ι)
  | write (i : ι) (io : IniIo)
  | finish (i : ι) (io : IniIo) (ready : Option Bool) (reloads : Bool)

def Saves.setPhase (s : Saves ι) (i : ι) (phase : SavePhase) : Saves ι :=
  { s with phase := Function.update s.phase i phase }

/-- The request after `check_readiness`, which raises when `ready` is `none`. -/
def finishSave (io : IniIo) (text : Text) (ready : Option Bool) (reloads : Bool) (st : Store) : Store × Bool :=
  match ready with
  | none => (st, false)
  | some false => (st, reloads)
  | some true => ({ inis := stageSettingsForReboot io st.inis text, stagedIni := some text }, reloads)

def saveStep (incoming : ι → Settings F) (s : Saves ι) : SaveAct ι → Option (Saves ι)
  | .merge i =>
    match s.phase i with
    | .idle => some (s.setPhase i (.merged (mergeAndSerialize (s.store.inis .target) (incoming i))))
    | _ => none
  | .write i io =>
    match s.phase i with
    | .merged text =>
      match writeIniFileWithFallback io s.store.inis text with
      | some inis => some ({ s with store := { s.store with inis := inis } }.setPhase i (.written text))
      | none => some (s.setPhase i (.returned false))
    | _ => none
  | .finish i io ready reloads =>
    match s.phase i with
    | .written text =>
      let r := finishSave io text ready reloads s.store
      some ({ s with store := r.1 }.setPhase i (.returned r.2))
    | _ => none

def SaveStep (incoming : ι → Settings F) (s : Saves ι) (a : SaveAct ι) (s' : Saves ι) : Prop :=
  saveStep incoming s a = some s'

omit [Unicode] in
theorem finishSave_after_write (io : IniIo) (text : Text) (ready : Option Bool) (reloads : Bool) (st : Store) :
    saveSettings io text ready reloads st =
      match writeIniFileWithFallback io st.inis text with
      | none => (st, false)
      | some inis => finishSave io text ready reloads { st with inis := inis } := by
  unfold saveSettings
  cases writeIniFileWithFallback io st.inis text with
  | none => rfl
  | some inis => rcases ready with _ | _ | _ <;> rfl

/-! ## The condition -/

def SavePhase.isMerged : SavePhase → Bool
  | .merged _ => true
  | _ => false

/-- Every value of the payload reads back as itself, and every entry of the merged dict keeps to itself. -/
def ReadsBack (ini : Option Text) (incoming : Settings F) : Prop :=
  (∀ kv ∈ incoming.entries, reread kv.1 kv.2 = some kv.2) ∧ ∀ kv ∈ (merge ini incoming).entries, Isolated kv

/-- No request merges while another one is between its merge and its write, and writes go to the INI. -/
def Apart (incoming : ι → Settings F) (s : Saves ι) : SaveAct ι → Prop
  | .merge i => (∀ j, (s.phase j).isMerged = false) ∧ ReadsBack (s.store.inis .target) (incoming i)
  | .write _ io => io .target = true
  | .finish .. => True

/-! ## The invariant -/

/-- The file holds the payload, and a later save would keep it. -/
def Holds (ini : Option Text) (incoming : Settings F) : Prop :=
  ∀ kv ∈ incoming.entries, reread kv.1 kv.2 = some kv.2 ∧ (liveSettings ini).get? kv.1 = some kv.2

def SavePhase.isDone : SavePhase → Bool
  | .written _ => true
  | .returned success => success
  | _ => false

/-- What was written is in the file, and what was merged was merged into the file as it is. -/
structure Kept (incoming : ι → Settings F) (s : Saves ι) : Prop where
  done (i : ι) : (s.phase i).isDone = true → Holds (s.store.inis .target) (incoming i)
  merged (i : ι) (text : Text) : s.phase i = .merged text →
    text = mergeAndSerialize (s.store.inis .target) (incoming i) ∧ ReadsBack (s.store.inis .target) (incoming i)
  alone (i j : ι) : (s.phase i).isMerged = true → (s.phase j).isMerged = true → i = j

/-- No payload has a protected key, and no two have a key in common. -/
structure Disjoint (incoming : ι → Settings F) : Prop where
  isPublic (i : ι) : ∀ kv ∈ (incoming i).entries, isProtected kv.1 = false
  apart (i j : ι) : i ≠ j → ∀ kv ∈ (incoming i).entries, (incoming j).get? kv.1 = none

variable {incoming : ι → Settings F} {s s' : Saves ι}

theorem get?_saved {ini : Option Text} {incoming : Settings F} (h : ReadsBack ini incoming) (k : Text)
    (hpublic : isProtected k = false) :
    (liveSettings (some (mergeAndSerialize ini incoming)) : Settings F).get? k
      = ((incoming.get? k).or ((liveSettings ini).get? k)).bind (reread k) := by
  have hparse := get?_parse_serialize_of_isolated h.2 k
  rw [get?_merge, hpublic, if_neg (by decide)] at hparse
  exact hparse

theorem Holds.own {ini : Option Text} {incoming : Settings F} (h : ReadsBack ini incoming)
    (hpublic : ∀ kv ∈ incoming.entries, isProtected kv.1 = false) :
    Holds (some (mergeAndSerialize ini incoming)) incoming := by
  intro kv hkv
  have hreread := h.1 kv hkv
  refine ⟨hreread, ?_⟩
  rw [get?_saved h _ (hpublic kv hkv), Dict.mem_entries.mp hkv]
  exact hreread

theorem Holds.other {ini : Option Text} {incoming other : Settings F} (h : ReadsBack ini incoming)
    (hother : Holds ini other) (hpublic : ∀ kv ∈ other.entries, isProtected kv.1 = false)
    (happart : ∀ kv ∈ other.entries, incoming.get? kv.1 = none) :
    Holds (some (mergeAndSerialize ini incoming)) other := by
  intro kv hkv
  obtain ⟨hreread, hlive⟩ := hother kv hkv
  refine ⟨hreread, ?_⟩
  rw [get?_saved h _ (hpublic kv hkv), happart kv hkv, Option.none_or, hlive]
  exact hreread

theorem Kept.merge (h : Kept incoming s) {i : ι} (hidle : s.phase i = .idle)
    (hcond : Apart incoming s (.merge i)) :
    Kept incoming (s.setPhase i (.merged (mergeAndSerialize (s.store.inis .target) (incoming i)))) := by
  obtain ⟨hnone, hreads⟩ := hcond
  refine ⟨fun j hj => ?_, fun j text hj => ?_, fun j k hj hk => ?_⟩
  all_goals simp only [Saves.setPhase, Function.update_apply] at *
  · split at hj
    · cases hj
    · exact h.done j hj
  · split at hj
    · rename_i hji
      subst hji
      cases hj
      exact ⟨rfl, hreads⟩
    · exact h.merged j text hj
  · by_cases hji : j = i <;> by_cases hki : k = i
    · rw [hji, hki]
    · rw [if_neg hki, hnone k] at hk
      cases hk
    · rw [if_neg hji, hnone j] at hj
      cases hj
    · rw [if_neg hji, hnone j] at hj
      cases hj

theorem Kept.write (hd : Disjoint incoming) (h : Kept incoming s) {i : ι} {text : Text} {inis : Inis}
    (hmerged : s.phase i = .merged text) (hinis : inis .target = some text) :
    Kept incoming ({ s with store := { s.store with inis := inis } }.setPhase i (.written text)) := by
  obtain ⟨htext, hreads⟩ := h.merged i text hmerged
  have hother : ∀ j, j ≠ i → (s.phase j).isMerged = false := by
    intro j hji
    by_contra hj
    exact hji (h.alone j i (by simpa using hj) (by rw [hmerged]; rfl))
  refine ⟨fun j hj => ?_, fun j text' hj => ?_, fun j k hj hk => ?_⟩
  all_goals simp only [Saves.setPhase, Function.update_apply] at *
  · rw [hinis, htext]
    by_cases hji : j = i
    · subst hji
      exact Holds.own hreads (hd.isPublic j)
    · rw [if_neg hji] at hj
      -- The merge read the file as it is now, with what the other request had written.
      exact Holds.other hreads (h.done j hj) (hd.isPublic j) (hd.apart j i hji)
  · split at hj
    · cases hj
    · rename_i hji
      have hno := hother j hji
      rw [hj] at hno
      cases hno
  · by_cases hji : j = i
    · rw [if_pos hji] at hj
      cases hj
    · rw [if_neg hji, hother j hji] at hj
      cases hj

theorem Kept.returned (h : Kept incoming s) {i : ι} {st : Store} {success : Bool}
    (hst : st.inis .target = s.store.inis .target) (hdone : success = true → (s.phase i).isDone = true) :
    Kept incoming ({ s with store := st }.setPhase i (.returned success)) := by
  refine ⟨fun j hj => ?_, fun j text hj => ?_, fun j k hj hk => ?_⟩
  all_goals simp only [Saves.setPhase, Function.update_apply] at *
  · rw [hst]
    by_cases hji : j = i
    · subst hji
      rw [if_pos rfl] at hj
      exact h.done j (hdone hj)
    · rw [if_neg hji] at hj
      exact h.done j hj
  · rw [hst]
    split at hj
    · cases hj
    · exact h.merged j text hj
  · by_cases hji : j = i
    · rw [if_pos hji] at hj
      cases hj
    · by_cases hki : k = i
      · rw [if_pos hki] at hk
        cases hk
      · rw [if_neg hji] at hj
        rw [if_neg hki] at hk
        exact h.alone j k hj hk

omit [Unicode] in
theorem finishSave_target (io : IniIo) (text : Text) (ready : Option Bool) (reloads : Bool) (st : Store) :
    (finishSave io text ready reloads st).1.inis .target = st.inis .target := by
  rcases ready with _ | _ | _
  · rfl
  · rfl
  · exact stageSettingsForReboot_target

theorem Kept.step (hd : Disjoint incoming) (h : Kept incoming s) {a : SaveAct ι}
    (hstep : Only (SaveStep incoming) (Apart incoming) s a s') : Kept incoming s' := by
  obtain ⟨hstep, hcond⟩ := hstep
  unfold SaveStep at hstep
  cases a with
  | merge i =>
    cases hphase : s.phase i <;> simp only [saveStep, hphase, reduceCtorEq, Option.some.injEq] at hstep
    subst hstep
    exact h.merge hphase hcond
  | write i io =>
    cases hphase : s.phase i <;> simp only [saveStep, hphase, reduceCtorEq] at hstep
    rename_i text
    cases hwrite : writeIniFileWithFallback io s.store.inis text with
    | none =>
      rw [hwrite] at hstep
      cases hstep
      exact h.returned rfl (fun hfalse => by cases hfalse)
    | some inis =>
      rw [hwrite] at hstep
      cases hstep
      exact h.write hd hphase ((writeIniFileWithFallback_spec hwrite).1 hcond)
  | finish i io ready reloads =>
    cases hphase : s.phase i <;> simp only [saveStep, hphase, reduceCtorEq, Option.some.injEq] at hstep
    subst hstep
    exact h.returned (finishSave_target ..) (fun _ => by rw [hphase]; rfl)

def Saves.Fresh (s : Saves ι) : Prop := ∀ i, s.phase i = .idle

/-- **No save is lost** when no merge comes between the merge and the write of another request: the
file holds the values of every request that has returned success. -/
theorem no_save_lost (hd : Disjoint incoming)
    (hreach : Reachable Saves.Fresh (Only (SaveStep incoming) (Apart incoming)) s) (i : ι)
    (hsuccess : s.phase i = .returned true) :
    ∀ kv ∈ (incoming i).entries, (liveSettings (s.store.inis .target)).get? kv.1 = some kv.2 := by
  have hkept : Kept incoming s := by
    refine hreach.invariant (fun s hfresh => ?_) fun s a s' h hstep => h.step hd hstep
    refine ⟨fun i hi => ?_, fun i text hi => ?_, fun i j hi => ?_⟩
    all_goals rw [hfresh i] at hi; cases hi
  have hholds := hkept.done i (by rw [hsuccess]; rfl)
  exact fun kv hkv => (hholds kv hkv).2

end Requests

section Example

attribute [local instance] Unicode.ascii

def defaultIni : Text := lit "OptionSettings=(Difficulty=None,ExpRate=1.000000)"

def twoPayloads : Bool → Settings Binary64
  | false => Dict.ofList [(lit "Difficulty", .str (lit "Hard"))]
  | true => Dict.ofList [(lit "DeathPenalty", .str (lit "Item"))]

def idleSaves : Saves Bool := ⟨⟨Function.update (fun _ => none) .target (some defaultIni), none⟩, fun _ => .idle⟩

def saveAlone (i : Bool) : List (SaveAct Bool) := [.merge i, .write i everyWrite, .finish i everyWrite (some false) true]

instance (ini : Option Text) (incoming : Settings Binary64) : Decidable (ReadsBack ini incoming) :=
  inferInstanceAs (Decidable (_ ∧ _))

instance (incoming : Bool → Settings Binary64) (s : Saves Bool) : (a : SaveAct Bool) → Decidable (Apart incoming s a)
  | .merge i => inferInstanceAs
      (Decidable ((∀ j, (s.phase j).isMerged = false) ∧ ReadsBack (s.store.inis .target) (incoming i)))
  | .write _ io => inferInstanceAs (Decidable (io .target = true))
  | .finish .. => isTrue trivial

theorem twoPayloads_disjoint : Disjoint twoPayloads :=
  ⟨by decide +kernel, by decide +kernel⟩

theorem no_save_lost_twice : ∃ s, exec (saveStep twoPayloads) idleSaves (saveAlone false ++ saveAlone true) = some s ∧
    s.phase false = .returned true ∧
    ∀ kv ∈ (twoPayloads false).entries, (liveSettings (s.store.inis .target)).get? kv.1 = some kv.2 := by
  have hexec : (exec (fun s a => if Apart twoPayloads s a then saveStep twoPayloads s a else none) idleSaves
      (saveAlone false ++ saveAlone true)).map (fun s => s.phase false) = some (.returned true) := by decide +kernel
  obtain ⟨s, hs, hphase⟩ := Option.map_eq_some_iff.mp hexec
  have hrun := Run.only_of_exec hs
  exact ⟨s, hrun.of_only.exec_eq, hphase,
    no_save_lost twoPayloads_disjoint ⟨idleSaves, _, fun _ => rfl, hrun⟩ false hphase⟩

/-- Two requests merge into the same file, and the second write drops what the first one has written. -/
theorem second_write_drops_first : ¬ ∀ s : Saves Bool, Reachable Saves.Fresh (SaveStep twoPayloads) s →
    s.phase false = .returned true → s.phase true = .returned true →
    ∀ i, ∀ kv ∈ (twoPayloads i).entries, (liveSettings (s.store.inis .target)).get? kv.1 = some kv.2 := by
  intro h
  have hexec : (exec (saveStep twoPayloads) idleSaves
      ([.merge false, .merge true] ++ (saveAlone false).tail ++ (saveAlone true).tail)).map (fun s =>
        decide (s.phase false = .returned true ∧ s.phase true = .returned true ∧
          ¬ ∀ i, ∀ kv ∈ (twoPayloads i).entries, (liveSettings (s.store.inis .target)).get? kv.1 = some kv.2))
      = some true := by decide +kernel
  obtain ⟨s, hs, hlost⟩ := Option.map_eq_some_iff.mp hexec
  obtain ⟨hfirst, hsecond, hlost⟩ := of_decide_eq_true hlost
  exact hlost (h s ⟨idleSaves, _, fun _ => rfl, Run.of_exec hs⟩ hfirst hsecond)

end Example

end Palworld.Settings

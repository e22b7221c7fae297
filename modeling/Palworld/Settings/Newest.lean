import Palworld.Engine.Moves

/-!
# The newest saved configuration

Saves, portal reboots and restarts of the service, in any order. A staged copy
outlives the save that made it, and the maintenance script installs the first it finds.
-/

open Lib Palworld.Engine

namespace Palworld.Settings

/-! ## The routes and the script -/

/-- `save_sanitized_settings` and the settings part of `trigger_reboot` after the merge, and whether
they succeed. `ready` is what `check_readiness` says, `none` when it raises, and `reloads` is
whether `reload_settings` returns. -/
def saveSettings (io : IniIo) (text : Text) (ready : Option Bool) (reloads : Bool) (st : Store) : Store × Bool :=
  match writeIniFileWithFallback io st.inis text with
  | none => (st, false)
  | some inis =>
    match ready with
    | none => ({ st with inis := inis }, false)
    | some false => ({ st with inis := inis }, reloads)
    | some true => ({ inis := stageSettingsForReboot io inis text, stagedIni := some text }, reloads)

/-- What happens to a run of `palworld-maintenance.sh`, which stops at the first command that fails. -/
structure MaintenanceIo where
  reaches : Bool             -- the run gets to the staged configurations
  copies : Bool              -- `cp -f` of a staged configuration
  removes : IniFile → Bool   -- `rm -f` of it

def firstStaged (inis : Inis) : Option (IniFile × Text) :=
  match inis .stagedVar with
  | some text => some (.stagedVar, text)
  | none => (inis .stagedSteam).map fun text => (.stagedSteam, text)

/-- The last step of `palworld-maintenance.sh`. -/
def synchronise (m : MaintenanceIo) (inis : Inis) : Inis :=
  match firstStaged inis with
  | none => inis
  | some (staged, text) =>
    if m.copies then
      let copied := Function.update inis .target (some text)
      if m.removes staged then Function.update copied staged none else copied
    else inis

def maintenance (m : MaintenanceIo) (inis : Inis) : Inis :=
  if m.reaches then synchronise m inis else inis

/-- The maintenance step is not cut short before it has installed what it found. -/
def MaintenanceIo.Completes (m : MaintenanceIo) (inis : Inis) : Prop :=
  m.reaches = true ∧ (firstStaged inis = none ∨ m.copies = true)

/-! ## Any order of events -/

/-- The store, and the configuration of the last save that succeeded. -/
structure Portal where
  store : Store
  saved : Option Text

inductive Event
  | save (text : Text) (io : IniIo) (ready : Option Bool) (reloads : Bool)
  | rebootSettings (text : Text) (io : IniIo) (reloads : Bool)
  | cancelReboot
  | applyStaged (io : IniIo)           -- a reboot sequence gets to MAINTENANCE
  | restart (m : MaintenanceIo)        -- the service runs the script and starts the server

def Portal.save (io : IniIo) (text : Text) (ready : Option Bool) (reloads : Bool) (p : Portal) : Portal :=
  let r := saveSettings io text ready reloads p.store
  { store := r.1, saved := if r.2 then some text else p.saved }

def Portal.event (p : Portal) : Event → Portal
  | .save text io ready reloads => p.save io text ready reloads
  | .rebootSettings text io reloads => p.save io text (some true) reloads
  | .cancelReboot => p
  | .applyStaged io => { p with store := applyStagedConfiguration io p.store }
  | .restart m => { p with store := { p.store with inis := maintenance m p.store.inis } }

def Happens (p : Portal) (ev : Event) (p' : Portal) : Prop := p.event ev = p'

def Portal.Fresh (p : Portal) : Prop :=
  p.saved = none ∧ p.store.stagedIni = none ∧ p.store.inis .stagedVar = none ∧ p.store.inis .stagedSteam = none

/-! ## The condition -/

def HoldsOnly (slot : Option Text) (text : Text) : Prop := slot = none ∨ slot = some text

/-- A request that fails leaves the store as it was. One that succeeds gets its text to the target or
to a drop-in of the script, and leaves no older copy to a drop-in or to the engine. -/
def Supersedes (io : IniIo) (text : Text) (ready : Option Bool) (reloads : Bool) (st : Store) : Prop :=
  if (saveSettings io text ready reloads st).2 then
    (io .target = true ∨ ready = some true ∧ (io .stagedVar = true ∨ io .stagedSteam = true)) ∧
      (∀ file, file = .stagedVar ∨ file = .stagedSteam →
        HoldsOnly (st.inis file) text ∨ ready = some true ∧ io file = true) ∧
      (HoldsOnly st.stagedIni text ∨ ready = some true)
  else (saveSettings io text ready reloads st).1 = st

def NoOlderCopy (p : Portal) : Event → Prop
  | .save text io ready reloads => Supersedes io text ready reloads p.store
  | .rebootSettings text io reloads => Supersedes io text (some true) reloads p.store
  | _ => True

/-! ## The invariant -/

/-- Every copy that a restart may install is the saved configuration, and some place has it. -/
structure Newest (st : Store) (text : Text) : Prop where
  stagedVar : HoldsOnly (st.inis .stagedVar) text
  stagedSteam : HoldsOnly (st.inis .stagedSteam) text
  memory : HoldsOnly st.stagedIni text
  somewhere : st.inis .target = some text ∨ st.inis .stagedVar = some text ∨ st.inis .stagedSteam = some text

def Portal.Keeps (p : Portal) : Prop :=
  match p.saved with
  | none => p.Fresh
  | some text => Newest p.store text

variable {io : IniIo} {text : Text} {inis : Inis} {st : Store} {file : IniFile} {p p' : Portal} {ev : Event}

theorem tryWriteIni_apply (io : IniIo) (text : Text) (inis : Inis) (file file' : IniFile) :
    tryWriteIni io text inis file file' = if file' = file ∧ io file = true then some text else inis file' := by
  unfold tryWriteIni atomicWriteIni
  by_cases hio : io file = true
  · by_cases hfile : file' = file
    · simp [hio, hfile]
    · simp [hio, hfile, Function.update_of_ne]
  · simp [hio]

theorem foldl_tryWriteIni (files : List IniFile) :
    files.foldl (tryWriteIni io text) inis file = if file ∈ files ∧ io file = true then some text else inis file := by
  induction files generalizing inis with
  | nil => simp
  | cons f files ih =>
    rw [List.foldl_cons, ih, tryWriteIni_apply]
    simp only [List.mem_cons]
    by_cases hfile : file = f
    · subst hfile
      by_cases hio : io file = true <;> simp [hio]
    · simp [hfile]

theorem stageSettingsForReboot_staged (h : file ∈ stagedCandidates) :
    stageSettingsForReboot io inis text file = if io file = true then some text else inis file := by
  rw [stageSettingsForReboot, foldl_tryWriteIni]
  simp only [h, true_and]

theorem stageSettingsForReboot_target : stageSettingsForReboot io inis text .target = inis .target := by
  rw [stageSettingsForReboot, foldl_tryWriteIni, if_neg]
  simp [stagedCandidates]

/-- The write goes to the target, or else to the home directory. -/
theorem writeIniFileWithFallback_spec {inis' : Inis} (h : writeIniFileWithFallback io inis text = some inis') :
    (io .target = true → inis' .target = some text) ∧ inis' .stagedVar = inis .stagedVar ∧
      inis' .stagedSteam = inis .stagedSteam := by
  unfold writeIniFileWithFallback atomicWriteIni at h
  by_cases htarget : io .target = true
  · rw [if_pos htarget, Option.some_or] at h
    cases h
    exact ⟨fun _ => Function.update_self .., rfl, rfl⟩
  · rw [if_neg htarget, Option.none_or] at h
    split at h
    · cases h
      exact ⟨fun h => absurd h htarget, rfl, rfl⟩
    · cases h

theorem HoldsOnly.ite {slot : Option Text} (c : Prop) [Decidable c] (h : c ∨ HoldsOnly slot text) :
    HoldsOnly (if c then some text else slot) text := by
  by_cases hc : c
  · rw [if_pos hc]
    exact Or.inr rfl
  · rw [if_neg hc]
    exact h.resolve_left hc

theorem ite_eq_some {slot : Option Text} (c : Prop) [Decidable c] (h : slot = some text) :
    (if c then some text else slot) = some text := by
  rw [h, ite_self]

/-! ## The events keep it -/

theorem Newest.write (h : Newest st text) {inis : Inis} (c : IniFile → Prop) [∀ file, Decidable (c file)]
    (hinis : ∀ file, inis file = if c file then some text else st.inis file) :
    Newest { inis := inis, stagedIni := none } text := by
  refine ⟨?_, ?_, Or.inl rfl, ?_⟩
  · simp only [hinis]
    exact .ite _ (Or.inr h.stagedVar)
  · simp only [hinis]
    exact .ite _ (Or.inr h.stagedSteam)
  · simp only [hinis]
    rcases h.somewhere with h | h | h
    · exact Or.inl (ite_eq_some _ h)
    · exact Or.inr (Or.inl (ite_eq_some _ h))
    · exact Or.inr (Or.inr (ite_eq_some _ h))

theorem Newest.apply (h : Newest st text) : Newest (applyStagedConfiguration io st) text := by
  unfold applyStagedConfiguration
  split
  · exact h
  · exact h
  · rename_i text' _ hmem
    have htext : text' = text := by
      rcases h.memory with hnone | hsome
      · rw [hnone] at hmem
        cases hmem
      · exact Option.some.inj (hmem.symm.trans hsome)
    subst htext
    refine h.write (fun file => (file = .target ∨ file ∈ stagedCandidates) ∧ io file = true) fun file => ?_
    rw [foldl_tryWriteIni, tryWriteIni_apply]
    cases file <;> simp [stagedCandidates]

theorem firstStaged_eq (h : Newest st text) (hnone : firstStaged st.inis = none) : st.inis .target = some text := by
  unfold firstStaged at hnone
  split at hnone
  · cases hnone
  · rename_i hvar
    have hsteam : st.inis .stagedSteam = none := Option.map_eq_none_iff.mp hnone
    rcases h.somewhere with h | h | h
    · exact h
    · rw [hvar] at h
      cases h
    · rw [hsteam] at h
      cases h

theorem firstStaged_text (h : Newest st text) {staged : IniFile} {text' : Text}
    (hsome : firstStaged st.inis = some (staged, text')) :
    text' = text ∧ (staged = .stagedVar ∨ staged = .stagedSteam) := by
  have hslot : ∀ {slot : Option Text}, HoldsOnly slot text → slot = some text' → text' = text := by
    rintro slot (hnone | hold) heq
    · rw [hnone] at heq
      cases heq
    · exact Option.some.inj (heq.symm.trans hold)
  unfold firstStaged at hsome
  split at hsome
  · rename_i hvar
    cases hsome
    exact ⟨hslot h.stagedVar hvar, Or.inl rfl⟩
  · obtain ⟨text'', hsteam, heq⟩ := Option.map_eq_some_iff.mp hsome
    cases heq
    exact ⟨hslot h.stagedSteam hsteam, Or.inr rfl⟩

theorem Newest.installs (h : Newest st text) {m : MaintenanceIo} (hm : m.Completes st.inis) :
    maintenance m st.inis .target = some text := by
  obtain ⟨hreaches, hcopies⟩ := hm
  rw [maintenance, if_pos hreaches]
  cases hfirst : firstStaged st.inis with
  | none => simpa only [synchronise, hfirst] using firstStaged_eq h hfirst
  | some found =>
    obtain ⟨staged, text'⟩ := found
    obtain ⟨rfl, hstaged⟩ := firstStaged_text h hfirst
    have hcopies : m.copies = true := hcopies.resolve_left (by rw [hfirst]; exact Option.some_ne_none _)
    simp only [synchronise, hfirst, hcopies, if_true]
    split
    · rcases hstaged with rfl | rfl <;> rfl
    · rfl

theorem maintenance_incomplete {m : MaintenanceIo} (hm : ¬ m.Completes inis) : maintenance m inis = inis := by
  unfold maintenance
  by_cases hreaches : m.reaches = true
  · have hnot := not_or.mp fun hor => hm ⟨hreaches, hor⟩
    rw [if_pos hreaches]
    cases hfirst : firstStaged inis with
    | none => exact absurd hfirst hnot.1
    | some found => simp only [synchronise, hfirst, if_neg hnot.2]
  · rw [if_neg hreaches]

theorem maintenance_other (m : MaintenanceIo) (inis : Inis) (hfile : file ≠ .target) :
    maintenance m inis file = none ∨ maintenance m inis file = inis file := by
  by_cases hm : m.Completes inis
  · rw [maintenance, if_pos hm.1]
    cases hfirst : firstStaged inis with
    | none =>
      right
      simp only [synchronise, hfirst]
    | some found =>
      have hcopies := hm.2.resolve_left (by rw [hfirst]; exact Option.some_ne_none _)
      simp only [synchronise, hfirst, hcopies, if_true]
      split
      · by_cases hstaged : file = found.1
        · left
          rw [hstaged, Function.update_self]
        · right
          rw [Function.update_of_ne hstaged, Function.update_of_ne hfile]
      · right
        rw [Function.update_of_ne hfile]
  · rw [maintenance_incomplete hm]
    exact Or.inr rfl

/-- However far a maintenance step gets, it installs nothing older. -/
theorem Newest.maintained (h : Newest st text) (m : MaintenanceIo) :
    Newest { st with inis := maintenance m st.inis } text := by
  have hslot : ∀ file, file ≠ .target → HoldsOnly (st.inis file) text → HoldsOnly (maintenance m st.inis file) text := by
    intro file hfile hold
    rcases maintenance_other m st.inis hfile with hnone | hsame
    · exact Or.inl hnone
    · rwa [hsame]
  refine ⟨hslot _ (by decide) h.stagedVar, hslot _ (by decide) h.stagedSteam, h.memory, ?_⟩
  by_cases hm : m.Completes st.inis
  · exact Or.inl (h.installs hm)
  · simp only [maintenance_incomplete hm]
    exact h.somewhere

theorem saveSettings_fresh (io : IniIo) (text : Text) (ready : Option Bool) (reloads : Bool) (st : Store)
    (hok : (saveSettings io text ready reloads st).2 = true) (h : Supersedes io text ready reloads st) :
    Newest (saveSettings io text ready reloads st).1 text := by
  rw [Supersedes, if_pos hok] at h
  obtain ⟨hlands, hstaged, hmem⟩ := h
  have hvar := hstaged .stagedVar (Or.inl rfl)
  have hsteam := hstaged .stagedSteam (Or.inr rfl)
  cases hwrite : writeIniFileWithFallback io st.inis text with
  | none => simp [saveSettings, hwrite] at hok
  | some inis =>
    obtain ⟨htarget, hvarSame, hsteamSame⟩ := writeIniFileWithFallback_spec hwrite
    cases ready with
    | none => simp [saveSettings, hwrite] at hok
    | some ready =>
      cases ready with
      -- The server is down: nothing is staged, so the copies of before must not differ.
      | false =>
        simp only [Option.some.injEq, Bool.false_eq_true, false_and, or_false] at hlands hvar hsteam hmem
        simp only [saveSettings, hwrite]
        exact ⟨by simpa only [hvarSame] using hvar, by simpa only [hsteamSame] using hsteam, hmem,
          Or.inl (htarget hlands)⟩
      | true =>
        simp only [true_and] at hlands hvar hsteam
        -- The server is up: the text goes to the engine and to every drop-in that can be written.
        have hput : ∀ file, file = .stagedVar ∨ file = .stagedSteam →
            stageSettingsForReboot io inis text file = if io file = true then some text else inis file := by
          rintro file (rfl | rfl) <;> exact stageSettingsForReboot_staged (by decide)
        simp only [saveSettings, hwrite]
        refine ⟨?_, ?_, Or.inr rfl, ?_⟩
        · simp only [hput .stagedVar (Or.inl rfl), hvarSame]
          exact .ite _ hvar.symm
        · simp only [hput .stagedSteam (Or.inr rfl), hsteamSame]
          exact .ite _ hsteam.symm
        · simp only [hput .stagedVar (Or.inl rfl), hput .stagedSteam (Or.inr rfl), stageSettingsForReboot_target]
          rcases hlands with h | h | h
          · exact Or.inl (htarget h)
          · exact Or.inr (Or.inl (if_pos h))
          · exact Or.inr (Or.inr (if_pos h))

theorem Portal.Keeps.save {ready : Option Bool} {reloads : Bool} (h : p.Keeps)
    (hcond : Supersedes io text ready reloads p.store) : (p.save io text ready reloads).Keeps := by
  by_cases hok : (saveSettings io text ready reloads p.store).2 = true
  · simp only [Portal.Keeps, Portal.save, hok, if_true]
    exact saveSettings_fresh io text ready reloads p.store hok hcond
  · rw [Supersedes, if_neg hok] at hcond
    have hsame : p.save io text ready reloads = p := by simp only [Portal.save, hcond, if_neg hok]
    rw [hsame]
    exact h

theorem Portal.Fresh.event (h : p.Fresh) (io : IniIo) (m : MaintenanceIo) :
    p.event (.applyStaged io) = p ∧ p.event (.restart m) = p := by
  obtain ⟨hsaved, hmem, hvar, hsteam⟩ := h
  have hfirst : firstStaged p.store.inis = none := by simp [firstStaged, hvar, hsteam]
  constructor
  · simp [Portal.event, applyStagedConfiguration, hmem]
  · simp [Portal.event, maintenance, synchronise, hfirst]

theorem Portal.keeps_iff : p.Keeps ↔ p.Fresh ∨ ∃ text, p.saved = some text ∧ Newest p.store text := by
  unfold Portal.Keeps
  split
  · rename_i hsaved
    simp [hsaved]
  · rename_i text hsaved
    simp [Portal.Fresh, hsaved]

theorem Portal.Keeps.event (h : p.Keeps) (hcond : NoOlderCopy p ev) : (p.event ev).Keeps := by
  cases ev with
  | save text io ready reloads => exact h.save hcond
  | rebootSettings text io reloads => exact h.save hcond
  | cancelReboot => exact h
  | applyStaged io =>
    rcases Portal.keeps_iff.mp h with hfresh | ⟨text, hsaved, hnew⟩
    · rw [(hfresh.event io ⟨true, true, fun _ => true⟩).1]
      exact h
    · exact Portal.keeps_iff.mpr (Or.inr ⟨text, hsaved, hnew.apply⟩)
  | restart m =>
    rcases Portal.keeps_iff.mp h with hfresh | ⟨text, hsaved, hnew⟩
    · rw [(hfresh.event (fun _ => true) m).2]
      exact h
    · exact Portal.keeps_iff.mpr (Or.inr ⟨text, hsaved, hnew.maintained m⟩)

theorem keeps_of_reachable (h : Reachable Portal.Fresh (Only Happens NoOlderCopy) p) : p.Keeps := by
  refine h.invariant (fun p hp => Portal.keeps_iff.mpr (Or.inl hp)) ?_
  rintro p ev p' hk ⟨rfl, hcond⟩
  exact hk.event hcond

/-- **The newest saved configuration wins.** As long as no save leaves an older copy behind, a
maintenance step installs the configuration saved last, and the engine forgets what it staged only
when some file holds it. -/
theorem newest_saved_wins (h : Reachable Portal.Fresh (Only Happens NoOlderCopy) p) :
    (∀ m text, m.Completes p.store.inis → p.saved = some text →
      (p.event (.restart m)).store.inis .target = some text) ∧
    (∀ io text, p.store.stagedIni = some text → (p.event (.applyStaged io)).store.stagedIni = none →
      ∃ file, (p.event (.applyStaged io)).store.inis file = some text) := by
  have hkeeps := Portal.keeps_iff.mp (keeps_of_reachable h)
  constructor
  · intro m text hm hsaved
    rcases hkeeps with hfresh | ⟨text', hsaved', hnew⟩
    · rw [hfresh.1] at hsaved
      cases hsaved
    · cases hsaved'.symm.trans hsaved
      exact hnew.installs hm
  · intro io text hstaged _
    rcases hkeeps with hfresh | ⟨text', hsaved', hnew⟩
    · rw [hfresh.2.1] at hstaged
      cases hstaged
    · have htext : text' = text := by
        rcases hnew.memory with hnone | hsome
        · rw [hnone] at hstaged
          cases hstaged
        · exact Option.some.inj (hsome.symm.trans hstaged)
      subst htext
      have happlied : Newest (applyStagedConfiguration io _) text' := hnew.apply
      rcases happlied.somewhere with h | h | h <;> exact ⟨_, h⟩

/-! ## Runs on fixed texts -/

def everyWrite : IniIo := fun _ => true

def wholeMaintenance : MaintenanceIo := ⟨true, true, fun _ => true⟩

def freshPortal : Portal := ⟨⟨fun _ => none, none⟩, none⟩

theorem freshPortal_fresh : freshPortal.Fresh := ⟨rfl, rfl, rfl, rfl⟩

/-- The second save finds the copies that the first one has staged. -/
theorem newest_saved_wins_twice : ∃ p, Reachable Portal.Fresh (Only Happens NoOlderCopy) p ∧
    p.store.inis .stagedVar = some ['a'] ∧ p.store.stagedIni = some ['a'] ∧
    Reachable Portal.Fresh (Only Happens NoOlderCopy) (p.event (.save ['b'] everyWrite (some true) true)) ∧
    ((p.event (.save ['b'] everyWrite (some true) true)).event (.restart wholeMaintenance)).store.inis .target = some ['b'] ∧
    ∃ file, ((p.event (.save ['b'] everyWrite (some true) true)).event (.applyStaged everyWrite)).store.inis file = some ['b'] := by
  have hfirst : Reachable Portal.Fresh (Only Happens NoOlderCopy) (freshPortal.event (.save ['a'] everyWrite (some true) true)) :=
    (Reachable.of_init freshPortal_fresh).step ⟨rfl, Or.inl rfl, fun _ _ => Or.inr ⟨rfl, rfl⟩, Or.inr rfl⟩
  have hsecond : Reachable Portal.Fresh (Only Happens NoOlderCopy)
      ((freshPortal.event (.save ['a'] everyWrite (some true) true)).event (.save ['b'] everyWrite (some true) true)) :=
    hfirst.step ⟨rfl, Or.inl rfl, fun _ _ => Or.inr ⟨rfl, rfl⟩, Or.inr rfl⟩
  obtain ⟨hinstalls, hforgets⟩ := newest_saved_wins hsecond
  exact ⟨_, hfirst, rfl, rfl, hsecond, hinstalls wholeMaintenance ['b'] ⟨rfl, Or.inr rfl⟩ rfl, hforgets everyWrite ['b'] rfl rfl⟩

/-- A save while the server is up stages its text, a save while it is down does not, and the restart
that follows installs the first one. -/
theorem older_copy_wins : ¬ ∀ p m text, Reachable Portal.Fresh Happens p → m.Completes p.store.inis →
    p.saved = some text → (p.event (.restart m)).store.inis .target = some text := by
  intro h
  have hreach : Reachable Portal.Fresh Happens
      ((freshPortal.event (.save ['a'] everyWrite (some true) true)).event (.save ['b'] everyWrite (some false) true)) :=
    ((Reachable.of_init freshPortal_fresh).step rfl).step rfl
  have hold := h _ wholeMaintenance ['b'] hreach ⟨rfl, Or.inr rfl⟩ rfl
  exact absurd hold (by decide)

/-! ## The engine -/

/-- What a step of the engine does to the store is what a reboot sequence does in its MAINTENANCE phase. -/
theorem engine_happens {cfg : EngineConfig} {e e' : PalEngine} {a : Act} (saved : Option Text) (hm : Moves cfg e a e') :
    ∃ evs, Run Happens ⟨e.store, saved⟩ evs ⟨e'.store, saved⟩ ∧ ∀ ev ∈ evs, ∃ io, ev = .applyStaged io := by
  have hperform : ∀ (hio : HostIo) (i : Nat) (ops : List Op) (e : PalEngine), ∃ evs,
      Run Happens ⟨e.store, saved⟩ evs ⟨(perform cfg hio i ops e).store, saved⟩ ∧
        ∀ ev ∈ evs, ∃ io, ev = .applyStaged io := by
    intro hio i ops
    induction ops with
    | nil => exact fun e => ⟨[], .nil _, fun _ h => by cases h⟩
    | cons op ops ih =>
      intro e
      obtain ⟨evs, hrun, hevs⟩ := ih { op.apply cfg hio e with trace := e.trace ++ [.op i op] }
      cases op with
      | applyStagedConfiguration =>
        refine ⟨.applyStaged hio.ini :: evs, .cons rfl hrun, fun ev hev => ?_⟩
        rcases List.mem_cons.mp hev with rfl | hev
        · exact ⟨_, rfl⟩
        · exact hevs ev hev
      | _ => exact ⟨evs, hrun, hevs⟩
  cases hm with
  | enter => exact hperform _ _ _ _
  | proceed => exact hperform _ _ _ _
  | _ => exact ⟨[], .nil _, fun _ h => by cases h⟩

end Palworld.Settings

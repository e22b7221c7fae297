import Palworld.Lib.Run

/-!
# A value in memory that is saved as a whole

A process changes a value and writes it beside the file that has the last one, then puts it in the place of that file. It may die at
any moment, and starts again with what the file has.
-/

namespace Lib

/-- How the value changes, and how it is written and read. `change` says whether the value is to be saved. -/
structure Keeper (σ τ κ α : Type*) where
  start : σ
  change : σ → α → Option (σ × Bool)
  encode : κ → σ → Option τ
  load : τ → Option σ

namespace Keeper

variable {σ τ κ α : Type*}

structure Sound (k : Keeper σ τ κ α) (Good : σ → Prop) : Prop where
  start : Good k.start
  change : ∀ s a, Good s → ∃ s' saves, k.change s a = some (s', saves) ∧ Good s'
  load : ∀ stamp s t, Good s → k.encode stamp s = some t → k.load t = some s

inductive Stage
  | idle
  | saving
  | written  -- the new file is there, beside the old one
  deriving DecidableEq

structure Running (σ : Type*) where
  value : σ
  stage : Stage

structure World (σ τ : Type*) where
  process : Option (Running σ)
  file : Option τ
  temp : Option τ

inductive Act (τ κ α : Type*)
  | change (a : α)
  | write (stamp : κ)
  | tear (left : Option τ)  -- a write that fails, and what it leaves
  | refuse                  -- an error before or behind the write
  | replace
  | kill
  | start (reads : Bool)    -- the process comes up; it may not be able to read the file

def step (k : Keeper σ τ κ α) (w : World σ τ) : Act τ κ α → Option (World σ τ)
  | .change a =>
    match w.process with
    | some ⟨value, .idle⟩ =>
      (k.change value a).map fun (value', saves) => { w with process := some ⟨value', if saves then .saving else .idle⟩ }
    | _ => none
  | .write stamp =>
    match w.process with
    | some ⟨value, .saving⟩ => (k.encode stamp value).map fun t => { w with process := some ⟨value, .written⟩, temp := some t }
    | _ => none
  | .tear left =>
    match w.process with
    | some ⟨value, .saving⟩ => some { w with process := some ⟨value, .idle⟩, temp := left }
    | _ => none
  | .refuse =>
    match w.process with
    | some ⟨value, .saving⟩ | some ⟨value, .written⟩ => some { w with process := some ⟨value, .idle⟩ }
    | _ => none
  | .replace =>
    match w.process, w.temp with
    | some ⟨value, .written⟩, some t => some { process := some ⟨value, .idle⟩, file := some t, temp := none }
    | _, _ => none
  | .kill =>
    match w.process with
    | some _ => some { w with process := none }
    | none => none
  | .start reads =>
    match w.process, w.file with
    | some _, _ => none
    | none, some t => if reads then (k.load t).map fun value => { w with process := some ⟨value, .idle⟩ }
      else some { w with process := some ⟨k.start, .idle⟩ }
    | none, none => some { w with process := some ⟨k.start, .idle⟩ }

def Step (k : Keeper σ τ κ α) (w : World σ τ) (a : Act τ κ α) (w' : World σ τ) : Prop := k.step w a = some w'

/-- What a step can do. -/
inductive Moves (k : Keeper σ τ κ α) (w : World σ τ) : Act τ κ α → World σ τ → Prop
  | change (a : α) (value value' : σ) (saves : Bool) (hidle : w.process = some ⟨value, .idle⟩) (hchange : k.change value a = some (value', saves)) :
    Moves k w (.change a) { w with process := some ⟨value', if saves then .saving else .idle⟩ }
  | write (stamp : κ) (value : σ) (t : τ) (hsaving : w.process = some ⟨value, .saving⟩) (hencode : k.encode stamp value = some t) :
    Moves k w (.write stamp) { w with process := some ⟨value, .written⟩, temp := some t }
  | tear (left : Option τ) (value : σ) (hsaving : w.process = some ⟨value, .saving⟩) :
    Moves k w (.tear left) { w with process := some ⟨value, .idle⟩, temp := left }
  | refuse (value : σ) (stage : Stage) (hprocess : w.process = some ⟨value, stage⟩) (hstage : stage ≠ .idle) :
    Moves k w .refuse { w with process := some ⟨value, .idle⟩ }
  | replace (value : σ) (t : τ) (hwritten : w.process = some ⟨value, .written⟩) (htemp : w.temp = some t) :
    Moves k w .replace ⟨some ⟨value, .idle⟩, some t, none⟩
  | kill : Moves k w .kill { w with process := none }
  | read (value : σ) (t : τ) (hprocess : w.process = none) (hfile : w.file = some t) (hload : k.load t = some value) :
    Moves k w (.start true) { w with process := some ⟨value, .idle⟩ }
  | fresh (reads : Bool) (hprocess : w.process = none) (hnothing : w.file = none ∨ reads = false) :
    Moves k w (.start reads) { w with process := some ⟨k.start, .idle⟩ }

/-- No process is up, and there is no file. -/
def Initial (w : World σ τ) : Prop := w.process = none ∧ w.file = none

/-! ## What is in memory, and what is on the disk -/

/-- The changes that are in memory, and those that the file stands for. -/
structure History (α : Type*) where
  seen : List α
  kept : List α

def History.next (history : History α) : Act τ κ α → History α
  | .change a => { history with seen := history.seen ++ [a] }
  | .replace => { history with kept := history.seen }
  | .start reads => { history with seen := if reads then history.kept else [] }
  | .write _ | .tear _ | .refuse | .kill => history

def history (acts : List (Act τ κ α)) : History α := acts.foldl History.next ⟨[], []⟩

def changes (acts : List (Act τ κ α)) : List α :=
  acts.filterMap fun act =>
    match act with
    | .change a => some a
    | _ => none

def apply (k : Keeper σ τ κ α) (s : σ) (a : α) : σ := ((k.change s a).map Prod.fst).getD s

/-- The value that the changes lead to when nothing is saved and nothing read. -/
def replay (k : Keeper σ τ κ α) (as : List α) : σ := as.foldl k.apply k.start

structure Holds (k : Keeper σ τ κ α) (w : World σ τ) (history : History α) : Prop where
  memory : ∀ running, w.process = some running → running.value = k.replay history.seen
  file : (w.file = none ∧ history.kept = []) ∨ ∃ stamp t, w.file = some t ∧ k.encode stamp (k.replay history.kept) = some t
  temp : ∀ value, w.process = some ⟨value, .written⟩ → ∃ stamp t, w.temp = some t ∧ k.encode stamp value = some t

variable {k : Keeper σ τ κ α} {Good : σ → Prop} {w w' : World σ τ} {act : Act τ κ α} {acts : List (Act τ κ α)} {a : α} {as bs : List α}

theorem history_snoc : history (acts ++ [act]) = (history acts).next act := by
  unfold history
  rw [List.foldl_append]
  rfl

theorem changes_snoc : changes (acts ++ [act]) = changes acts ++ changes [act] := List.filterMap_append

theorem replay_snoc (k : Keeper σ τ κ α) (as : List α) (a : α) : k.replay (as ++ [a]) = k.apply (k.replay as) a := by
  unfold replay
  rw [List.foldl_append]
  rfl

theorem good_replay (h : k.Sound Good) (as : List α) : Good (k.replay as) := by
  induction as using List.reverseRecOn with
  | nil => exact h.start
  | append_singleton as a ih =>
    obtain ⟨s', saves, hchange, hgood⟩ := h.change _ a ih
    rw [replay_snoc, apply, hchange]
    exact hgood

/-- What is remembered is a part of what was done, in its order. -/
theorem history_sublist (acts : List (Act τ κ α)) :
    (history acts).seen.Sublist (changes acts) ∧ (history acts).kept.Sublist (changes acts) := by
  induction acts using List.reverseRecOn with
  | nil => exact ⟨.slnil, .slnil⟩
  | append_singleton acts act ih =>
    obtain ⟨hseen, hkept⟩ := ih
    rw [history_snoc, changes_snoc]
    have hmore : ∀ {as : List α}, as.Sublist (changes acts) → as.Sublist (changes acts ++ changes [act]) := fun h =>
      h.trans (List.sublist_append_left _ _)
    cases act with
    | change a => exact ⟨hseen.append (List.Sublist.refl [a]), hmore hkept⟩
    | replace => exact ⟨hmore hseen, hmore hseen⟩
    | start reads =>
      refine ⟨?_, hmore hkept⟩
      unfold History.next
      dsimp only
      split
      · exact hmore hkept
      · exact List.nil_sublist _
    | write stamp => exact ⟨hmore hseen, hmore hkept⟩
    | tear left => exact ⟨hmore hseen, hmore hkept⟩
    | refuse => exact ⟨hmore hseen, hmore hkept⟩
    | kill => exact ⟨hmore hseen, hmore hkept⟩

/-! ## One step -/

theorem holds_initial (h : Initial w) : k.Holds w ⟨[], []⟩ := by
  obtain ⟨hprocess, hfile⟩ := h
  refine ⟨fun running hrunning => ?_, .inl ⟨hfile, rfl⟩, fun value hvalue => ?_⟩
  · rw [hprocess] at hrunning
    cases hrunning
  · rw [hprocess] at hvalue
    cases hvalue

/-- The process gives the save up. -/
theorem Holds.goOn {history : History α} (h : k.Holds w history) {value : σ} {stage : Stage} (hprocess : w.process = some ⟨value, stage⟩)
    (temp : Option τ) : k.Holds ⟨some ⟨value, .idle⟩, w.file, temp⟩ history := by
  refine ⟨?_, h.file, by rintro _ ⟨⟩⟩
  rintro _ ⟨⟩
  exact h.memory ⟨value, stage⟩ hprocess

theorem moves_of_step (hstep : k.Step w act w') : k.Moves w act w' := by
  unfold Step step at hstep
  cases act with
  | change a =>
    dsimp only at hstep
    split at hstep
    · rename_i value hidle
      obtain ⟨⟨value', saves⟩, hchange, rfl⟩ := Option.map_eq_some_iff.mp hstep
      exact .change a value value' saves hidle hchange
    · cases hstep
  | write stamp =>
    dsimp only at hstep
    split at hstep
    · rename_i value hsaving
      obtain ⟨t, hencode, rfl⟩ := Option.map_eq_some_iff.mp hstep
      exact .write stamp value t hsaving hencode
    · cases hstep
  | tear left =>
    dsimp only at hstep
    split at hstep
    · rename_i value hsaving
      cases hstep
      exact .tear left value hsaving
    · cases hstep
  | refuse =>
    dsimp only at hstep
    split at hstep
    · rename_i value hprocess
      cases hstep
      exact .refuse value _ hprocess (by decide)
    · rename_i value hprocess
      cases hstep
      exact .refuse value _ hprocess (by decide)
    · cases hstep
  | replace =>
    dsimp only at hstep
    split at hstep
    · rename_i value t hwritten htemp
      cases hstep
      exact .replace value t hwritten htemp
    · cases hstep
  | kill =>
    dsimp only at hstep
    split at hstep
    · cases hstep
      exact .kill
    · cases hstep
  | start reads =>
    dsimp only at hstep
    split at hstep
    · cases hstep
    · rename_i t hprocess hfile
      cases reads with
      | true =>
        rw [if_pos rfl] at hstep
        obtain ⟨value, hload, rfl⟩ := Option.map_eq_some_iff.mp hstep
        exact .read value t hprocess hfile hload
      | false =>
        cases hstep
        exact .fresh false hprocess (.inr rfl)
    · rename_i hprocess hfile
      cases hstep
      exact .fresh reads hprocess (.inl hfile)

/-- The process starts with what the file stands for. -/
theorem Holds.startUp (hsound : k.Sound Good) {history : History α} (h : k.Holds w history) {reads : Bool}
    (hstep : k.Step w (.start reads) w') : w' = { w with process := some ⟨k.replay (if reads then history.kept else []), .idle⟩ } := by
  cases moves_of_step hstep with
  | read value t _ htext hload =>
    rcases h.file with ⟨hnone, -⟩ | ⟨stamp, t', htext', hencode⟩
    · rw [htext] at hnone
      cases hnone
    · obtain rfl : t = t' := Option.some.inj (htext.symm.trans htext')
      have hkept := hsound.load stamp _ t (good_replay hsound _) hencode
      obtain rfl : value = _ := Option.some.inj (hload.symm.trans hkept)
      rfl
  | fresh _ _ hnothing =>
    rcases hnothing with hnone | rfl
    · rcases h.file with ⟨-, hkept⟩ | ⟨stamp, t, htext, -⟩
      · rw [hkept, ite_self]
        rfl
      · rw [hnone] at htext
        cases htext
    · rfl

theorem holds_step (hsound : k.Sound Good) {history : History α} (hholds : k.Holds w history) (hstep : k.Step w act w') :
    k.Holds w' (history.next act) := by
  obtain ⟨hmemory, hfile, htemp⟩ := id hholds
  cases moves_of_step hstep with
  | change a value value' saves hidle hchange =>
    obtain rfl : value = _ := hmemory _ hidle
    refine ⟨?_, hfile, ?_⟩
    · rintro _ ⟨⟩
      rw [History.next, replay_snoc, apply, hchange]
      rfl
    · cases saves <;> rintro value ⟨⟩
  | write stamp value t hsaving hencode =>
    obtain rfl : value = _ := hmemory _ hsaving
    refine ⟨?_, hfile, ?_⟩
    · rintro _ ⟨⟩
      rfl
    · rintro _ ⟨⟩
      exact ⟨stamp, t, rfl, hencode⟩
  | tear left value hsaving => exact hholds.goOn hsaving left
  | refuse value stage hprocess => exact hholds.goOn hprocess w.temp
  | replace value t hwritten htext =>
    obtain rfl : value = _ := hmemory _ hwritten
    obtain ⟨stamp, t', htext', hencode⟩ := htemp _ hwritten
    obtain rfl : t = t' := Option.some.inj (htext.symm.trans htext')
    refine ⟨?_, .inr ⟨stamp, t, rfl, hencode⟩, by rintro _ ⟨⟩⟩
    rintro _ ⟨⟩
    rfl
  | kill => exact ⟨by rintro _ ⟨⟩, hfile, by rintro _ ⟨⟩⟩
  | read =>
    cases hholds.startUp hsound hstep
    refine ⟨?_, hfile, by rintro _ ⟨⟩⟩
    rintro _ ⟨⟩
    rfl
  | fresh =>
    rw [hholds.startUp hsound hstep]
    refine ⟨?_, hfile, by rintro _ ⟨⟩⟩
    rintro _ ⟨⟩
    rfl

/-- **In every run** the value in memory and the file are what the history says. -/
theorem holds_run (hsound : k.Sound Good) (hw : Initial w) (h : Run k.Step w acts w') : k.Holds w' (history acts) := by
  refine h.history (P := fun acts w' => k.Holds w' (history acts)) (holds_initial hw) fun acts m act w' _ hm hstep => ?_
  rw [history_snoc]
  exact holds_step hsound hm hstep

/-! ## Nothing else happens -/

/-- What a save leaves. -/
theorem replaced (hsound : k.Sound Good) (hw : Initial w) (h : Run k.Step w (acts ++ [.replace]) w') :
    ∃ value stamp t, w' = ⟨some ⟨value, .idle⟩, some t, none⟩ ∧ Good value ∧ k.encode stamp value = some t := by
  obtain ⟨m, hrun, hlast⟩ := h.split
  have hholds := holds_run hsound hw hrun
  cases hlast with
  | cons hstep hnil =>
    cases hnil
    cases moves_of_step hstep with
    | replace value t hwritten htext =>
      obtain ⟨stamp, t', htext', hencode⟩ := hholds.temp _ hwritten
      obtain rfl : t = t' := Option.some.inj (htext.symm.trans htext')
      obtain rfl : value = _ := hholds.memory _ hwritten
      exact ⟨_, stamp, t, rfl, good_replay hsound _, hencode⟩

/-! ## A value that has come to rest -/

/-- The file can be read whenever the process comes up. -/
def Reads (_ : World σ τ) : Act τ κ α → Prop
  | .start reads => reads = true
  | _ => True

/-- The value in the file is at rest, and so is that of a process that is up. -/
structure Settled (k : Keeper σ τ κ α) (Rest : σ → Prop) (t : τ) (w : World σ τ) : Prop where
  file : w.file = some t
  cached : ∃ s, k.load t = some s ∧ Rest s
  memory : ∀ running, w.process = some running → running.stage = .idle ∧ Rest running.value

variable {Rest : σ → Prop} {t : τ}

theorem settled_step (hrest : ∀ s a s' saves, Rest s → k.change s a = some (s', saves) → saves = false ∧ Rest s')
    (h : k.Settled Rest t w) (hreads : Reads w act) (hstep : k.Step w act w') : k.Settled Rest t w' := by
  have hidle {value : σ} {stage : Stage} (hprocess : w.process = some ⟨value, stage⟩) : stage = .idle := (h.memory _ hprocess).1
  cases moves_of_step hstep with
  | change a value value' saves hprocess hchange =>
    obtain ⟨rfl, hvalue⟩ := hrest value a value' saves (h.memory _ hprocess).2 hchange
    refine ⟨h.file, h.cached, ?_⟩
    rintro _ ⟨⟩
    exact ⟨rfl, hvalue⟩
  | write stamp value t hsaving => cases hidle hsaving
  | tear left value hsaving => cases hidle hsaving
  | refuse value stage hprocess hstage => exact absurd (hidle hprocess) hstage
  | replace value t hwritten => cases hidle hwritten
  | kill => exact ⟨h.file, h.cached, by rintro _ ⟨⟩⟩
  | read value text hprocess hfile hload =>
    obtain ⟨s, hcached, hs⟩ := h.cached
    obtain rfl : text = t := Option.some.inj (hfile.symm.trans h.file)
    obtain rfl : value = s := Option.some.inj (hload.symm.trans hcached)
    refine ⟨h.file, h.cached, ?_⟩
    rintro _ ⟨⟩
    exact ⟨rfl, hs⟩
  | fresh reads hprocess hnothing =>
    rw [h.file] at hnothing
    obtain rfl : reads = true := hreads
    simp at hnothing

/-- **A value at rest stays**, however often the process dies. -/
theorem settled_run (hrest : ∀ s a s' saves, Rest s → k.change s a = some (s', saves) → saves = false ∧ Rest s')
    (hw : k.Settled Rest t w) (h : Run (Only k.Step Reads) w acts w') : k.Settled Rest t w' :=
  h.invariant (fun _ _ _ hs hstep => settled_step hrest hs hstep.2 hstep.1) hw

end Keeper

end Lib

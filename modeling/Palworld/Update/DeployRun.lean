import Palworld.Lib.Lines
import Palworld.Update.Progress
import Mathlib.Order.Interval.Finset.Nat
import Mathlib.Tactic.IntervalCases

/-!
# The output of a deployment

`deploy.sh` announces each of its five steps, lets the commands of the step print, and then
confirms it. The progress is read from the last lines of what is printed so far.
-/

open Lib

namespace Palworld.Update

/-! ## What a run prints -/

section

variable [Unicode]

def IsCount (t : Text) : Prop := t ≠ [] ∧ ∀ c ∈ t, isDecimal c = true

def IsStepWord (t : Text) : Prop := t = [] ∨ ∃ blanks, t = lit "STEP" ++ blanks ∧ blanks ≠ [] ∧ ∀ c ∈ blanks, isSpace c = true

/-- A counter in brackets, such as `[1/5]` or `[STEP 1/5]`. -/
def Bracketed (line : Text) : Prop :=
  ∃ before step count total after, line = before ++ '[' :: (step ++ count ++ '/' :: (total ++ ']' :: after)) ∧
    IsStepWord step ∧ IsCount count ∧ IsCount total

/-- A line that says nothing about the steps. -/
structure Quiet (line : Text) : Prop where
  counter : ¬ Bracketed line
  ok : ¬ okMark <:+: line
  abort : ¬ abortMark <:+: line

end

/-- The lines of a text, as `readlines` gives them. -/
def readLines (text : Text) : List Text := linesWithEnds (· == '\n') text

/-- The lines of what is printed. The log is read in text mode, where `\r` ends a line as well. -/
def logOf (printed : Text) : List Text := readLines (universalNewlines printed)

example : logOf (lit "50%\r99%\r\ndone") = [lit "50%\n", lit "99%\n", lit "done"] := by decide

/-- The title of a step and what its commands print. -/
structure StepOutput [Unicode] where
  body : Text
  titled : ∃ c ∈ (universalNewlines body).takeWhile (· ≠ '\n'), isSpace c = false
  quiet : ∀ line ∈ logOf body, Quiet line

def stepHead (k : Nat) : Text := lit "[STEP " ++ Nat.toDigits 10 k ++ lit "/5] "

section

variable [Unicode]

/-- `echo -n "[STEP k/5] title"`, the commands, `echo "[ OK ]"`. -/
def stepText (k : Nat) (step : StepOutput) : Text := stepHead k ++ (step.body ++ (okMark ++ ['\n']))

/-- The steps from the one with number `k` on. -/
def stepsText (k : Nat) : List StepOutput → Text
  | [] => []
  | step :: steps => stepText k step ++ stepsText (k + 1) steps

end

/-- A run of `deploy.sh`, with the lines before its first step and behind its last. -/
structure DeployRun [Unicode] where
  header : Text
  first : StepOutput
  others : List StepOutput
  footer : Text
  four : others.length = 4
  headerEnds : header = [] ∨ ∃ before, header = before ++ ['\n']
  quietHeader : ∀ line ∈ logOf header, Quiet line
  quietFooter : ∀ line ∈ logOf footer, Quiet line

section

variable [Unicode]

def DeployRun.output (run : DeployRun) : Text :=
  run.header ++ (stepText 1 run.first ++ (stepsText 2 run.others ++ run.footer))

/-- The steps that have printed `[ OK ]`, each on a line of its own. -/
def okCount (printed : Text) : Nat := (logOf printed).countP fun line => okMark <:+: line

end

/-! ## Counters -/

section

variable [Unicode] {t rest digits line : Text} {k : Nat}

theorem stepCount_eq_some (h : stepCount t = some digits) :
    ∃ total c rest, t = digits ++ '/' :: (total ++ ']' :: c :: rest) ∧ IsCount digits ∧ IsCount total ∧ isSpace c = true := by
  unfold stepCount at h
  split at h
  · cases h
  · rename_i hcount
    split at h
    · rename_i total hslash
      split at h
      · cases h
      · rename_i htotal
        split at h
        · rename_i c rest hclose
          split at h
          · rename_i hspace
            cases h
            refine ⟨total.takeWhile isDecimal, c, rest, ?_, ⟨hcount, fun c hc => List.mem_takeWhile_imp hc⟩,
              ⟨htotal, fun c hc => List.mem_takeWhile_imp hc⟩, hspace⟩
            rw [← hclose, List.takeWhile_append_dropWhile, ← hslash, List.takeWhile_append_dropWhile]
          · cases h
        · cases h
    · cases h

theorem stepCount_count {total : Text} {c : Char} (hdigits : IsCount digits) (htotal : IsCount total) (hspace : isSpace c = true) :
    stepCount (digits ++ '/' :: (total ++ ']' :: c :: rest)) = some digits := by
  have hslash : isDecimal '/' = false := isDecimal_ascii (by decide)
  have hclose : isDecimal ']' = false := isDecimal_ascii (by decide)
  have htake : (digits ++ '/' :: (total ++ ']' :: c :: rest)).takeWhile isDecimal = digits := by
    rw [takeWhile_append_stop hslash]
    exact List.takeWhile_eq_self_iff.mpr hdigits.2
  have hdrop : (digits ++ '/' :: (total ++ ']' :: c :: rest)).dropWhile isDecimal = '/' :: (total ++ ']' :: c :: rest) := by
    rw [dropWhile_append_stop hslash, List.dropWhile_eq_nil_iff.mpr hdigits.2, List.nil_append]
  have htake' : (total ++ ']' :: c :: rest).takeWhile isDecimal = total := by
    rw [takeWhile_append_stop hclose]
    exact List.takeWhile_eq_self_iff.mpr htotal.2
  have hdrop' : (total ++ ']' :: c :: rest).dropWhile isDecimal = ']' :: c :: rest := by
    rw [dropWhile_append_stop hclose, List.dropWhile_eq_nil_iff.mpr htotal.2, List.nil_append]
  unfold stepCount
  rw [htake, hdrop, if_neg hdigits.1]
  simp [htake', hdrop', htotal.1, hspace]

omit [Unicode] in
theorem afterStep_split (t : Text) : ∃ step, t = step ++ afterStep t ∧ IsStepWord step := by
  unfold afterStep
  split
  · rename_i c after
    split
    · rename_i hspace
      refine ⟨lit "STEP" ++ c :: after.takeWhile isSpace, ?_, .inr ⟨c :: after.takeWhile isSpace, rfl, List.cons_ne_nil _ _, ?_⟩⟩
      · rw [List.append_assoc, List.cons_append, List.takeWhile_append_dropWhile]
        rfl
      · rw [List.forall_mem_cons]
        exact ⟨hspace, fun c hc => List.mem_takeWhile_imp hc⟩
    · exact ⟨[], rfl, .inl rfl⟩
  · exact ⟨[], rfl, .inl rfl⟩

theorem afterStep_append {c : Char} (h : afterStep t = c :: rest) (hc : isDecimal c = true) (u : Text) :
    afterStep (t ++ u) = c :: (rest ++ u) := by
  have hS : isDecimal 'S' = false := isDecimal_ascii (by decide)
  unfold afterStep at h
  split at h
  · rename_i d after
    split at h
    · rename_i hspace
      simp only [List.cons_append, afterStep, hspace, if_true]
      have hsplit : after = after.takeWhile isSpace ++ (c :: rest) := by rw [← h, List.takeWhile_append_dropWhile]
      have hstop : isSpace c = false := by
        have hhead := List.head?_dropWhile_not isSpace after
        rw [h] at hhead
        simpa using hhead
      rw [hsplit, List.append_assoc, List.cons_append, dropWhile_append_stop hstop,
        List.dropWhile_eq_nil_iff.mpr fun c hc => List.mem_takeWhile_imp hc, List.nil_append]
    · cases h
      rw [hS] at hc
      cases hc
  · subst h
    rw [List.cons_append]
    unfold afterStep
    split
    · rename_i heq
      obtain ⟨rfl, -⟩ := List.cons.inj heq
      rw [hS] at hc
      cases hc
    · rfl

theorem stepCount_append (h : stepCount t = some digits) (u : Text) : stepCount (t ++ u) = some digits := by
  obtain ⟨total, c, rest, rfl, hdigits, htotal, hspace⟩ := stepCount_eq_some h
  simp only [List.append_assoc, List.cons_append]
  exact stepCount_count hdigits htotal hspace

/-- A counter with a blank behind it, as the pattern wants it. -/
def Counted (t : Text) : Prop :=
  ∃ before step count total c after, t = before ++ '[' :: (step ++ count ++ '/' :: (total ++ ']' :: c :: after)) ∧
    IsStepWord step ∧ IsCount count ∧ IsCount total

theorem counted_of_stepNumber (h : stepNumber t = some digits) : Counted t := by
  induction t with
  | nil => cases h
  | cons d t ih =>
    unfold stepNumber at h
    split at h
    · rename_i hhere
      cases h
      unfold stepHere at hhere
      split at hhere
      · rename_i rest heq
        cases heq
        obtain ⟨step, hsplit, hstep⟩ := afterStep_split t
        obtain ⟨total, c, after, hcount, hdigits, htotal, -⟩ := stepCount_eq_some hhere
        refine ⟨[], step, _, total, c, after, ?_, hstep, hdigits, htotal⟩
        rw [List.nil_append, List.append_assoc, ← hcount, ← hsplit]
      · cases hhere
    · obtain ⟨before, step, count, total, c, after, rfl, hword⟩ := ih h
      exact ⟨d :: before, step, count, total, c, after, rfl, hword⟩

theorem stepHere_append (h : stepHere t = some digits) (u : Text) : stepHere (t ++ u) = some digits := by
  unfold stepHere at h
  split at h
  · rename_i rest
    obtain ⟨total, c, after, hcount, hdigits, htotal, hspace⟩ := stepCount_eq_some h
    cases digits with
    | nil => exact absurd rfl hdigits.1
    | cons digit digits =>
      have hafter := afterStep_append hcount (hdigits.2 digit (List.mem_cons_self ..)) u
      have hsame : afterStep (rest ++ u) = afterStep rest ++ u := by
        rw [hafter, hcount]
        rfl
      simp only [List.cons_append, stepHere, hsame]
      exact stepCount_append h u
  · cases h

/-- What is printed behind a step does not hide it. -/
theorem stepNumber_append (h : stepNumber t ≠ none) (u : Text) : stepNumber (t ++ u) ≠ none := by
  induction t with
  | nil => exact absurd rfl h
  | cons c t ih =>
    rw [List.cons_append]
    unfold stepNumber at h ⊢
    cases hhere : stepHere (c :: t) with
    | some digits =>
      have happend := stepHere_append hhere u
      rw [List.cons_append] at happend
      simp [happend]
    | none =>
      rw [hhere] at h
      split
      · simp
      · exact ih h

/-! ## What a line says -/

theorem isCount_toDigits (k : Nat) : IsCount (Nat.toDigits 10 k) := by
  refine ⟨Nat.toDigits_ne_nil, fun c hc => ?_⟩
  have hdigit := Nat.isDigit_of_mem_toDigits (by decide) (by decide) hc
  have hascii : c.toNat < 128 := by
    have hle := (Char.isDigit_iff_toNat.mp hdigit).2
    have hnine : '9'.toNat = 57 := rfl
    omega
  rw [isDecimal_ascii hascii]
  exact hdigit

/-- The line of a step, once something follows the counter. -/
theorem stepNumber_head (k : Nat) (t : Text) : stepNumber (stepHead k ++ t) = some (Nat.toDigits 10 k) := by
  have hfive : IsCount ['5'] := ⟨by simp, fun c hc => by
    rw [List.mem_singleton.mp hc]
    exact isDecimal_ascii (by decide)⟩
  have hline : stepHead k ++ t = '[' :: 'S' :: 'T' :: 'E' :: 'P' :: ' ' :: (Nat.toDigits 10 k ++ '/' :: (['5'] ++ ']' :: ' ' :: t)) := by
    unfold stepHead
    simp only [List.append_assoc]
    rfl
  have hafter : (Nat.toDigits 10 k ++ '/' :: (['5'] ++ ']' :: ' ' :: t)).dropWhile isSpace = Nat.toDigits 10 k ++ '/' :: (['5'] ++ ']' :: ' ' :: t) := by
    cases hdigits : Nat.toDigits 10 k with
    | nil => exact absurd hdigits Nat.toDigits_ne_nil
    | cons c digits =>
      have hnumeral : isNumeralChar c = true := isNumeralChar_toDigits (hdigits ▸ List.mem_cons_self ..)
      rw [List.cons_append, List.dropWhile_cons_of_neg (by simp [isSpace_of_isNumeralChar hnumeral])]
  have hblank : isSpace ' ' = true := rfl
  have hhere : stepHere (stepHead k ++ t) = some (Nat.toDigits 10 k) := by
    rw [hline]
    simp only [stepHere, afterStep, hblank, if_true]
    rw [hafter]
    exact stepCount_count (isCount_toDigits k) hfive rfl
  rw [hline] at hhere ⊢
  unfold stepNumber
  rw [hhere]

theorem intOf_step (hk : k ≤ 5) : intOf (Nat.toDigits 10 k) = some k := by
  have hdigit : ∀ c : Char, c.toNat < 128 → c.isDigit → Unicode.digit c = some (c.toNat - 48) := by
    intro c hascii hc
    rw [Unicode.digit_ascii c hascii, if_pos hc]
  have h0 := hdigit '0' (by decide) (by decide)
  have h1 := hdigit '1' (by decide) (by decide)
  have h2 := hdigit '2' (by decide) (by decide)
  have h3 := hdigit '3' (by decide) (by decide)
  have h4 := hdigit '4' (by decide) (by decide)
  have h5 := hdigit '5' (by decide) (by decide)
  interval_cases k <;> simp [intOf, intMaxStrDigits, Nat.toDigits, Nat.toDigitsCore, Nat.digitChar, h0, h1, h2, h3, h4, h5]

omit [Unicode] in
theorem okMark_rstrip : okMark <:+: rstrip line ↔ okMark <:+: line :=
  infix_rstrip (lit "[ OK ") rfl

omit [Unicode] in
theorem abortMark_rstrip : abortMark <:+: rstrip line ↔ abortMark <:+: line :=
  infix_rstrip (lit "Deployment aborted with erro") rfl

theorem stepNumber_of_not_bracketed (h : ¬ Bracketed line) : stepNumber (rstrip line) = none := by
  cases hstep : stepNumber (rstrip line) with
  | none => rfl
  | some digits =>
    obtain ⟨before, step, count, total, c, after, hline, hword, hcount, htotal⟩ := counted_of_stepNumber hstep
    obtain ⟨blank, hblank⟩ := rstrip_begins line
    refine absurd ⟨before, step, count, total, c :: (after ++ blank), ?_, hword, hcount, htotal⟩ h
    rw [← hblank, hline]
    simp

/-! ## Phases

A run is between two steps or within one. Its phase after some lines is all that the later lines depend on.
-/

/-- How many steps are done, and whether the next one has begun. -/
structure Phase where
  done : Nat
  running : Bool
  deriving DecidableEq

def Phase.begun (phase : Phase) : Nat := phase.done + phase.running.toNat

/-- What one line does to the phase. -/
inductive LineStep : Phase → Text → Phase → Prop
  | quiet {phase line} : stepNumber (rstrip line) = none → ¬ okMark <:+: line → LineStep phase line phase
  | begins {done digits line} : stepNumber (rstrip line) = some digits → intOf digits = some (done + 1) → ¬ okMark <:+: line →
      LineStep ⟨done, false⟩ line ⟨done, true⟩
  | passes {done digits line} : stepNumber (rstrip line) = some digits → intOf digits = some (done + 1) → okMark <:+: line →
      LineStep ⟨done, false⟩ line ⟨done + 1, false⟩
  | confirms {done line} : stepNumber (rstrip line) = none → okMark <:+: line → LineStep ⟨done, true⟩ line ⟨done + 1, false⟩

inductive Reads : Phase → List Text → Phase → Prop
  | nil {phase} : Reads phase [] phase
  | cons {phase next last line lines} : ¬ abortMark <:+: line → LineStep phase line next → Reads next lines last →
      Reads phase (line :: lines) last

section

variable {phase next last : Phase} {lines more : List Text}

theorem Reads.append (h : Reads phase lines next) (hmore : Reads next more last) : Reads phase (lines ++ more) last := by
  induction h with
  | nil => exact hmore
  | cons habort hline _ ih => exact .cons habort hline (ih hmore)

theorem Reads.split (h : Reads phase (lines ++ more) last) : ∃ next, Reads phase lines next ∧ Reads next more last := by
  induction lines generalizing phase with
  | nil => exact ⟨phase, .nil, h⟩
  | cons line lines ih =>
    cases h with
    | cons habort hline hlines =>
      obtain ⟨next, hfirst, hsecond⟩ := ih hlines
      exact ⟨next, .cons habort hline hfirst, hsecond⟩

theorem Reads.not_aborted (h : Reads phase lines last) : ∀ line ∈ lines, ¬ abortMark <:+: line := by
  induction h with
  | nil => simp
  | cons habort _ _ ih =>
    rw [List.forall_mem_cons]
    exact ⟨habort, ih⟩

theorem Reads.quiet (h : ∀ line ∈ lines, Quiet line) : Reads phase lines phase := by
  induction lines with
  | nil => exact .nil
  | cons line lines ih =>
    rw [List.forall_mem_cons] at h
    exact .cons h.1.abort (.quiet (stepNumber_of_not_bracketed h.1.counter) h.1.ok) (ih h.2)

/-- The lines that begin a step. -/
def begunCount (lines : List Text) : Nat := lines.countP fun line => (stepNumber (rstrip line)).isSome

theorem LineStep.counts (h : LineStep phase line next) :
    next.begun = phase.begun + (if (stepNumber (rstrip line)).isSome then 1 else 0) ∧
      next.done = phase.done + if okMark <:+: line then 1 else 0 := by
  cases h with
  | quiet hstep hok => simp [hstep, hok]
  | begins hstep _ hok => simp [hstep, hok, Phase.begun]
  | passes hstep _ hok => simp [hstep, hok, Phase.begun]
  | confirms hstep hok => simp [hstep, hok, Phase.begun]

/-- Within a step no other step begins. -/
theorem LineStep.begun_running (h : LineStep phase line next) (hrunning : phase.running = true) : next.begun = phase.begun := by
  cases h with
  | quiet => rfl
  | begins => cases hrunning
  | passes => cases hrunning
  | confirms => simp [Phase.begun]

/-- The lines say which phase they lead to. -/
theorem Reads.counts (h : Reads phase lines last) :
    last.begun = phase.begun + begunCount lines ∧ last.done = phase.done + lines.countP fun line => okMark <:+: line := by
  unfold begunCount
  induction h with
  | nil => simp
  | cons _ hline _ ih =>
    obtain ⟨hbegun, hdone⟩ := hline.counts
    simp only [List.countP_cons, decide_eq_true_eq]
    omega

end

theorem Reads.from_start {lines : List Text} {last : Phase} (h : Reads ⟨0, false⟩ lines last) :
    last.begun = begunCount lines ∧ last.done = lines.countP fun line => okMark <:+: line := by
  simpa [Phase.begun] using h.counts

/-! ## The scan of a window -/

/-- What is seen of the steps behind the one with number `start`. -/
def scanned (start : Nat) (phase : Phase) : Scan := ⟨Finset.Ioc start phase.begun, Finset.Ioc start phase.done⟩

section

variable {phase next last : Phase} {lines : List Text} {start : Nat}

omit [Unicode] in
theorem ioc_succ {done : Nat} (h : start ≤ done) : Finset.Ioc start (done + 1) = insert (done + 1) (Finset.Ioc start done) := by
  ext n
  simp
  omega

theorem scanLine_of_step (hstart : start ≤ phase.begun) (h : LineStep phase line next) :
    scanLine (scanned start phase) (rstrip line) = some (scanned start next) := by
  unfold scanLine scanned
  cases h with
  | quiet hstep hok => simp [hstep, okMark_rstrip, hok]
  | @begins done digits _ hstep hidx hok =>
    have hbegun := ioc_succ (show start ≤ done by simpa [Phase.begun] using hstart)
    simp [hstep, hidx, okMark_rstrip, hok, Phase.begun, hbegun]
  | @passes done digits _ hstep hidx hok =>
    have hbegun := ioc_succ (show start ≤ done by simpa [Phase.begun] using hstart)
    simp [hstep, hidx, okMark_rstrip, hok, Phase.begun, hbegun]
  | @confirms done _ hstep hok =>
    simp only [hstep, okMark_rstrip, hok, Phase.begun, Bool.toNat_true, Bool.toNat_false, true_and, add_zero]
    simp only [Phase.begun, Bool.toNat_true] at hstart
    by_cases hseen : start = done + 1
    · -- The step began before the window, so its mark goes to no step.
      simp [hseen]
    · have hne : Finset.Ioc start (done + 1) ≠ ∅ := by
        simp
        omega
      have hsup : (Finset.Ioc start (done + 1)).sup id = done + 1 := by
        apply le_antisymm
        · simp
        · apply Finset.le_sup (f := id)
          simp
          omega
      have hinsert : insert (done + 1) (Finset.Ioc start done) = Finset.Ioc start (done + 1) := by
        ext n
        simp
        omega
      simp [hne, hsup, hinsert]

theorem foldlM_of_reads (hstart : start ≤ phase.begun) (h : Reads phase lines last) :
    (lines.map rstrip).foldlM scanLine (scanned start phase) = some (scanned start last) := by
  induction h with
  | nil => rfl
  | cons _ hline _ ih =>
    rw [List.map_cons, List.foldlM_cons, scanLine_of_step hstart hline]
    apply ih
    have := hline.counts.1
    omega

/-- The scan of some lines finds the steps that begin in them. -/
theorem scanLines_of_reads (h : Reads phase lines last) : scanLines (lines.map rstrip) = some (scanned phase.begun last) := by
  have hnone : scanned phase.begun phase = ⟨∅, ∅⟩ := by
    unfold scanned
    simp [Phase.begun]
  unfold scanLines
  rw [← hnone]
  exact foldlM_of_reads (le_refl _) h

end

end

/-! ## The parts of a line -/

section

variable {line t : Text} {k : Nat}

theorem readLines_short (h : ∀ c ∈ t, (c == '\n') = false) (hne : t ≠ []) : readLines t = [t] := linesWithEnds_single h hne

theorem readLines_line (h : ∀ c ∈ line, (c == '\n') = false) : readLines (line ++ '\n' :: t) = (line ++ ['\n']) :: readLines t :=
  linesWithEnds_body h rfl

theorem okMark_line : ∀ c ∈ okMark, (c == '\n') = false := by
  have hmark : okMark.all (fun c => !(c == '\n')) = true := by decide
  simpa using List.all_eq_true.mp hmark

theorem marked_line (hline : ∀ c ∈ t, (c == '\n') = false) : ∀ c ∈ t ++ okMark, (c == '\n') = false := by
  intro c hc
  rcases List.mem_append.mp hc with hc | hc
  · exact hline c hc
  · exact okMark_line c hc

theorem readLines_ok {mark : Text} (hline : ∀ c ∈ t, (c == '\n') = false) (hmark : '[' :: mark <+: okMark ++ ['\n']) :
    readLines (t ++ '[' :: mark) = [t ++ '[' :: mark] := by
  have hbody := marked_line hline
  have hpre : t ++ '[' :: mark <+: (t ++ okMark) ++ '\n' :: [] := by
    rw [List.append_assoc, List.prefix_append_right_inj]
    exact hmark
  rcases cut_at_line hbody hpre rfl with ⟨-, hinner⟩ | ⟨b, hfull, hb⟩
  · exact readLines_short hinner (by simp)
  · obtain rfl := List.prefix_nil.mp hb
    rw [hfull, readLines_line hbody]
    rfl

def stepName (k : Nat) : Text := lit "STEP " ++ Nat.toDigits 10 k ++ lit "/5"

theorem stepHead_eq (k : Nat) : stepHead k = '[' :: (stepName k ++ [']', ' ']) := by
  unfold stepHead stepName
  simp only [List.append_assoc]
  rfl

theorem notMem_stepName {c : Char} (hdigit : c.isDigit = false) (hc : c ∉ lit "STEP /5") : c ∉ stepName k := by
  intro hmem
  unfold stepName at hmem
  rcases List.mem_append.mp hmem with hmem | hmem
  · rcases List.mem_append.mp hmem with hmem | hmem
    · exact hc (List.mem_append_left (lit "/5") hmem)
    · rw [Nat.isDigit_of_mem_toDigits (by decide) (by decide) hmem] at hdigit
      cases hdigit
  · exact hc (List.mem_append_right (lit "STEP ") hmem)

/-- The title is searched for the marks as if it stood alone. -/
theorem ok_behind_head : okMark <:+: stepHead k ++ t ↔ okMark <:+: t := by
  have hopen : '[' ∉ stepName k ++ [']', ' '] := by
    simp [notMem_stepName (k := k) (c := '[') (by decide) (by decide)]
  constructor
  · intro h
    rw [stepHead_eq, List.cons_append] at h
    rcases List.infix_cons_iff.mp h with h | h
    · have hnext : lit " OK ]" <+: (stepName k ++ [']', ' ']) ++ t := (List.cons_prefix_cons.mp h).2
      unfold stepName at hnext
      exact absurd (List.cons_prefix_cons.mp hnext).1 (by decide)
    · exact (infix_skip hopen).mp h
  · exact List.infix_append_of_infix_right

theorem abort_behind_head : abortMark <:+: stepHead k ++ t ↔ abortMark <:+: t := by
  apply infix_skip
  rw [stepHead_eq]
  simp [notMem_stepName (k := k) (c := 'D') (by decide) (by decide)]

theorem stepHead_line (k : Nat) : ∀ c ∈ stepHead k, (c == '\n') = false := by
  have hnotMem : '\n' ∉ stepHead k := by
    rw [stepHead_eq]
    simp [notMem_stepName (k := k) (c := '\n') (by decide) (by decide)]
  intro c hc
  rw [beq_eq_false_iff_ne]
  rintro rfl
  exact hnotMem hc

theorem head_line (h : ∀ c ∈ t, (c == '\n') = false) : ∀ c ∈ stepHead k ++ t, (c == '\n') = false := by
  intro c hc
  rcases List.mem_append.mp hc with hc | hc
  · exact stepHead_line k c hc
  · exact h c hc

theorem takeWhile_first_line {inner rest : Text} (h : ∀ c ∈ inner, (c == '\n') = false) :
    (inner ++ '\n' :: rest).takeWhile (· ≠ '\n') = inner := by
  apply takeWhile_ne_stop
  intro hmem
  have hend := h '\n' hmem
  cases hend

theorem readLines_append {before : Text} (h : before = [] ∨ ∃ line, before = line ++ ['\n']) (t : Text) :
    readLines (before ++ t) = readLines before ++ readLines t := by
  rcases h with rfl | ⟨line, rfl⟩
  · rfl
  · rw [List.append_assoc]
    exact linesWithEnds_append rfl

theorem logOf_append {before : Text} (h : before = [] ∨ ∃ line, before = line ++ ['\n']) (t : Text) :
    logOf (before ++ t) = logOf before ++ logOf t := by
  rcases h with rfl | ⟨line, rfl⟩
  · rfl
  · unfold logOf
    rw [List.append_assoc, List.singleton_append, universalNewlines_append_of_end (by decide)]
    exact readLines_append (.inr (universalNewlines_ends line)) _

/-- Of what is printed so far, the last line may be cut off. -/
theorem logOf_cut {printed : Text} (h : printed <+: t) : logOf printed <+: logOf t ∨
    ∃ lines part line rest, logOf printed = lines ++ [part] ∧ logOf t = lines ++ line :: rest ∧ part <+: line :=
  linesWithEnds_cut (· == '\n') (universalNewlines_mono h)

theorem logOf_take (t : Text) (n : Nat) : ∃ printed, printed <+: t ∧ logOf printed = (logOf t).take n := by
  obtain ⟨part, hpart, hlines⟩ := linesWithEnds_take (· == '\n') (universalNewlines t) n
  obtain ⟨printed, hprinted, rfl⟩ := exists_prefix_universalNewlines hpart
  exact ⟨printed, hprinted, hlines⟩

theorem last_line_confirms (t : Text) : ∃ lines line, readLines (t ++ (okMark ++ ['\n'])) = lines ++ [line] ∧ okMark <:+: line := by
  induction t using lines_induction (· == '\n') with
  | last t hline =>
    refine ⟨[], t ++ (okMark ++ ['\n']), ?_, t, ['\n'], by simp⟩
    rw [← List.append_assoc, readLines_line (marked_line hline)]
    rfl
  | line body c t hbody hc ih =>
    obtain rfl : c = '\n' := by simpa using hc
    obtain ⟨lines, line, hlines, hok⟩ := ih
    refine ⟨(body ++ ['\n']) :: lines, line, ?_, hok⟩
    rw [List.append_assoc, List.cons_append, readLines_line hbody, hlines]
    rfl

end

/-! ## The lines of a run -/

section

variable [Unicode] {line part t printed : Text} {k : Nat} {phase last : Phase}

theorem Bracketed.of_part (h : Bracketed part) (hpart : part <:+: line) : Bracketed line := by
  obtain ⟨before, step, count, total, after, rfl, hword⟩ := h
  obtain ⟨left, right, rfl⟩ := hpart
  exact ⟨left ++ before, step, count, total, after ++ right, by simp, hword⟩

theorem Quiet.of_part (h : Quiet line) (hpart : part <:+: line) : Quiet part :=
  ⟨fun hcounter => h.counter (hcounter.of_part hpart), fun hok => h.ok (hok.trans hpart), fun habort => h.abort (habort.trans hpart)⟩

theorem quiet_nil : Quiet [] := by
  refine ⟨?_, by decide, by decide⟩
  rintro ⟨before, step, count, total, after, hline, -⟩
  simp at hline

theorem quiet_cut (h : ∀ line ∈ readLines t, Quiet line) (hpre : printed <+: t) : ∀ line ∈ readLines printed, Quiet line := by
  rcases linesWithEnds_cut (· == '\n') hpre with hlines | ⟨lines, part, line, rest, hprinted, ht, hpart⟩
  · exact fun line hline => h line (hlines.subset hline)
  · intro piece hpiece
    unfold readLines at hpiece h
    rw [hprinted] at hpiece
    rw [ht] at h
    rcases List.mem_append.mp hpiece with hpiece | hpiece
    · exact h piece (List.mem_append_left _ hpiece)
    · rw [List.mem_singleton.mp hpiece]
      exact (h line (by simp)).of_part hpart.isInfix

/-! ### The line that confirms a step -/

theorem open_notMem_counter {step count total : Text} (hstep : IsStepWord step) (hcount : IsCount count) (htotal : IsCount total) :
    '[' ∉ step ++ count ++ '/' :: (total ++ [']']) := by
  have hopen : isDecimal '[' = false := isDecimal_ascii (by decide)
  have hnotCount : ∀ {t : Text}, IsCount t → '[' ∉ t := by
    intro t ht hmem
    rw [ht.2 '[' hmem] at hopen
    cases hopen
  have hnotStep : '[' ∉ step := by
    rcases hstep with rfl | ⟨blanks, rfl, -, hblanks⟩
    · simp
    · intro hmem
      rcases List.mem_append.mp hmem with hmem | hmem
      · revert hmem
        decide
      · exact absurd (hblanks '[' hmem) (by decide)
  simp [hnotStep, hnotCount hcount, hnotCount htotal]

/-- The mark `[ OK ]` behind a quiet line adds no counter. -/
theorem not_bracketed_ok {mark : Text} (h : Quiet t) (hmark : '[' :: mark <+: okMark ++ ['\n']) : ¬ Bracketed (t ++ '[' :: mark) := by
  rintro ⟨before, step, count, total, after, hline, hstep, hcount, htotal⟩
  have hmark' : mark <+: lit " OK ]\n" := (List.cons_prefix_cons.mp hmark).2
  have hopen : '[' ∉ mark := fun hmem => absurd (hmark'.subset hmem) (by decide)
  have hfound : '[' :: (step ++ count ++ '/' :: (total ++ [']'])) <:+: t ++ '[' :: mark := ⟨before, after, by rw [hline]; simp⟩
  rcases infix_head (open_notMem_counter hstep hcount htotal) hopen hfound with hfound | hfound
  · obtain ⟨left, right, rfl⟩ := hfound
    exact h.counter ⟨left, step, count, total, right, by simp, hstep, hcount, htotal⟩
  · -- A blank follows the bracket of the mark, but a letter or a digit that of a counter.
    have hnext : step ++ count ++ '/' :: (total ++ [']']) <+: lit " OK ]\n" := (List.cons_prefix_cons.mp hfound).2.trans hmark'
    have hblank : isDecimal ' ' = false := isDecimal_ascii (by decide)
    rcases hstep with rfl | ⟨blanks, rfl, -⟩
    · obtain ⟨hne, hdigits⟩ := hcount
      cases count with
      | nil => exact hne rfl
      | cons c count =>
        obtain ⟨rfl, -⟩ := List.cons_prefix_cons.mp hnext
        have hc := hdigits ' ' (List.mem_cons_self ..)
        rw [hblank] at hc
        cases hc
    · exact absurd (List.cons_prefix_cons.mp hnext).1 (by decide)

theorem not_aborted_ok {mark : Text} (h : Quiet t) (hmark : '[' :: mark <+: okMark ++ ['\n']) : ¬ abortMark <:+: t ++ '[' :: mark := by
  intro habort
  rcases infix_split (by decide) habort with habort | habort
  · exact h.abort habort
  · have hmark' : mark <+: lit " OK ]\n" := (List.cons_prefix_cons.mp hmark).2
    exact absurd (habort.trans hmark'.isInfix) (by decide)

theorem reads_ok {mark : Text} (h : Quiet t) (hline : ∀ c ∈ t, (c == '\n') = false) (hmark : '[' :: mark <+: okMark ++ ['\n']) :
    ∃ last, Reads ⟨k, true⟩ (readLines (t ++ '[' :: mark)) last ∧ ('[' :: mark = okMark ++ ['\n'] → last = ⟨k + 1, false⟩) ∧
      last.begun ≤ k + 1 := by
  have hstep := stepNumber_of_not_bracketed (not_bracketed_ok h hmark)
  have habort := not_aborted_ok h hmark
  rw [readLines_ok hline hmark]
  by_cases hok : okMark <:+: t ++ '[' :: mark
  · exact ⟨⟨k + 1, false⟩, .cons habort (.confirms hstep hok) .nil, fun _ => rfl, le_refl _⟩
  · refine ⟨⟨k, true⟩, .cons habort (.quiet hstep hok) .nil, fun hfull => ?_, le_refl _⟩
    rw [hfull] at hok
    exact absurd ⟨t, ['\n'], by simp⟩ hok

/-- What is printed behind the title, up to the mark of the step. -/
theorem reads_body (h : ∀ line ∈ readLines t, Quiet line) (hprinted : printed <+: t ++ (okMark ++ ['\n'])) :
    ∃ last, Reads ⟨k, true⟩ (readLines printed) last ∧ (printed = t ++ (okMark ++ ['\n']) → last = ⟨k + 1, false⟩) ∧ last.begun ≤ k + 1 := by
  induction t using lines_induction (· == '\n') generalizing printed with
  | last t hline =>
    have hquiet : Quiet t := by
      cases t with
      | nil => exact quiet_nil
      | cons c t => exact h _ (by simp [readLines_short hline])
    rcases List.prefix_or_prefix_of_prefix hprinted (List.prefix_append t (okMark ++ ['\n'])) with hpart | ⟨mark, rfl⟩
    · refine ⟨⟨k, true⟩, .quiet (quiet_cut h hpart), fun hfull => ?_, le_refl _⟩
      have hlength := hpart.length_le
      rw [hfull] at hlength
      simp [okMark] at hlength
    · rw [List.prefix_append_right_inj] at hprinted
      cases mark with
      | nil =>
        rw [List.append_nil]
        refine ⟨⟨k, true⟩, .quiet (quiet_cut h (List.prefix_refl t)), fun hfull => ?_, le_refl _⟩
        rw [List.self_eq_append_right] at hfull
        cases hfull
      | cons c mark =>
        obtain rfl : c = '[' := (List.cons_prefix_cons.mp hprinted).1
        obtain ⟨last, hreads, hlast, hbegun⟩ := reads_ok hquiet hline hprinted
        exact ⟨last, hreads, fun hfull => hlast (List.append_cancel_left hfull), hbegun⟩
  | line body c t hbody hc ih =>
    obtain rfl : c = '\n' := by simpa using hc
    rw [readLines_line hbody, List.forall_mem_cons] at h
    rw [List.append_assoc, List.cons_append] at hprinted ⊢
    rcases cut_at_line hbody hprinted hc with ⟨hpart, hinner⟩ | ⟨rest, rfl, hrest⟩
    · refine ⟨⟨k, true⟩, .quiet fun line hline => ?_, fun hfull => ?_, le_refl _⟩
      · cases printed with
        | nil => cases hline
        | cons c printed =>
          rw [readLines_short hinner (List.cons_ne_nil _ _), List.mem_singleton] at hline
          rw [hline]
          exact h.1.of_part (hpart.isInfix.trans (List.prefix_append body ['\n']).isInfix)
      · have hend := hinner '\n' (by rw [hfull]; simp)
        cases hend
    · obtain ⟨last, hreads, hlast, hbegun⟩ := ih h.2 hrest
      rw [readLines_line hbody]
      refine ⟨last, .cons h.1.abort (.quiet (stepNumber_of_not_bracketed h.1.counter) h.1.ok) hreads, fun hfull => ?_, hbegun⟩
      exact hlast (List.cons.inj (List.append_cancel_left hfull)).2

/-! ### The line that begins a step -/

/-- Without the blank behind it, the counter is not seen. -/
theorem stepNumber_cut_head (h : t <+: '[' :: (stepName k ++ [']'])) : stepNumber t = none := by
  cases hstep : stepNumber t with
  | none => rfl
  | some digits =>
    obtain ⟨before, step, count, total, c, after, rfl, -⟩ := counted_of_stepNumber hstep
    obtain ⟨rest, hrest⟩ := h
    have hclose : ']' ∉ '[' :: stepName k := by
      simp [notMem_stepName (k := k) (c := ']') (by decide) (by decide)]
    refine absurd ?_ hclose
    have hdrop : '[' :: stepName k = ('[' :: (stepName k ++ [']'])).dropLast := by
      rw [← List.cons_append, List.dropLast_concat]
    have hsplit : before ++ '[' :: (step ++ count ++ '/' :: (total ++ ']' :: c :: after)) ++ rest =
        (before ++ '[' :: (step ++ count ++ '/' :: (total ++ [']']))) ++ (c :: (after ++ rest)) := by simp
    rw [hdrop, ← hrest, hsplit, List.dropLast_append_of_ne_nil (List.cons_ne_nil _ _)]
    simp

theorem stepNumber_blank (h : ∀ c ∈ t, isSpace c = true) : stepNumber (rstrip (stepHead k ++ t)) = none := by
  have hsplit : stepHead k ++ t = ('[' :: stepName k) ++ ']' :: ' ' :: t := by
    rw [stepHead_eq]
    simp
  have hblank : rstrip (' ' :: t) = [] := by
    apply rstrip_of_space
    rw [List.forall_mem_cons]
    exact ⟨rfl, h⟩
  rw [hsplit, rstrip_append_solid rfl, hblank]
  exact stepNumber_cut_head (List.prefix_refl _)

theorem stepNumber_titled (h : ∃ c ∈ t, isSpace c = false) : stepNumber (rstrip (stepHead k ++ t)) = some (Nat.toDigits 10 k) := by
  rcases rstrip_cases t with hall | ⟨a, c, b, rfl, hc, -⟩
  · obtain ⟨c, hmem, hc⟩ := h
    rw [hall c hmem] at hc
    cases hc
  · rw [← List.append_assoc, rstrip_append_solid hc, List.append_assoc]
    exact stepNumber_head k _

/-- The first line of a step, as far as it is printed. -/
theorem lineStep_head (hk : k + 1 ≤ 5) (t : Text) : ∃ last, LineStep ⟨k, false⟩ (stepHead (k + 1) ++ t) last ∧ last.begun ≤ k + 1 ∧
    ((∃ c ∈ t, isSpace c = false) → last = if okMark <:+: t then ⟨k + 1, false⟩ else ⟨k, true⟩) := by
  by_cases htitled : ∃ c ∈ t, isSpace c = false
  · have hstep := stepNumber_titled (k := k + 1) htitled
    by_cases hok : okMark <:+: t
    · exact ⟨⟨k + 1, false⟩, .passes hstep (intOf_step hk) (ok_behind_head.mpr hok), le_refl _, fun _ => by rw [if_pos hok]⟩
    · refine ⟨⟨k, true⟩, .begins hstep (intOf_step hk) ?_, le_refl _, fun _ => by rw [if_neg hok]⟩
      rwa [ok_behind_head]
  · have hblank : ∀ c ∈ t, isSpace c = true := by simpa using htitled
    refine ⟨⟨k, false⟩, .quiet (stepNumber_blank hblank) ?_, Nat.le_succ k, fun h => absurd h htitled⟩
    rw [ok_behind_head, ← okMark_rstrip, rstrip_of_space hblank]
    decide

/-! ### Steps -/

/-- A run cut off before the title. -/
theorem reads_cut_head (h : printed <+: stepHead (k + 1)) : Reads ⟨k, false⟩ (readLines printed) ⟨k, false⟩ := by
  cases hprinted : printed with
  | nil => exact .nil
  | cons c rest =>
    rw [← hprinted]
    have hmark : ∀ pat : Text, pat <:+: printed → pat <:+: stepHead (k + 1) ++ [] := by
      intro pat hpat
      rw [List.append_nil]
      exact hpat.trans h.isInfix
    have hstep : stepNumber (rstrip printed) = none := by
      have hsplit : stepHead (k + 1) = ('[' :: (stepName (k + 1) ++ [']'])) ++ [' '] := by
        rw [stepHead_eq]
        simp
      have hcut := h
      rw [hsplit] at hcut
      rcases List.prefix_concat_iff.mp hcut with hfull | hcut
      · rw [hfull, ← hsplit, ← List.append_nil (stepHead (k + 1))]
        exact stepNumber_blank (by simp)
      · exact stepNumber_cut_head ((rstrip_begins printed).trans hcut)
    rw [readLines_short (fun c hc => stepHead_line (k + 1) c (h.subset hc)) (by rw [hprinted]; exact List.cons_ne_nil _ _)]
    refine .cons (fun habort => ?_) (.quiet hstep fun hok => ?_) .nil
    · exact absurd (abort_behind_head.mp (hmark _ habort)) (by decide)
    · exact absurd (ok_behind_head.mp (hmark _ hok)) (by decide)

/-- The title and the mark of a step stand on one line. -/
theorem reads_one_line (hk : k + 1 ≤ 5) (htitled : ∃ c ∈ t, isSpace c = false) (hquiet : ∀ line ∈ readLines t, Quiet line)
    (hline : ∀ c ∈ t, (c == '\n') = false) (hprinted : printed <+: t ++ (okMark ++ ['\n'])) :
    ∃ last, Reads ⟨k, false⟩ (readLines (stepHead (k + 1) ++ printed)) last ∧
      (printed = t ++ (okMark ++ ['\n']) → last = ⟨k + 1, false⟩) ∧ last.begun ≤ k + 1 := by
  have hquiet : Quiet t := by
    apply hquiet
    rw [readLines_short hline]
    · exact List.mem_cons_self ..
    · rintro rfl
      simp at htitled
  have habort : ¬ abortMark <:+: stepHead (k + 1) ++ printed := by
    rw [abort_behind_head]
    intro habort
    exact not_aborted_ok hquiet (List.prefix_refl _) (habort.trans hprinted.isInfix)
  have hone : readLines (stepHead (k + 1) ++ printed) = [stepHead (k + 1) ++ printed] := by
    rw [← List.append_assoc] at hprinted
    rcases cut_at_line (marked_line hline) hprinted rfl with ⟨-, hinner⟩ | ⟨b, hfull, hb⟩
    · exact readLines_short (head_line hinner) (by simp [stepHead_eq])
    · obtain rfl := List.prefix_nil.mp hb
      rw [hfull, ← List.append_assoc, readLines_line (head_line (marked_line hline))]
      rfl
  obtain ⟨last, hstep, hbegun, hlast⟩ := lineStep_head hk printed
  refine ⟨last, ?_, fun hfull => ?_, hbegun⟩
  · rw [hone]
    exact .cons habort hstep .nil
  · obtain ⟨c, hc, hsolid⟩ := htitled
    have hok : okMark <:+: printed := ⟨t, ['\n'], by rw [hfull, List.append_assoc]⟩
    rw [hlast ⟨c, by rw [hfull]; exact List.mem_append_left _ hc, hsolid⟩, if_pos hok]

/-- The title stands on a line of its own. -/
theorem reads_lines {inner rest : Text} (hk : k + 1 ≤ 5) (htitled : ∃ c ∈ inner, isSpace c = false)
    (hquiet : ∀ line ∈ readLines (inner ++ '\n' :: rest), Quiet line) (hinner : ∀ c ∈ inner, (c == '\n') = false)
    (hprinted : printed <+: inner ++ '\n' :: (rest ++ (okMark ++ ['\n']))) :
    ∃ last, Reads ⟨k, false⟩ (readLines (stepHead (k + 1) ++ printed)) last ∧
      (printed = inner ++ '\n' :: (rest ++ (okMark ++ ['\n'])) → last = ⟨k + 1, false⟩) ∧ last.begun ≤ k + 1 := by
  rw [readLines_line hinner, List.forall_mem_cons] at hquiet
  rcases cut_at_line hinner hprinted rfl with ⟨hpart, hline⟩ | ⟨behind, rfl, hbehind⟩
  · obtain ⟨last, hstep, hbegun, -⟩ := lineStep_head hk printed
    refine ⟨last, ?_, fun hfull => ?_, hbegun⟩
    · rw [readLines_short (head_line hline) (by simp [stepHead_eq])]
      refine .cons ?_ hstep .nil
      rw [abort_behind_head]
      exact fun habort => hquiet.1.abort (habort.trans (hpart.isInfix.trans (List.prefix_append inner ['\n']).isInfix))
    · have hend := hline '\n' (by rw [hfull]; simp)
      cases hend
  · obtain ⟨last, hreads, hlast, hbegun⟩ := reads_body (k := k) hquiet.2 hbehind
    obtain ⟨next, hstep, -, hnext⟩ := lineStep_head hk (inner ++ ['\n'])
    obtain ⟨c, hc, hsolid⟩ := htitled
    rw [if_neg hquiet.1.ok] at hnext
    obtain rfl := hnext ⟨c, List.mem_append_left _ hc, hsolid⟩
    refine ⟨last, ?_, fun hfull => ?_, hbegun⟩
    · rw [← List.append_assoc, readLines_line (head_line hinner), List.append_assoc]
      exact .cons (by rw [abort_behind_head]; exact hquiet.1.abort) hstep hreads
    · exact hlast (List.cons.inj (List.append_cancel_left hfull)).2

/-- What is read of a step: its mark begins with a bracket, so nothing runs together with it. -/
theorem universalNewlines_stepText (k : Nat) (step : StepOutput) :
    universalNewlines (stepText k step) = stepHead k ++ (universalNewlines step.body ++ (okMark ++ ['\n'])) := by
  have hhead : '\r' ∉ stepHead k := by
    rw [stepHead_eq]
    simp [notMem_stepName (k := k) (c := '\r') (by decide) (by decide)]
  have hmark : okMark ++ ['\n'] = '[' :: lit " OK ]\n" := rfl
  unfold stepText
  have hblank : universalNewlines (lit " OK ]\n") = lit " OK ]\n" := universalNewlines_eq (by decide)
  rw [universalNewlines_append_left hhead, hmark, universalNewlines_append (by decide) (by decide), hblank]

theorem reads_step (hk : k + 1 ≤ 5) (step : StepOutput) (hprinted : printed <+: universalNewlines (stepText (k + 1) step)) :
    ∃ last, Reads ⟨k, false⟩ (readLines printed) last ∧ (printed = universalNewlines (stepText (k + 1) step) → last = ⟨k + 1, false⟩) ∧
      last.begun ≤ k + 1 := by
  have htitled := step.titled
  have hquiet : ∀ line ∈ readLines (universalNewlines step.body), Quiet line := step.quiet
  rw [universalNewlines_stepText] at hprinted ⊢
  rcases List.prefix_or_prefix_of_prefix hprinted (List.prefix_append _ _) with hcut | ⟨behind, rfl⟩
  · refine ⟨⟨k, false⟩, reads_cut_head hcut, fun hfull => ?_, Nat.le_succ k⟩
    have hlength := hcut.length_le
    rw [hfull] at hlength
    simp [okMark] at hlength
  · rw [List.prefix_append_right_inj] at hprinted
    rcases lines_cases (· == '\n') (universalNewlines step.body) with hinner | ⟨inner, c, rest, hbody, hinner, hc⟩
    · obtain ⟨c, hc, hsolid⟩ := htitled
      obtain ⟨last, hreads, hlast, hbegun⟩ := reads_one_line hk ⟨c, (List.takeWhile_prefix _).subset hc, hsolid⟩ hquiet hinner hprinted
      exact ⟨last, hreads, fun hfull => hlast (List.append_cancel_left hfull), hbegun⟩
    · obtain rfl : c = '\n' := by simpa using hc
      rw [hbody, takeWhile_first_line hinner] at htitled
      rw [hbody] at hquiet hprinted ⊢
      rw [List.append_assoc, List.cons_append] at hprinted ⊢
      obtain ⟨last, hreads, hlast, hbegun⟩ := reads_lines hk htitled hquiet hinner hprinted
      exact ⟨last, hreads, fun hfull => hlast (List.append_cancel_left hfull), hbegun⟩

theorem stepText_ends (k : Nat) (step : StepOutput) : ∃ line, stepText k step = line ++ ['\n'] := by
  unfold stepText
  exact ⟨stepHead k ++ (step.body ++ okMark), by simp⟩

theorem universalNewlines_step_append (k : Nat) (step : StepOutput) (t : Text) :
    universalNewlines (stepText k step ++ t) = universalNewlines (stepText k step) ++ universalNewlines t := by
  obtain ⟨line, hline⟩ := stepText_ends k step
  rw [hline, List.append_assoc, List.singleton_append]
  exact universalNewlines_append_of_end (by decide) t

theorem logOf_stepText (k : Nat) (step : StepOutput) (t : Text) : logOf (stepText k step ++ t) = logOf (stepText k step) ++ logOf t :=
  logOf_append (.inr (stepText_ends k step)) t

theorem reads_whole_step (hk : k + 1 ≤ 5) (step : StepOutput) : Reads ⟨k, false⟩ (logOf (stepText (k + 1) step)) ⟨k + 1, false⟩ := by
  obtain ⟨last, hreads, hlast, -⟩ := reads_step hk step (List.prefix_refl _)
  rwa [hlast rfl] at hreads

theorem reads_steps {footer : Text} (hfooter : ∀ line ∈ logOf footer, Quiet line) (steps : List StepOutput) (hk : k + steps.length ≤ 5)
    (hprinted : printed <+: universalNewlines (stepsText (k + 1) steps ++ footer)) :
    ∃ last, Reads ⟨k, false⟩ (readLines printed) last ∧ last.begun ≤ k + steps.length := by
  induction steps generalizing k printed with
  | nil => exact ⟨⟨k, false⟩, .quiet (quiet_cut hfooter hprinted), le_refl _⟩
  | cons step steps ih =>
    rw [List.length_cons] at hk ⊢
    unfold stepsText at hprinted
    rw [List.append_assoc, universalNewlines_step_append] at hprinted
    rcases List.prefix_or_prefix_of_prefix hprinted (List.prefix_append _ _) with hcut | ⟨behind, rfl⟩
    · obtain ⟨last, hreads, -, hbegun⟩ := reads_step (by omega) step hcut
      exact ⟨last, hreads, by omega⟩
    · rw [List.prefix_append_right_inj] at hprinted
      obtain ⟨last, hreads, hbegun⟩ := ih (by omega) hprinted
      refine ⟨last, ?_, by omega⟩
      have hwhole : ∃ line, universalNewlines (stepText (k + 1) step) = line ++ ['\n'] :=
        ⟨_, by rw [universalNewlines_stepText, ← List.append_assoc, ← List.append_assoc]⟩
      rw [readLines_append (.inr hwhole)]
      exact (reads_whole_step (by omega) step).append hreads

/-- However much of a run is printed, its lines lead from the start through at most five steps. -/
theorem DeployRun.reads (run : DeployRun) (h : printed <+: run.output) :
    ∃ last, Reads ⟨0, false⟩ (logOf printed) last ∧ last.begun ≤ 5 := by
  have houtput : run.output = run.header ++ (stepsText 1 (run.first :: run.others) ++ run.footer) := by
    unfold DeployRun.output
    rw [stepsText, List.append_assoc]
  rw [houtput] at h
  rcases List.prefix_or_prefix_of_prefix h (List.prefix_append _ _) with hcut | ⟨behind, rfl⟩
  · exact ⟨⟨0, false⟩, .quiet (quiet_cut run.quietHeader (universalNewlines_mono hcut)), Nat.zero_le 5⟩
  · rw [List.prefix_append_right_inj] at h
    have hfive : (run.first :: run.others).length = 5 := by rw [List.length_cons, run.four]
    obtain ⟨last, hreads, hbegun⟩ := reads_steps run.quietFooter (run.first :: run.others) (k := 0) (by omega) (universalNewlines_mono h)
    refine ⟨last, ?_, by omega⟩
    rw [logOf_append run.headerEnds]
    exact (Reads.quiet run.quietHeader).append hreads

/-- A step is named on its first line. -/
theorem first_line_begins (k : Nat) (step : StepOutput) :
    ∃ line lines, logOf (stepText k step) = line :: lines ∧ (stepNumber (rstrip line)).isSome = true := by
  have htitled := step.titled
  unfold logOf
  rw [universalNewlines_stepText]
  rcases lines_cases (· == '\n') (universalNewlines step.body) with hline | ⟨inner, c, rest, hbody, hinner, hc⟩
  · obtain ⟨c, hc, hsolid⟩ := htitled
    have hsplit : stepHead k ++ (universalNewlines step.body ++ (okMark ++ ['\n'])) =
        (stepHead k ++ (universalNewlines step.body ++ okMark)) ++ '\n' :: [] := by simp
    refine ⟨(stepHead k ++ (universalNewlines step.body ++ okMark)) ++ ['\n'], [], ?_, ?_⟩
    · rw [hsplit, readLines_line (head_line (marked_line hline))]
      rfl
    · rw [List.append_assoc, stepNumber_titled]
      · rfl
      · have hmem : c ∈ universalNewlines step.body := (List.takeWhile_prefix _).subset hc
        exact ⟨c, by simp [hmem], hsolid⟩
  · obtain rfl : c = '\n' := by simpa using hc
    rw [hbody, takeWhile_first_line hinner] at htitled
    obtain ⟨c, hc, hsolid⟩ := htitled
    have hsplit : stepHead k ++ (universalNewlines step.body ++ (okMark ++ ['\n'])) =
        (stepHead k ++ inner) ++ '\n' :: (rest ++ (okMark ++ ['\n'])) := by
      rw [hbody]
      simp
    refine ⟨(stepHead k ++ inner) ++ ['\n'], _, by rw [hsplit, readLines_line (head_line hinner)], ?_⟩
    rw [List.append_assoc, stepNumber_titled]
    · rfl
    · exact ⟨c, List.mem_append_left _ hc, hsolid⟩

/-! ### More of a run -/

theorem stepNumber_rstrip_cut (h : part <+: line) (hstep : (stepNumber (rstrip part)).isSome = true) :
    (stepNumber (rstrip line)).isSome = true := by
  obtain ⟨rest, rfl⟩ := h
  rcases rstrip_cases part with hall | ⟨a, c, b, rfl, hc, hb⟩
  · rw [rstrip_of_space hall] at hstep
    cases hstep
  · rw [rstrip_append_solid hc, rstrip_of_space hb] at hstep
    have hline : rstrip (a ++ c :: b ++ rest) = (a ++ [c]) ++ rstrip (b ++ rest) := by
      rw [List.append_assoc, List.cons_append, rstrip_append_solid hc]
      simp
    rw [hline, Option.isSome_iff_ne_none]
    exact stepNumber_append (Option.isSome_iff_ne_none.mp hstep) _

/-- What is printed later is in no earlier phase. -/
theorem phase_mono {printed' : Text} {last' : Phase} (hmore : printed <+: printed') (h : Reads ⟨0, false⟩ (logOf printed) last)
    (h' : Reads ⟨0, false⟩ (logOf printed') last') : last.begun ≤ last'.begun ∧ last.done ≤ last'.done := by
  rw [h.from_start.1, h.from_start.2, h'.from_start.1, h'.from_start.2]
  unfold begunCount
  rcases logOf_cut hmore with hlines | ⟨lines, part, line, rest, hprinted, hprinted', hpart⟩
  · exact ⟨hlines.sublist.countP_le, hlines.sublist.countP_le⟩
  · rw [hprinted, hprinted']
    simp only [List.countP_append, List.countP_cons, List.countP_nil]
    have hbegun : (stepNumber (rstrip part)).isSome = true → (stepNumber (rstrip line)).isSome = true := stepNumber_rstrip_cut hpart
    have hok : okMark <:+: part → okMark <:+: line := fun hok => hok.trans hpart.isInfix
    constructor
    · split <;> split <;> first | omega | simp_all
    · split <;> split <;> first | omega | simp_all

/-! ### Output without brackets -/

theorem quiet_plain (hopen : '[' ∉ t) (habort : ¬ abortMark <:+: t) : ∀ line ∈ readLines t, Quiet line := by
  intro line hline
  have hpart : line <:+: t := infix_of_mem_linesWithEnds hline
  refine ⟨?_, fun hok => hopen ?_, fun h => habort (h.trans hpart)⟩
  · rintro ⟨before, step, count, total, after, rfl, -⟩
    exact hopen (hpart.subset (by simp))
  · exact hpart.subset (hok.subset (by decide))

theorem quiet_empty : ∀ line ∈ logOf [], Quiet line := by simp [logOf, readLines, universalNewlines, linesWithEnds]

/-- A step whose commands print no brackets. -/
def plainStep (body : Text) (htitled : ∃ c ∈ (universalNewlines body).takeWhile (· ≠ '\n'), isSpace c = false)
    (hopen : '[' ∉ universalNewlines body) (habort : ¬ abortMark <:+: universalNewlines body) : StepOutput :=
  ⟨body, htitled, quiet_plain hopen habort⟩

end

end Palworld.Update

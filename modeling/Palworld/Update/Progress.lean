import Palworld.Lib.Numeral
import Palworld.Update.Watcher
import Mathlib.Data.Finset.Max
import Mathlib.Order.Lattice.Nat

/-!
# The progress of a deployment

`get_deployment_progress` looks at the last lines of the deployment log. All runs append to
the same log, and each begins with a marker line.
-/

open Lib

namespace Palworld.Update

/-! ## The response -/

inductive StepStatus
  | pending
  | running
  | completed
  | failed
  deriving DecidableEq

structure DeploymentStepInfo where
  index : Nat
  name : Text
  status : StepStatus
  deriving DecidableEq

inductive Operation
  | portalUpdate
  | tlsCertificate
  | serverRestart
  | none
  deriving DecidableEq

structure PostUpdateSummary where
  failed : Bool                    -- the status, which is `success` or `failed`
  targetBranch : Text
  deployedVersion : Option Text
  deployedCommit : Text
  deployedCommitShort : Text
  deployedAt : Text
  durationSeconds : Nat
  summary : Text
  acknowledged : Bool
  deriving DecidableEq

structure DeploymentProgressResponse where
  operation : Operation
  active : Bool
  currentStep : Nat
  totalSteps : Nat
  stepName : Text
  percentage : Nat
  elapsedSeconds : Nat
  estimatedRemainingSeconds : Option Nat
  steps : List DeploymentStepInfo
  logTail : List Text
  lastUpdate : Option PostUpdateSummary

def defaultSteps : List DeploymentStepInfo :=
  [⟨1, lit "Pulling latest updates from origin", .pending⟩,
    ⟨2, lit "Updating Python dependencies via uv", .pending⟩,
    ⟨3, lit "Syncing application code & systemd units", .pending⟩,
    ⟨4, lit "Enforcing POSIX ACLs & storage permissions", .pending⟩,
    ⟨5, lit "Restarting palworld-manager.service", .pending⟩]

/-- `steps[s - 1].status = status`. -/
def setStatus (steps : List DeploymentStepInfo) (s : Nat) (status : StepStatus) : List DeploymentStepInfo :=
  steps.modify (s - 1) fun step => { step with status }

/-- `steps[s - 1].status == status`. -/
def hasStatus (steps : List DeploymentStepInfo) (s : Nat) (status : StepStatus) : Bool :=
  (steps[s - 1]?.map (·.status)) == some status

/-! ## The log -/

section

variable [Unicode]

def isDecimal (c : Char) : Bool := (Unicode.digit c).isSome

/-- `(?:STEP\s+)?`. -/
def afterStep (rest : Text) : Text :=
  match rest with
  | 'S' :: 'T' :: 'E' :: 'P' :: c :: after => if isSpace c then after.dropWhile isSpace else rest
  | _ => rest

/-- `(\d+)/(\d+)\]\s`, with its first group. -/
def stepCount (rest : Text) : Option Text :=
  if rest.takeWhile isDecimal = [] then none
  else
    match rest.dropWhile isDecimal with
    | '/' :: total =>
      if total.takeWhile isDecimal = [] then none
      else
        match total.dropWhile isDecimal with
        | ']' :: c :: _ => if isSpace c then some (rest.takeWhile isDecimal) else none
        | _ => none
    | _ => none

/-- The step number of `\[(?:STEP\s+)?(\d+)/(\d+)\]\s+(.*?)(?:\.\.\.|\s*$)`, where a line begins with a match. What follows the
blanks always matches, because a line has no newline inside. -/
def stepHere : Text → Option Text
  | '[' :: rest => stepCount (afterStep rest)
  | _ => none

/-- `step_pattern.search`, as far as its first group goes. -/
def stepNumber : Text → Option Text
  | [] => none
  | c :: rest =>
    match stepHere (c :: rest) with
    | some digits => some digits
    | none => stepNumber rest

/-- `int` of decimal digits. Too many of them are a `ValueError`. -/
def intOf (digits : Text) : Option Nat :=
  if digits.length ≤ intMaxStrDigits then some (digits.foldl (fun n c => 10 * n + (Unicode.digit c).getD 0) 0) else none

structure Scan where
  started : Finset Nat
  completed : Finset Nat
  deriving DecidableEq

def okMark : Text := lit "[ OK ]"

def scanLine (scan : Scan) (line : Text) : Option Scan :=
  match stepNumber line with
  | some digits => do
    let idx ← intOf digits
    let started := insert idx scan.started
    return ⟨started, if okMark <:+: line then insert idx scan.completed else scan.completed⟩
  | none =>
    if okMark <:+: line ∧ scan.started ≠ ∅ then some { scan with completed := insert (scan.started.sup id) scan.completed }
    else some scan

def scanLines (lines : List Text) : Option Scan := lines.foldlM scanLine ⟨∅, ∅⟩

end

/-! ## What the scan shows -/

/-- One round of the loop over the steps. -/
def showStep (scan : Scan) (shown : List DeploymentStepInfo × Nat) (s : Nat) : List DeploymentStepInfo × Nat :=
  if s ∈ scan.completed then (setStatus shown.1 s .completed, shown.2)
  else if s ∈ scan.started then (setStatus shown.1 s .running, s)
  else if s = 1 ∧ scan.started = ∅ then (setStatus shown.1 1 .running, 1)
  else (setStatus shown.1 s .pending, shown.2)

/-- The step after the last one that is completed runs. -/
def showNext (scan : Scan) (shown : List DeploymentStepInfo × Nat) : List DeploymentStepInfo × Nat :=
  if scan.completed = ∅ then shown
  else
    let maxComp := scan.completed.sup id
    if maxComp < 5 then
      (if hasStatus shown.1 (maxComp + 1) .pending then setStatus shown.1 (maxComp + 1) .running else shown.1, maxComp + 1)
    else (shown.1, 5)

def showSteps (scan : Scan) : List DeploymentStepInfo × Nat :=
  showNext scan ([1, 2, 3, 4, 5].foldl (showStep scan) (defaultSteps, 1))

def percentOf (scan : Scan) (shown : List DeploymentStepInfo × Nat) : Nat :=
  if scan.completed.card = 5 then 100
  else min 95 (max 5 (scan.completed.card * 20 + if hasStatus shown.1 shown.2 .running then 10 else 0))

def stepNameOf (shown : List DeploymentStepInfo × Nat) : Text :=
  match shown.1[shown.2 - 1]? with
  | some step => step.name
  | none => []

/-! ## The progress -/

/-- What the lock file says of the deployment. `int` of a time that is no number raises. -/
structure LockMetadata where
  operation : Operation
  elapsedSeconds : Option Nat

section

variable [Unicode]

/-- The last thirty lines. A log that cannot be read has none. -/
def logLines (log : Option (List Text)) : List Text :=
  ((log.getD []).drop ((log.getD []).length - 30)).map rstrip

def abortMark : Text := lit "Deployment aborted with error"

def idleProgress (lastUpdate : Option PostUpdateSummary) (logLines : List Text) : DeploymentProgressResponse :=
  match lastUpdate.filter (!·.acknowledged) with
  | some last =>
    if last.failed then
      ⟨.portalUpdate, false, 1, 5, lit "Deployment failed: " ++ last.summary, 0, last.durationSeconds, some 0,
        setStatus defaultSteps 1 .failed, logLines, lastUpdate⟩
    else
      ⟨.portalUpdate, false, 5, 5, lit "Deployment completed successfully", 100, last.durationSeconds, some 0,
        defaultSteps.map fun step => { step with status := .completed }, [], lastUpdate⟩
  | none => ⟨.none, false, 0, 5, [], 0, 0, none, defaultSteps, logLines, lastUpdate⟩

def activeProgress (lastUpdate : Option PostUpdateSummary) (metadata : LockMetadata) (logLines : List Text) :
    Option DeploymentProgressResponse := do
  let elapsed ← metadata.elapsedSeconds
  let scan ← scanLines logLines
  let shown := showSteps scan
  let percent := percentOf scan shown
  if ∃ line ∈ logLines, abortMark <:+: line then
    return ⟨metadata.operation, false, shown.2, 5, lit "Deployment aborted at step " ++ Nat.toDigits 10 shown.2, percent, elapsed, some 0,
      setStatus shown.1 shown.2 .failed, logLines, lastUpdate⟩
  else
    return ⟨metadata.operation, true, shown.2, 5, stepNameOf shown, percent, elapsed, some (max 5 (45 - elapsed)), shown.1, logLines,
      lastUpdate⟩

/-- `none` is an exception. -/
def getDeploymentProgress (isActive : Bool) (lastUpdate : Option PostUpdateSummary) (metadata : LockMetadata)
    (log : Option (List Text)) : Option DeploymentProgressResponse :=
  if isActive then activeProgress lastUpdate metadata (logLines log) else some (idleProgress lastUpdate (logLines log))

end

/-! ## Runs -/

/-- `_spawn_detached_deployer` writes this line before a run. -/
def isMarker (line : Text) : Bool := lit "--- Update Deployment Triggered" <+: line

/-- The lines from the last marker on. -/
def sinceMarker : List Text → Option (List Text)
  | [] => none
  | line :: rest =>
    match sinceMarker rest with
    | some run => some run
    | none => if isMarker line then some (line :: rest) else none

/-- What a viewer is told of the run. -/
structure Shown where
  steps : List DeploymentStepInfo
  currentStep : Nat
  percentage : Nat
  active : Bool
  deriving DecidableEq

def DeploymentProgressResponse.shown (response : DeploymentProgressResponse) : Shown :=
  ⟨response.steps, response.currentStep, response.percentage, response.active⟩

/-- What is shown while the lock is active. -/
def shownProgress [Unicode] (lastUpdate : Option PostUpdateSummary) (metadata : LockMetadata) (log : List Text) : Option Shown :=
  (getDeploymentProgress true lastUpdate metadata (some log)).map DeploymentProgressResponse.shown

/-- A line with a step number that `int` refuses. -/
def Unreadable [Unicode] (line : Text) : Prop := ∃ digits, stepNumber (rstrip line) = some digits ∧ intMaxStrDigits < digits.length

/-- What is found begins with a marker that no other one follows. -/
theorem sinceMarker_found {log run : List Text} (h : sinceMarker log = some run) : run <:+ log ∧ sinceMarker run = some run := by
  induction log with
  | nil => cases h
  | cons line rest ih =>
    have hlog := h
    unfold sinceMarker at h
    split at h
    · rename_i run' hrest
      cases h
      obtain ⟨hsuffix, hself⟩ := ih hrest
      exact ⟨hsuffix.trans (List.suffix_cons line rest), hself⟩
    · split at h
      · cases h
        exact ⟨List.suffix_refl _, hlog⟩
      · cases h

theorem sinceMarker_append {log run : List Text} (earlier : List Text) (h : sinceMarker log = some run) :
    sinceMarker (earlier ++ log) = some run := by
  induction earlier with
  | nil => exact h
  | cons line earlier ih =>
    rw [List.cons_append]
    unfold sinceMarker
    rw [ih]

/-! ## The scan -/

section

variable [Unicode] {lines : List Text} {line : Text} {scan : Scan} {lastUpdate : Option PostUpdateSummary} {metadata : LockMetadata}

theorem scanLine_eq_none : scanLine scan line = none ↔ ∃ digits, stepNumber line = some digits ∧ intMaxStrDigits < digits.length := by
  unfold scanLine
  cases hstep : stepNumber line with
  | none =>
    dsimp only
    split
    · simp
    · simp
  | some digits =>
    unfold intOf
    by_cases h : digits.length ≤ intMaxStrDigits
    · simp [h]
    · simp [h, Nat.lt_of_not_le h]

theorem foldlM_scanLine_eq_none : lines.foldlM scanLine scan = none ↔
    ∃ line ∈ lines, ∃ digits, stepNumber line = some digits ∧ intMaxStrDigits < digits.length := by
  induction lines generalizing scan with
  | nil => simp
  | cons line lines ih =>
    rw [List.foldlM_cons, List.exists_mem_cons_iff, ← @scanLine_eq_none _ line scan]
    cases hline : scanLine scan line with
    | none => simp
    | some next => simpa using ih

/-- The scan raises on a line with too long a number, and on no other. -/
theorem scanLines_eq_none (lines : List Text) : scanLines (lines.map rstrip) = none ↔ ∃ line ∈ lines, Unreadable line := by
  unfold scanLines Unreadable
  rw [foldlM_scanLine_eq_none]
  simp only [List.mem_map, exists_exists_and_eq_and]

theorem shownProgress_eq_none (log : List Text) : shownProgress lastUpdate metadata log = none ↔
    metadata.elapsedSeconds = none ∨ ∃ line ∈ log.drop (log.length - 30), Unreadable line := by
  rw [← scanLines_eq_none]
  unfold shownProgress getDeploymentProgress activeProgress logLines
  rw [if_pos rfl, Option.map_eq_none_iff]
  cases metadata.elapsedSeconds with
  | none => simp
  | some elapsed =>
    dsimp only [Option.getD_some]
    cases scanLines ((log.drop (log.length - 30)).map rstrip) with
    | none => simp
    | some scan =>
      simp only [Option.bind_eq_bind, Option.bind_some]
      split
      · simp
      · simp

/-! ## A line that cannot be read -/

def numberLine (n : Nat) : Text := '[' :: (List.replicate n '1' ++ '/' :: ['5', ']', ' ', 'x'])

theorem isDecimal_ascii {c : Char} (hascii : c.toNat < 128) : isDecimal c = c.isDigit := by
  unfold isDecimal
  rw [Unicode.digit_ascii c hascii]
  cases h : c.isDigit with
  | true => simp
  | false => simp

theorem takeWhile_ones (n : Nat) (rest : Text) : (List.replicate n '1' ++ '/' :: rest).takeWhile isDecimal = List.replicate n '1' := by
  rw [takeWhile_append_stop (isDecimal_ascii (by decide))]
  refine List.takeWhile_eq_self_iff.mpr fun c hc => ?_
  rw [List.eq_of_mem_replicate hc]
  exact isDecimal_ascii (by decide)

theorem dropWhile_ones (n : Nat) (rest : Text) : (List.replicate n '1' ++ '/' :: rest).dropWhile isDecimal = '/' :: rest := by
  rw [dropWhile_append_stop (isDecimal_ascii (by decide)), List.dropWhile_eq_nil_iff.mpr, List.nil_append]
  intro c hc
  rw [List.eq_of_mem_replicate hc]
  exact isDecimal_ascii (by decide)

theorem unreadable_numberLine {n : Nat} (h : intMaxStrDigits < n) : Unreadable (numberLine n) := by
  have hline : rstrip (numberLine n) = numberLine n := by
    have hsplit : numberLine n = ('[' :: (List.replicate n '1' ++ ['/', '5', ']', ' '])) ++ 'x' :: [] := by
      unfold numberLine
      rw [List.cons_append, List.append_assoc]
      rfl
    rw [hsplit, rstrip_append_solid (by decide)]
    rfl
  obtain ⟨m, rfl⟩ : ∃ m, n = m + 1 := ⟨n - 1, by omega⟩
  have hfive : isDecimal '5' = true := isDecimal_ascii (by decide)
  have hclose : isDecimal ']' = false := isDecimal_ascii (by decide)
  have hhere : stepHere (numberLine (m + 1)) = stepCount (List.replicate (m + 1) '1' ++ '/' :: ['5', ']', ' ', 'x']) := rfl
  have hcount : stepCount (List.replicate (m + 1) '1' ++ '/' :: ['5', ']', ' ', 'x']) = some (List.replicate (m + 1) '1') := by
    unfold stepCount
    rw [takeWhile_ones, dropWhile_ones, if_neg (by simp)]
    have hblank : isSpace ' ' = true := rfl
    simp [hfive, hclose, hblank]
  refine ⟨List.replicate (m + 1) '1', ?_, by rw [List.length_replicate]; exact h⟩
  rw [hline]
  unfold numberLine at hhere ⊢
  unfold stepNumber
  rw [hhere, hcount]

/-! ## The window -/

theorem shownProgress_window {log log' : List Text} (h : log.drop (log.length - 30) = log'.drop (log'.length - 30)) :
    shownProgress lastUpdate metadata log = shownProgress lastUpdate metadata log' := by
  have hlines : logLines (some log) = logLines (some log') := congrArg (List.map rstrip) h
  unfold shownProgress getDeploymentProgress
  rw [hlines]

omit [Unicode] in
theorem window_of_long {log run : List Text} (h : run <:+ log) (hlong : 30 ≤ run.length) :
    log.drop (log.length - 30) = run.drop (run.length - 30) := by
  obtain ⟨earlier, rfl⟩ := h
  rw [List.length_append, List.drop_append]
  have hdrop : earlier.drop (earlier.length + run.length - 30) = [] := List.drop_eq_nil_of_le (by omega)
  have hrest : earlier.length + run.length - 30 - earlier.length = run.length - 30 := by omega
  rw [hdrop, hrest, List.nil_append]

omit [Unicode] in
theorem mem_window_of_short {log run : List Text} {line : Text} (h : run <:+ log) (hshort : run.length ≤ 30) (hline : line ∈ run) :
    line ∈ log.drop (log.length - 30) := by
  obtain ⟨earlier, rfl⟩ := h
  rw [List.length_append, List.drop_append]
  have hrest : earlier.length + run.length - 30 - earlier.length = 0 := by omega
  rw [hrest]
  exact List.mem_append_right _ hline

/-- **When the progress is that of the current run.** What a viewer is told does not depend on the lines before the last marker
exactly if the run has thirty lines already, or if it raises on its own: the time in the lock is no number, or the run has a
step number that `int` refuses. -/
theorem progress_current_iff {log run : List Text} (h : sinceMarker log = some run) :
    (∀ log', sinceMarker log' = some run → shownProgress lastUpdate metadata log' = shownProgress lastUpdate metadata log) ↔
      30 ≤ run.length ∨ metadata.elapsedSeconds = none ∨ ∃ line ∈ run, Unreadable line := by
  constructor
  · intro hsame
    by_contra hnot
    rw [not_or] at hnot
    obtain ⟨hshort, hreads⟩ := hnot
    have hself := (sinceMarker_found h).2
    -- An earlier run with a number that `int` refuses takes the response away.
    have hbad : shownProgress lastUpdate metadata (numberLine (intMaxStrDigits + 1) :: run) = none := by
      rw [shownProgress_eq_none]
      refine .inr ⟨_, ?_, unreadable_numberLine (Nat.lt_succ_self _)⟩
      have hall : (numberLine (intMaxStrDigits + 1) :: run).length - 30 = 0 := by
        rw [List.length_cons]
        omega
      rw [hall]
      exact List.mem_cons_self ..
    have hgood : shownProgress lastUpdate metadata run ≠ none := by
      rw [Ne, shownProgress_eq_none]
      rintro (helapsed | ⟨line, hline, hunreadable⟩)
      · exact hreads (.inl helapsed)
      · exact hreads (.inr ⟨line, List.mem_of_mem_drop hline, hunreadable⟩)
    have hother := hsame _ (sinceMarker_append [numberLine (intMaxStrDigits + 1)] hself)
    rw [← hsame run hself] at hother
    exact hgood (hother.symm.trans hbad)
  · intro hcond log' hlog'
    have hrun := (sinceMarker_found h).1
    have hrun' := (sinceMarker_found hlog').1
    by_cases hlong : 30 ≤ run.length
    · exact shownProgress_window ((window_of_long hrun' hlong).trans (window_of_long hrun hlong).symm)
    · have hnone : ∀ log, run <:+ log → shownProgress lastUpdate metadata log = none := by
        intro log hlog
        rw [shownProgress_eq_none]
        rcases hcond.resolve_left hlong with helapsed | ⟨line, hline, hunreadable⟩
        · exact .inl helapsed
        · exact .inr ⟨line, mem_window_of_short hlog (by omega) hline, hunreadable⟩
      rw [hnone log' hrun', hnone log hrun]

end

def markerSample : Text := lit "--- Update Deployment Triggered at 2026-03-01 12:00:00+00:00 ---\n"

/-- The last step of the run before. -/
def staleSample : Text := lit "[STEP 5/5] Restarting palworld-manager.service... [ OK ]\n"

def lockSample : LockMetadata := ⟨.portalUpdate, some 3⟩

def stepSample : Text := lit "[STEP 2/5] Building the package... [ OK ]\n"

/-- A run with thirty lines, behind the last step of another. -/
def longRun : List Text := markerSample :: List.replicate 29 stepSample

theorem long_run_current :
    let _ := Unicode.ascii
    (∀ log', sinceMarker log' = some longRun → shownProgress none lockSample log' = shownProgress none lockSample (staleSample :: longRun)) ∧
      (shownProgress none lockSample (staleSample :: longRun)).map (·.currentStep) = some 3 := by
  let _ := Unicode.ascii
  have hrun : sinceMarker (staleSample :: longRun) = some longRun := by decide +kernel
  exact ⟨(progress_current_iff hrun).mpr (.inl (by decide)), by decide +kernel⟩

/-- A run that has just begun is shown at the last step of the run before. -/
theorem stale_step_shown :
    ¬ ∀ (_ : Unicode) (lastUpdate : Option PostUpdateSummary) (metadata : LockMetadata) (log log' run : List Text),
      sinceMarker log = some run → sinceMarker log' = some run →
        shownProgress lastUpdate metadata log' = shownProgress lastUpdate metadata log := by
  intro h
  let _ := Unicode.ascii
  have hsame := h Unicode.ascii none lockSample [markerSample] [staleSample, markerSample] [markerSample] (by decide +kernel)
    (by decide +kernel)
  have hfresh : (shownProgress none lockSample [markerSample]).map (·.currentStep) = some 1 := by decide +kernel
  have hstale : (shownProgress none lockSample [staleSample, markerSample]).map (·.currentStep) = some 5 := by decide +kernel
  rw [hsame, hfresh] at hstale
  cases hstale

end Palworld.Update

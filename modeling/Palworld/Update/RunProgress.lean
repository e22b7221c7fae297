import Palworld.Update.DeployRun

/-!
# The progress of a run

While the output of a run fits the window, the progress says exactly which steps are done. Once
the first lines have left the window, steps that were done are shown as pending again.
-/

open Lib

namespace Palworld.Update

/-! ## What a window shows -/

/-- The first `done` steps are completed and the next one runs. -/
def stepsAfter (done : Nat) : List DeploymentStepInfo :=
  defaultSteps.map fun step =>
    { step with status := if step.index ≤ done then .completed else if step.index = done + 1 then .running else .pending }

/-- What is shown of the steps behind the one with number `start`. -/
def shownAt (start : Nat) (phase : Phase) : List DeploymentStepInfo × Nat := showSteps (scanned start phase)

def percentAt (start : Nat) (phase : Phase) : Nat := percentOf (scanned start phase) (shownAt start phase)

/-- From the start, everything is shown. -/
theorem shown_from_start (phase : Phase) (h : phase.begun ≤ 5) :
    (shownAt 0 phase).1 = stepsAfter phase.done ∧ (shownAt 0 phase).2 = min (phase.done + 1) 5 ∧
      percentAt 0 phase = if phase.done < 5 then 20 * phase.done + 10 else 100 := by
  obtain ⟨done, running⟩ := phase
  have hdone : done ≤ 5 := (Nat.le_add_right done running.toNat).trans h
  interval_cases done <;> cases running <;> revert h <;> decide

def completedSteps (steps : List DeploymentStepInfo) : List Nat := (steps.filter fun step => step.status = .completed).map (·.index)

/-- A step is shown as completed if it is done and its line is still in the window. -/
theorem mem_completedSteps {start k : Nat} {phase : Phase} (hstart : start ≤ 5) (h : phase.begun ≤ 5) :
    k ∈ completedSteps (shownAt start phase).1 ↔ start < k ∧ k ≤ phase.done := by
  obtain ⟨done, running⟩ := phase
  have hdone : done ≤ 5 := (Nat.le_add_right done running.toNat).trans h
  have hlist : completedSteps (shownAt start ⟨done, running⟩).1 = List.range' (start + 1) (done - start) := by
    interval_cases start <;> interval_cases done <;> cases running <;> revert h <;> decide
  rw [hlist, List.mem_range'_1]
  dsimp only
  omega

theorem currentStep_at {start : Nat} {phase : Phase} (hstart : start ≤ 5) (h : phase.begun ≤ 5) :
    (shownAt start phase).2 = if phase.begun ≤ start then 1 else min (phase.done + 1) 5 := by
  obtain ⟨done, running⟩ := phase
  have hdone : done ≤ 5 := (Nat.le_add_right done running.toNat).trans h
  interval_cases start <;> interval_cases done <;> cases running <;> revert h <;> decide

theorem percent_at {start : Nat} {phase : Phase} (hstart : start ≤ 5) (h : phase.begun ≤ 5) :
    percentAt start phase =
      if phase.begun ≤ start ∨ phase.done < 5 then 20 * (phase.done - start) + 10 else if start = 0 then 100 else 20 * (5 - start) := by
  obtain ⟨done, running⟩ := phase
  have hdone : done ≤ 5 := (Nat.le_add_right done running.toNat).trans h
  interval_cases start <;> interval_cases done <;> cases running <;> revert h <;> decide

/-! ## The progress of what is printed so far -/

section

variable [Unicode] {run : DeployRun} {printed : Text} {log : List Text} {phase last : Phase} {lastUpdate : Option PostUpdateSummary}
  {operation : Operation} {elapsed : Nat}

/-- The steps that begin before the window. -/
def scrolledOff (log : List Text) : Nat := begunCount (log.take (log.length - 30))

/-- The progress is that of the phase the lines lead to, as far as the window goes back. -/
theorem progress_of_reads (h : Reads ⟨0, false⟩ log last) :
    getDeploymentProgress true lastUpdate ⟨operation, some elapsed⟩ (some log) =
      some ⟨operation, true, (shownAt (scrolledOff log) last).2, 5, stepNameOf (shownAt (scrolledOff log) last), percentAt (scrolledOff log) last,
        elapsed, some (max 5 (45 - elapsed)), (shownAt (scrolledOff log) last).1, logLines (some log), lastUpdate⟩ := by
  have hsplit : log.take (log.length - 30) ++ log.drop (log.length - 30) = log := List.take_append_drop _ _
  have hreads := h
  rw [← hsplit] at hreads
  obtain ⟨next, hbefore, hwindow⟩ := hreads.split
  have hstart : next.begun = scrolledOff log := hbefore.from_start.1
  have hscan := scanLines_of_reads hwindow
  have habort : ¬ ∃ line ∈ logLines (some log), abortMark <:+: line := by
    rintro ⟨line, hline, habort⟩
    obtain ⟨raw, hraw, rfl⟩ := List.mem_map.mp hline
    rw [abortMark_rstrip] at habort
    exact h.not_aborted raw (List.mem_of_mem_drop hraw) habort
  have hlines : logLines (some log) = (log.drop (log.length - 30)).map rstrip := rfl
  rw [← hlines, hstart] at hscan
  unfold getDeploymentProgress activeProgress
  rw [if_pos rfl, hscan]
  simp only [Option.bind_eq_bind, Option.bind_some, habort, if_false]
  rfl

/-- **Short logs.** While a run has printed at most thirty lines, the steps whose mark is printed are completed, the next one
runs, and the rest is pending. -/
theorem progress_exact (run : DeployRun) (hprinted : printed <+: run.output) (hshort : (logOf printed).length ≤ 30)
    (lastUpdate : Option PostUpdateSummary) (operation : Operation) (elapsed : Nat) :
    ∃ response, getDeploymentProgress true lastUpdate ⟨operation, some elapsed⟩ (some (logOf printed)) = some response ∧
      response.active = true ∧ response.steps = stepsAfter (okCount printed) ∧ response.currentStep = min (okCount printed + 1) 5 ∧
      response.percentage = if okCount printed < 5 then 20 * okCount printed + 10 else 100 := by
  obtain ⟨last, hreads, hbegun⟩ := run.reads hprinted
  have hdone : last.done = okCount printed := hreads.from_start.2
  have hnone : scrolledOff (logOf printed) = 0 := by
    unfold scrolledOff
    rw [Nat.sub_eq_zero_of_le hshort]
    rfl
  obtain ⟨hsteps, hcurrent, hpercent⟩ := shown_from_start last hbegun
  rw [← hdone]
  refine ⟨_, progress_of_reads hreads, rfl, ?_⟩
  rw [hnone]
  exact ⟨hsteps, hcurrent, hpercent⟩

end

section

def syncBody : Text := lit "Syncing application code & systemd units... "

theorem syncBody_titled : ∃ c ∈ (universalNewlines syncBody).takeWhile (· ≠ '\n'), isSpace c = false := ⟨'S', by decide⟩

theorem syncBody_plain : '[' ∉ universalNewlines syncBody := by decide

theorem syncBody_calm : ¬ abortMark <:+: universalNewlines syncBody := by decide

variable [Unicode]

def syncStep : StepOutput := plainStep syncBody syncBody_titled syncBody_plain syncBody_calm

/-- Each step is one line. -/
def quietRun : DeployRun where
  header := []
  first := syncStep
  others := [syncStep, syncStep, syncStep, syncStep]
  footer := []
  four := rfl
  headerEnds := .inl rfl
  quietHeader := quiet_empty
  quietFooter := quiet_empty

end

/-- One step is done, and nothing is printed of the second one. -/
theorem one_step_shown :
    let _ := Unicode.ascii
    ∃ response, getDeploymentProgress true none ⟨.portalUpdate, some 3⟩ (some (logOf (stepText 1 syncStep))) = some response ∧
      response.active = true ∧ response.steps = stepsAfter (okCount (stepText 1 syncStep)) ∧
      response.currentStep = min (okCount (stepText 1 syncStep) + 1) 5 ∧
      response.percentage = if okCount (stepText 1 syncStep) < 5 then 20 * okCount (stepText 1 syncStep) + 10 else 100 :=
  let _ := Unicode.ascii
  progress_exact quietRun (List.prefix_append (stepText 1 syncStep) _) (by decide +kernel) none .portalUpdate 3

section

variable [Unicode] {run : DeployRun} {printed : Text} {last : Phase}

/-! ## Progress and the window -/

/-- What `after` tells is nowhere behind what `before` told. -/
structure NotBehind (before after : DeploymentProgressResponse) : Prop where
  percentage : before.percentage ≤ after.percentage
  currentStep : before.currentStep ≤ after.currentStep
  completed : completedSteps before.steps ⊆ completedSteps after.steps

/-- Of two readings of a run under one lock, the later one is not behind. -/
def NeverBackwards (run : DeployRun) : Prop :=
  ∀ (operation : Operation) (lastUpdate lastUpdate' : Option PostUpdateSummary) (elapsed elapsed' : Nat) (printed printed' : Text),
    printed <+: printed' → printed' <+: run.output →
    ∃ before after, getDeploymentProgress true lastUpdate ⟨operation, some elapsed⟩ (some (logOf printed)) = some before ∧
      getDeploymentProgress true lastUpdate' ⟨operation, some elapsed'⟩ (some (logOf printed')) = some after ∧ NotBehind before after

/-- The lines of the first step, and those behind it. -/
def DeployRun.firstLines (run : DeployRun) : List Text := logOf (stepText 1 run.first)

def DeployRun.otherLines (run : DeployRun) : List Text := logOf (stepsText 2 run.others ++ run.footer)

theorem DeployRun.logOf_output (run : DeployRun) : logOf run.output = logOf run.header ++ (run.firstLines ++ run.otherLines) := by
  unfold DeployRun.output DeployRun.firstLines DeployRun.otherLines
  rw [logOf_append run.headerEnds, logOf_stepText]

theorem begunCount_append (lines more : List Text) : begunCount (lines ++ more) = begunCount lines + begunCount more :=
  List.countP_append

theorem begunCount_header (run : DeployRun) {n : Nat} (h : n ≤ (logOf run.header).length) : begunCount ((logOf run.output).take n) = 0 := by
  rw [run.logOf_output, List.take_append_of_le_length h]
  have hquiet : ∀ line ∈ (logOf run.header).take n, Quiet line := fun line hline => run.quietHeader line (List.mem_of_mem_take hline)
  have hreads : Reads ⟨0, false⟩ ((logOf run.header).take n) ⟨0, false⟩ := .quiet hquiet
  exact hreads.from_start.1.symm

theorem DeployRun.firstLines_counts (run : DeployRun) :
    begunCount run.firstLines = 1 ∧ run.firstLines.countP (fun line => okMark <:+: line) = 1 := by
  have hreads := reads_whole_step (k := 0) (by omega) run.first
  exact ⟨hreads.from_start.1.symm, hreads.from_start.2.symm⟩

theorem begunCount_cons {line : Text} (h : (stepNumber (rstrip line)).isSome = true) (lines : List Text) :
    begunCount (line :: lines) = begunCount lines + 1 := by
  unfold begunCount
  rw [List.countP_cons]
  simp [h]

theorem begunCount_take (lines : List Text) (n : Nat) : begunCount (lines.take n) ≤ begunCount lines :=
  (List.take_sublist n lines).countP_le

/-- From the first line of the first step to its last one, one step has begun. -/
theorem begunCount_first (run : DeployRun) {n : Nat} (hlow : (logOf run.header).length < n)
    (hhigh : n ≤ (logOf run.header).length + run.firstLines.length) : begunCount ((logOf run.output).take n) = 1 := by
  have hheader := begunCount_header run (le_refl _)
  rw [run.logOf_output, List.take_left] at hheader
  obtain ⟨i, rfl⟩ : ∃ i, n = (logOf run.header).length + (i + 1) := ⟨n - (logOf run.header).length - 1, by omega⟩
  rw [run.logOf_output, List.take_length_add_append, begunCount_append, hheader, List.take_append_of_le_length (by omega)]
  obtain ⟨line, lines, hlines, hline⟩ := first_line_begins 1 run.first
  have hcount := run.firstLines_counts.1
  unfold DeployRun.firstLines at hcount ⊢
  rw [hlines, begunCount_cons hline] at hcount
  rw [hlines, List.take_succ_cons, begunCount_cons hline]
  have hsub := begunCount_take lines i
  omega

/-- With one more line, the second step has begun. -/
theorem begunCount_second (run : DeployRun) :
    begunCount ((logOf run.output).take ((logOf run.header).length + run.firstLines.length + 1)) = 2 := by
  have hheader := begunCount_header run (le_refl _)
  rw [run.logOf_output, List.take_left] at hheader
  have hfirst := run.firstLines_counts.1
  have hother : begunCount (run.otherLines.take 1) = 1 := by
    have hfour := run.four
    unfold DeployRun.otherLines
    cases hothers : run.others with
    | nil =>
      rw [hothers] at hfour
      cases hfour
    | cons step steps =>
      obtain ⟨line, lines, hlines, hline⟩ := first_line_begins 2 step
      rw [stepsText, List.append_assoc, logOf_stepText, hlines, List.cons_append, List.take_succ_cons, begunCount_cons hline]
      rfl
  rw [run.logOf_output, Nat.add_assoc, List.take_length_add_append, List.take_length_add_append, begunCount_append, begunCount_append]
  omega

/-- Before its last line the first step is not done. -/
theorem okCount_before (run : DeployRun) {n : Nat} (h : n < (logOf run.header).length + run.firstLines.length) :
    ((logOf run.output).take n).countP (fun line => okMark <:+: line) = 0 := by
  obtain ⟨lines, line, hlines, hok⟩ := last_line_confirms (stepHead 1 ++ universalNewlines run.first.body)
  have hfirst : run.firstLines = lines ++ [line] := by
    unfold DeployRun.firstLines logOf
    rw [universalNewlines_stepText, ← hlines, List.append_assoc]
  have hcount := run.firstLines_counts.2
  rw [hfirst] at hcount h
  simp only [List.countP_append, List.countP_cons, List.countP_nil, hok, decide_true, if_true] at hcount
  have hsub : (logOf run.output).take n <+: logOf run.header ++ lines := by
    rw [run.logOf_output, hfirst]
    have hpre : logOf run.header ++ lines <+: logOf run.header ++ (lines ++ [line] ++ run.otherLines) := ⟨[line] ++ run.otherLines, by simp⟩
    refine List.prefix_of_prefix_length_le (List.take_prefix _ _) hpre ?_
    rw [List.length_append, List.length_singleton] at h
    simp only [List.length_take, List.length_append]
    omega
  have hquiet : 0 = (logOf run.header).countP fun line => okMark <:+: line := (Reads.quiet run.quietHeader).from_start.2
  have hle := hsub.sublist.countP_le (p := fun line => okMark <:+: line)
  rw [List.countP_append, ← hquiet] at hle
  omega

theorem scrolledOff_eq (run : DeployRun) (h : printed <+: run.output) :
    scrolledOff (logOf printed) = begunCount ((logOf run.output).take ((logOf printed).length - 30)) ∧
      (logOf printed).length ≤ (logOf run.output).length := by
  unfold scrolledOff
  rcases logOf_cut h with ⟨rest, hlines⟩ | ⟨lines, part, line, rest, hprinted, houtput, -⟩
  · rw [← hlines, List.take_append_of_le_length (Nat.sub_le _ _)]
    exact ⟨rfl, by simp⟩
  · rw [hprinted, houtput]
    have hinner : (lines ++ [part]).length - 30 ≤ lines.length := by
      rw [List.length_append, List.length_singleton]
      omega
    rw [List.take_append_of_le_length hinner, List.take_append_of_le_length hinner]
    exact ⟨rfl, by simp⟩

/-- No step that is done has left the window, unless it was never seen. -/
def DeployRun.Fits (run : DeployRun) : Prop :=
  run.firstLines.length + run.otherLines.length ≤ 30 ∨ (30 < run.firstLines.length ∧ run.otherLines.length ≤ 30)

instance (run : DeployRun) : Decidable run.Fits := inferInstanceAs (Decidable (_ ∨ _))

theorem begunCount_low (run : DeployRun) {n : Nat} (h : n ≤ (logOf run.header).length + run.firstLines.length) :
    begunCount ((logOf run.output).take n) = if n ≤ (logOf run.header).length then 0 else 1 := by
  split
  · rename_i hheader
    exact begunCount_header run hheader
  · exact begunCount_first run (by omega) h

omit [Unicode] in
theorem okCount_le {t : Text} (h : printed <+: t) :
    (logOf printed).countP (fun line => okMark <:+: line) ≤ ((logOf t).take (logOf printed).length).countP fun line => okMark <:+: line := by
  rcases logOf_cut h with ⟨rest, hlines⟩ | ⟨lines, part, line, rest, hprinted, ht, hpart⟩
  · rw [← hlines, List.take_left]
  · have hone : (lines ++ line :: rest).take (lines ++ [part]).length = lines ++ [line] := by
      rw [List.length_append, List.length_singleton, List.take_length_add_append]
      rfl
    rw [hprinted, ht, hone]
    simp only [List.countP_append, List.countP_cons, List.countP_nil]
    by_cases hok : okMark <:+: part
    · simp [hok, hok.trans hpart.isInfix]
    · simp [hok]

omit [Unicode] in
theorem length_logOf_mono {t : Text} (h : printed <+: t) : (logOf printed).length ≤ (logOf t).length := by
  rcases logOf_cut h with hlines | ⟨lines, part, line, rest, hprinted, ht, -⟩
  · exact hlines.length_le
  · rw [hprinted, ht]
    simp

/-- In a run that fits, no step that was seen as done leaves the window. -/
theorem scrolledOff_of_fits (run : DeployRun) {printed' : Text} (hfits : run.Fits) (hmore : printed <+: printed')
    (h' : printed' <+: run.output) (hreads : Reads ⟨0, false⟩ (logOf printed) last) :
    scrolledOff (logOf printed') ≤ 1 ∧
      (scrolledOff (logOf printed) = scrolledOff (logOf printed') ∨ (scrolledOff (logOf printed) = 0 ∧ last.done = 0)) := by
  have h := hmore.trans h'
  have hlength := length_logOf_mono hmore
  obtain ⟨hstart, hcount⟩ := scrolledOff_eq run h
  obtain ⟨hstart', hcount'⟩ := scrolledOff_eq run h'
  rw [run.logOf_output, List.length_append, List.length_append] at hcount hcount'
  have hlow : (logOf printed').length - 30 ≤ (logOf run.header).length + run.firstLines.length := by
    rcases hfits with hshort | ⟨-, hshort⟩
    · omega
    · omega
  rw [begunCount_low run (le_trans (by omega) hlow)] at hstart
  rw [begunCount_low run hlow] at hstart'
  by_cases hseen : (logOf printed).length - 30 ≤ (logOf run.header).length
  · rw [if_pos hseen] at hstart
    rcases hfits with hshort | ⟨hlong, -⟩
    · rw [if_pos (by omega)] at hstart'
      omega
    · have hbefore := okCount_before run (n := (logOf printed).length) (by omega)
      have hle := okCount_le h
      have hdone := hreads.from_start.2
      split at hstart'
      · omega
      · omega
  · rw [if_neg hseen] at hstart
    rw [if_neg (by omega)] at hstart'
    omega

/-- Two readings of a run, one line apart. -/
theorem two_readings (run : DeployRun) {n : Nat} (hn : n < (logOf run.output).length) :
    ∃ printed printed', printed <+: printed' ∧ printed' <+: run.output ∧ logOf printed = (logOf run.output).take n ∧
      logOf printed' = (logOf run.output).take (n + 1) := by
  obtain ⟨printed, hprinted, hlines⟩ := logOf_take run.output n
  obtain ⟨printed', hprinted', hlines'⟩ := logOf_take run.output (n + 1)
  refine ⟨printed, printed', ?_, hprinted', hlines, hlines'⟩
  rcases List.prefix_or_prefix_of_prefix hprinted hprinted' with h | h
  · exact h
  · have hlength := length_logOf_mono h
    rw [hlines, hlines', List.length_take, List.length_take] at hlength
    omega

/-- When the line that names the next step leaves the window, that step is no longer shown as completed, or as the current one. -/
theorem readings_differ (run : DeployRun) (n start : Nat) (hn : 30 ≤ n) (hlength : n < (logOf run.output).length)
    (hstart : begunCount ((logOf run.output).take (n - 30)) = start) (hnext : begunCount ((logOf run.output).take (n - 29)) = start + 1)
    (hpositive : start ≠ 0 ∨ 0 < ((logOf run.output).take n).countP fun line => okMark <:+: line) : ¬ NeverBackwards run := by
  intro hnever
  obtain ⟨printed, printed', hmore, hprinted', hlines, hlines'⟩ := two_readings run hlength
  obtain ⟨before, after, hbefore, hafter, hpercent, hcurrent, hcompleted⟩ := hnever .portalUpdate none none 0 0 printed printed' hmore hprinted'
  obtain ⟨last', hreads', hbegun'⟩ := run.reads hprinted'
  -- The phase before the last line and the phase behind it.
  have hsplit : logOf printed' = logOf printed ++ [(logOf run.output)[n]] := by
    rw [hlines, hlines', List.take_add_one, List.getElem?_eq_getElem hlength]
    rfl
  have hreads'' := hreads'
  rw [hsplit] at hreads''
  obtain ⟨last, hreads, hline⟩ := hreads''.split
  obtain ⟨hmono, -⟩ := phase_mono hmore hreads hreads'
  rw [progress_of_reads hreads, Option.some_inj] at hbefore
  rw [progress_of_reads hreads', Option.some_inj] at hafter
  have hoff : scrolledOff (logOf printed) = start := by
    unfold scrolledOff
    rw [hlines, List.length_take_of_le hlength.le, List.take_take, Nat.min_eq_left (Nat.sub_le n 30), hstart]
  have hoff' : scrolledOff (logOf printed') = start + 1 := by
    unfold scrolledOff
    rw [hlines', List.length_take_of_le (Nat.succ_le_of_lt hlength), List.take_take, Nat.min_eq_left (Nat.sub_le (n + 1) 30)]
    have hshift : n + 1 - 30 = n - 29 := by omega
    rw [hshift, hnext]
  have hbegun : start + 1 ≤ last.begun := by
    rw [hreads.from_start.1, hlines, ← hnext]
    have hinner : (logOf run.output).take (n - 29) = ((logOf run.output).take n).take (n - 29) := by
      rw [List.take_take, Nat.min_eq_left (Nat.sub_le n 29)]
    rw [hinner]
    exact begunCount_take _ _
  have hdone : last.done = ((logOf run.output).take n).countP fun line => okMark <:+: line := by rw [hreads.from_start.2, hlines]
  rw [hoff] at hbefore
  rw [hoff'] at hafter
  by_cases hseen : start + 1 ≤ last.done
  · -- The step is done.
    have hmem : start + 1 ∈ completedSteps before.steps := by
      rw [← hbefore]
      exact (mem_completedSteps (by omega) (by omega)).mpr ⟨Nat.lt_succ_self start, hseen⟩
    have hgone := hcompleted hmem
    rw [← hafter] at hgone
    have habove := (mem_completedSteps (by omega) hbegun').mp hgone
    omega
  · -- The step still runs.
    have hnow : before.currentStep = min (last.done + 1) 5 := by
      rw [← hbefore]
      show (shownAt _ _).2 = _
      rw [currentStep_at (by omega) (by omega), if_neg (by omega)]
    have hrunning : last.running = true ∧ last.done = start := by
      unfold Phase.begun at hbegun
      cases hrunning : last.running with
      | false =>
        rw [hrunning, Bool.toNat_false] at hbegun
        omega
      | true =>
        rw [hrunning, Bool.toNat_true] at hbegun
        exact ⟨rfl, by omega⟩
    have hlater : last'.begun ≤ start + 1 := by
      cases hline with
      | cons _ hstep hrest =>
        cases hrest
        rw [hstep.begun_running hrunning.1, Phase.begun, hrunning.1, hrunning.2, Bool.toNat_true]
    have hthen : after.currentStep = 1 := by
      rw [← hafter]
      show (shownAt _ _).2 = _
      rw [currentStep_at (by omega) hbegun', if_pos hlater]
    omega

/-- **When progress never goes backwards.** It does not exactly if the run, from its first step on, has at most thirty lines, or if
the first step alone fills the window before it is done and the rest of the run has at most thirty lines. -/
theorem never_backwards_iff (run : DeployRun) : NeverBackwards run ↔ run.Fits := by
  constructor
  · intro hnever
    by_contra hfits
    unfold DeployRun.Fits at hfits
    have htotal : (logOf run.output).length = (logOf run.header).length + (run.firstLines.length + run.otherLines.length) := by
      rw [run.logOf_output, List.length_append, List.length_append]
    have hfirst : 0 < run.firstLines.length := by
      obtain ⟨line, lines, hlines, -⟩ := first_line_begins 1 run.first
      unfold DeployRun.firstLines
      rw [hlines]
      exact Nat.succ_pos _
    by_cases hshort : run.firstLines.length ≤ 30
    · -- The first step was seen as completed.
      refine readings_differ run ((logOf run.header).length + 30) 0 (by omega) (by omega) ?_ ?_ (.inr ?_) hnever
      · exact begunCount_header run (by omega)
      · exact begunCount_first run (by omega) (by omega)
      · rw [run.logOf_output, List.take_length_add_append, List.take_append, List.take_of_length_le hshort]
        have hdone := run.firstLines_counts.2
        simp only [List.countP_append]
        omega
    · -- The second step was seen, as completed or as running.
      refine readings_differ run ((logOf run.header).length + run.firstLines.length + 30) 1 (by omega) (by omega) ?_ ?_
        (.inl one_ne_zero) hnever
      · exact begunCount_first run (by omega) (by omega)
      · have hnext : (logOf run.header).length + run.firstLines.length + 30 - 29 = (logOf run.header).length + run.firstLines.length + 1 := by
          omega
        rw [hnext]
        exact begunCount_second run
  · intro hfits operation lastUpdate lastUpdate' elapsed elapsed' printed printed' hmore h'
    obtain ⟨last, hreads, hbegun⟩ := run.reads (hmore.trans h')
    obtain ⟨last', hreads', hbegun'⟩ := run.reads h'
    obtain ⟨hone, hstart⟩ := scrolledOff_of_fits run hfits hmore h' hreads
    obtain ⟨hmono, hdone⟩ := phase_mono hmore hreads hreads'
    have hone' : scrolledOff (logOf printed) ≤ 1 := by omega
    refine ⟨_, _, progress_of_reads hreads, progress_of_reads hreads', ?_, ?_, ?_⟩
    · show percentAt _ _ ≤ percentAt _ _
      rw [percent_at (by omega) hbegun, percent_at (by omega) hbegun']
      unfold Phase.begun at *
      split <;> split <;> (try split) <;> (try split) <;> omega
    · show (shownAt _ _).2 ≤ (shownAt _ _).2
      rw [currentStep_at (by omega) hbegun, currentStep_at (by omega) hbegun']
      unfold Phase.begun at *
      split <;> split <;> omega
    · intro k hk
      rw [mem_completedSteps (by omega) hbegun] at hk
      rw [mem_completedSteps (by omega) hbegun']
      omega

end

section

/-- Thirty packages, each on a line of its own. -/
def packageBody : Text := lit "Updating Python dependencies via uv... \n" ++ (List.replicate 30 (lit "+ package\n")).flatten

theorem packageBody_titled : ∃ c ∈ (universalNewlines packageBody).takeWhile (· ≠ '\n'), isSpace c = false := ⟨'U', by decide +kernel⟩

theorem packageBody_plain : '[' ∉ universalNewlines packageBody := by decide +kernel

theorem packageBody_calm : ¬ abortMark <:+: universalNewlines packageBody := by decide +kernel

variable [Unicode]

def packageStep : StepOutput := plainStep packageBody packageBody_titled packageBody_plain packageBody_calm

/-- The second step prints more than the window holds. -/
def packageRun : DeployRun where
  header := []
  first := syncStep
  others := [packageStep, syncStep, syncStep, syncStep]
  footer := []
  four := rfl
  headerEnds := .inl rfl
  quietHeader := quiet_empty
  quietFooter := quiet_empty

end

/-- The first step is completed, and then pending. -/
theorem progress_falls_back : ¬ ∀ (_ : Unicode) (run : DeployRun), NeverBackwards run := by
  intro h
  let _ := Unicode.ascii
  refine readings_differ packageRun 30 0 (le_refl _) ?_ rfl ?_ (.inr ?_) (h Unicode.ascii packageRun)
  · decide +kernel
  · decide +kernel
  · decide +kernel

end Palworld.Update

import Palworld.Lib.Regex
import Palworld.Update.Dispatch

/-!
# The two validators of a branch name

`apply_update` checks the target branch before it takes the lock, and the supervisor checks it
again as a field of `SystemDeployParams`. Both patterns end in a `$`.
-/

open Lib Palworld.Supervisor

namespace Palworld.Update

variable {b w : Text}

/-! ## What the validators accept -/

/-- The answer of `apply_update` to a target branch that does not match. -/
def Refused (outcome : Except Raised UpdateApplyResponse × Option LockFile) : Prop :=
  outcome.1 = .error (.http 400 "Invalid target branch name.")

theorem resolveDeployScript_raises {files : ScriptFiles} {error : Raised}
    (h : resolveDeployScript files = .error error) : error = .osError := by
  obtain ⟨configured, configuredExists, isFile, path⟩ := files
  cases configured <;> cases configuredExists <;> cases hinstalled : isFile .installed <;>
    cases hrepository : isFile .repository <;>
    simp [resolveDeployScript, Probe.read, hinstalled, hrepository, bind, Except.bind, pure, Except.pure] at h <;>
    exact h.symm

theorem acquire_status {io : AcquireIo} {now : ℚ} {lock : Option LockFile} {status : Nat} {detail : String}
    (h : (acquire io now lock).1 = .error (.http status detail)) : status = 409 ∨ status = 500 := by
  unfold acquire at h
  split at h
  · cases h
    exact Or.inl rfl
  · split at h <;> cases h
    exact Or.inr rfl

section Requests

variable [Pydantic]

theorem ending_status {host : Host} {status : Nat} {detail : String} :
    host.ending ≠ .raised (.http status detail) ∧ (host.ending = .failed (.http status detail) → status = 500) := by
  have hthread : ∀ (cancelled : Bool) (text : String) (outcome : Except String Unit),
      awaitThread cancelled text outcome ≠ .raised (.http status detail) ∧
        (awaitThread cancelled text outcome = .failed (.http status detail) → status = 500) := by
    intro cancelled text outcome
    cases outcome <;> cases cancelled <;> simp [awaitThread]
    intro h _
    exact h.symm
  unfold Host.ending
  cases hscript : resolveDeployScript host.files with
  | error error =>
    have herror := resolveDeployScript_raises hscript
    subst herror
    simp
  | ok script =>
    cases host.commandRunner with
    | some runner => exact hthread _ _ _
    | none =>
      cases hfile : host.files.isFile script with
      | osError => simp [hfile]
      | no =>
        simp only [hfile]
        constructor
        · simp
        · intro h
          cases h
          rfl
      | yes =>
        simp only [hfile]
        exact hthread _ _ _

theorem settle_status {host : Host} {lock : Option LockFile} {status : Nat} {detail : String}
    (h : (host.settle lock).1 = .error (.http status detail)) : status = 500 := by
  unfold Host.settle at h
  cases hending : host.ending with
  | returned =>
    rw [hending] at h
    cases h
  | raised error =>
    rw [hending] at h
    cases h
    exact absurd hending ending_status.1
  | failed error =>
    rw [hending] at h
    dsimp only [unlinkLock] at h
    split at h
    · cases h
      exact ending_status.2 hending
    · rename_i hunlink
      split at hunlink <;> cases hunlink
      cases h

/-- Only a target branch that does not match the pattern is refused. -/
theorem refused_iff (watcher : Watcher) (io : AcquireIo) (host : Host) (now later : ℚ) (branch : Option Text)
    (lock : Option LockFile) :
    Refused (watcher.applyUpdate io host now later branch lock) ↔ targetPattern (watcher.target branch) = false := by
  unfold Refused Watcher.applyUpdate
  cases targetPattern (watcher.target branch) with
  | false => simp
  | true =>
    simp only [Bool.not_true, Bool.false_eq_true, if_false, iff_false, reduceCtorEq]
    intro hrefused
    cases hacquire : acquire io now lock with
    | mk outcome held =>
      rw [hacquire] at hrefused
      cases outcome with
      | error error =>
        cases hrefused
        have hstatus := acquire_status (congrArg Prod.fst hacquire)
        omega
      | ok _ =>
        dsimp only at hrefused
        cases hsettle : host.settle held with
        | mk outcome left =>
          rw [hsettle] at hrefused
          cases outcome with
          | error error =>
            cases hrefused
            have hstatus := settle_status (congrArg Prod.fst hsettle)
            omega
          | ok _ => cases hrefused

end Requests

/-! ## Agreement -/

/-- `SystemDeployParams` accepts this target branch. -/
def DeployAccepts (b : Text) : Prop :=
  ∃ params, SystemDeployParams.validate [(lit "target_branch", .str b)] = some params

theorem deployAccepts_iff : DeployAccepts b ↔ b.length ≤ 128 ∧ branchNamePattern b = true := by
  have hfield : fieldOr [(lit "target_branch", Json.str b)] "target_branch" (lit "main") Json.asStr = some b := by
    simp [fieldOr, field, lastOf, Json.asStr]
  unfold DeployAccepts SystemDeployParams.validate
  rw [hfield]
  simp only [Option.bind_eq_bind, Option.bind_some]
  split
  · rename_i h
    exact ⟨fun _ => h, fun _ => ⟨_, rfl⟩⟩
  · rename_i h
    simp [h]

/-- One to 128 characters of `[A-Za-z0-9._/\-]`, the first of them alphanumeric. -/
structure Strict (b : Text) : Prop where
  length : 1 ≤ b.length ∧ b.length ≤ 128
  chars : ∀ c ∈ b, isBranchChar c = true
  first : ∀ c ∈ b.head?, c.isAlphanum = true

/-- Neither pattern finds a name before a newline at the end, and a name of the first is one of the second. -/
structure Agreed (b : Text) : Prop where
  newline : ∀ w, b = w ++ ['\n'] → isTarget w = false ∧ ¬ (isBranchName w = true ∧ w.length ≤ 127)
  target : isTarget b = true → (∀ c ∈ b.head?, c.isAlphanum = true) ∧ b.length ≤ 128

theorem isBranchName_iff : isBranchName b = true ↔ Strict b := by
  cases b with
  | nil => exact ⟨nofun, fun h => absurd h.length.1 (by decide)⟩
  | cons c rest =>
    simp only [isBranchName, isBranchStart, Bool.and_eq_true, List.all_eq_true, decide_eq_true_eq]
    constructor
    · rintro ⟨⟨hfirst, hrest⟩, hlength⟩
      refine ⟨⟨by simp, by simp; omega⟩, ?_, by simpa using hfirst⟩
      rw [List.forall_mem_cons]
      exact ⟨by simp [isBranchChar, hfirst], hrest⟩
    · rintro ⟨⟨_, hlength⟩, hchars, hfirst⟩
      rw [List.forall_mem_cons] at hchars
      rw [List.length_cons] at hlength
      exact ⟨⟨hfirst c rfl, hchars.2⟩, by omega⟩

theorem newline_notMem_target {t : Text} (h : isTarget t = true) : '\n' ∉ t := by
  intro hmem
  rw [isTarget, Bool.and_eq_true, List.all_eq_true] at h
  exact absurd (h.2 _ hmem) (by decide)

theorem newline_notMem_branch {t : Text} (h : isBranchName t = true) : '\n' ∉ t := by
  intro hmem
  exact absurd ((isBranchName_iff.mp h).chars _ hmem) (by decide)

section Requests

variable [Pydantic]

/-- **When the validators agree and are strict.** A call of `apply_update` that is not refused has a target
branch that the supervisor accepts, and what that accepts is strict: exactly for the target branches that are `Agreed`. -/
theorem branchValidators_iff (watcher : Watcher) (io : AcquireIo) (host : Host) (now later : ℚ) (branch : Option Text)
    (lock : Option LockFile) :
    ((¬ Refused (watcher.applyUpdate io host now later branch lock) → DeployAccepts (watcher.target branch)) ∧
      (DeployAccepts (watcher.target branch) → Strict (watcher.target branch))) ↔ Agreed (watcher.target branch) := by
  rw [refused_iff, deployAccepts_iff, Bool.not_eq_false]
  generalize watcher.target branch = b
  by_cases hend : ∃ w, b = w ++ ['\n']
  · obtain ⟨w, rfl⟩ := hend
    have hstrict : ¬ Strict (w ++ ['\n']) := fun h => absurd (h.chars '\n' (by simp)) (by decide)
    have htarget : isTarget (w ++ ['\n']) = false := by
      rw [Bool.eq_false_iff]
      exact fun h => newline_notMem_target h (by simp)
    rw [targetPattern, dollar_newline fun _ => newline_notMem_target, branchNamePattern,
      dollar_newline fun _ => newline_notMem_branch, List.length_append, List.length_singleton]
    constructor
    · rintro ⟨hagree, hsafe⟩
      have hdeploy : ¬ (isBranchName w = true ∧ w.length ≤ 127) :=
        fun h => hstrict (hsafe ⟨by omega, h.1⟩)
      refine ⟨?_, fun h => absurd (htarget.symm.trans h) Bool.false_ne_true⟩
      intro w' heq
      obtain rfl := List.append_cancel_right heq
      rw [Bool.eq_false_iff]
      exact ⟨fun h => hdeploy ⟨(hagree h).2, by have := (hagree h).1; omega⟩, hdeploy⟩
    · rintro ⟨hnewline, _⟩
      obtain ⟨hnotTarget, hdeploy⟩ := hnewline w rfl
      refine ⟨fun h => ?_, fun h => absurd ⟨h.2, by omega⟩ hdeploy⟩
      rw [hnotTarget] at h
      cases h
  · have hend' : ∀ w, b ≠ w ++ ['\n'] := fun w hw => hend ⟨w, hw⟩
    rw [targetPattern, dollar_end hend', branchNamePattern, dollar_end hend', isBranchName_iff]
    constructor
    · rintro ⟨hagree, _⟩
      exact ⟨fun w hw => absurd hw (hend' w), fun h => ⟨(hagree h).2.first, (hagree h).1⟩⟩
    · rintro ⟨_, htarget⟩
      refine ⟨fun h => ?_, fun h => h.2⟩
      obtain ⟨hfirst, hlength⟩ := htarget h
      rw [isTarget, Bool.and_eq_true, List.all_eq_true] at h
      have hne : b ≠ [] := by simpa using h.1
      refine ⟨hlength, ⟨List.length_pos_of_ne_nil hne, hlength⟩, fun c hc => ?_, hfirst⟩
      have hchar := h.2 c hc
      simp only [isTargetChar, Bool.or_eq_true] at hchar
      simp only [isBranchChar, Bool.or_eq_true]
      tauto

end Requests

/-- `apply_update` takes "-f", which the supervisor refuses, and the supervisor takes "main" with a newline. -/
theorem validators_disagree :
    (¬ ∀ (_ : Pydantic) (watcher : Watcher) (io : AcquireIo) (host : Host) (now later : ℚ) (branch : Option Text)
      (lock : Option LockFile),
        ¬ Refused (watcher.applyUpdate io host now later branch lock) → DeployAccepts (watcher.target branch)) ∧
      ¬ ∀ b, DeployAccepts b → Strict b := by
  constructor
  · intro hagree
    have hdeploy := hagree (pydanticOf answerLine answerDocument) mainWatcher freeAcquire (willingUpdateHost .idle) 0 1
      (some (lit "-f")) none
    rw [@refused_iff (pydanticOf answerLine answerDocument), deployAccepts_iff] at hdeploy
    exact absurd (hdeploy (by decide +kernel)).2 (by decide +kernel)
  · intro hsafe
    have hstrict := hsafe (lit "main\n") (deployAccepts_iff.mpr (by decide +kernel))
    exact absurd (hstrict.chars '\n' (by decide +kernel)) (by decide)

end Palworld.Update

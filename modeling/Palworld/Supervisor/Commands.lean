import Palworld.Supervisor.Server

/-!
# What the supervisor runs

The commands that the root sidecar is there for, and the argument vectors of a line.
-/

open Lib

namespace Palworld.Supervisor

/-! ## Commands -/

inductive Command
  | restart (service : Text)
  | isActive (service : Text)
  | daemonReload
  | shutdownNow (message : Text)
  | shutdownIn (minutes : Nat) (message : Text)
  | deploy (branch : Text)

def Command.argv : Command → List Text
  | .restart service => [lit "/bin/systemctl", lit "restart", service]
  | .isActive service => [lit "/bin/systemctl", lit "is-active", service]
  | .daemonReload => [lit "/bin/systemctl", lit "daemon-reload"]
  | .shutdownNow message => [lit "/sbin/shutdown", lit "-r", lit "now", message]
  | .shutdownIn minutes message => [lit "/sbin/shutdown", lit "-r", '+' :: Nat.toDigits 10 minutes, message]
  | .deploy branch => [lit "/var/lib/palmanager/deploy-runner.sh", branch]

/-- The services are of the list, and a delay is at least a minute. -/
def Command.Allowed : Command → Prop
  | .restart service | .isActive service => service ∈ allowedServices
  | .shutdownIn minutes _ => 0 < minutes
  | .daemonReload | .shutdownNow _ | .deploy _ => True

def Command.arguments : Command → List Text
  | .restart service | .isActive service => [service]
  | .daemonReload => []
  | .shutdownNow message | .shutdownIn _ message => [message]
  | .deploy branch => [branch]

/-- No option, and one line. -/
def Plain (argument : Text) : Prop := argument.head? ≠ some '-' ∧ '\n' ∉ argument

instance (argument : Text) : Decidable (Plain argument) := inferInstanceAs (Decidable (_ ∧ _))

def Whitelisted (argv : List Text) : Prop :=
  ∃ command : Command, command.argv = argv ∧ command.Allowed ∧ ∀ argument ∈ command.arguments, Plain argument

def startedBy (events : List Event) : List (List Text) :=
  events.filterMap fun event =>
    match event with
    | .started argv => some argv
    | .dispatched _ | .wrote _ => none

/-- At most one process, and it is one of the whitelist. -/
def RunsWhitelisted (events : List Event) : Prop :=
  (startedBy events).length ≤ 1 ∧ ∀ argv ∈ startedBy events, Whitelisted argv

/-- The free texts of a request. A reason with a NUL reaches no process, and a branch name has no
newline but at its end. -/
def Params.PlainTexts : Params → Prop
  | .systemReboot params => '\x00' ∈ params.reason ∨ Plain params.reason
  | .systemDeploy params => params.targetBranch.getLast? ≠ some '\n'
  | .serviceRestart _ | .serviceStatus _ | .serviceReload _ => True

/-! ## The process of a line -/

variable {posix : Bool} {host : Host}

theorem startedBy_append (a b : List Event) : startedBy (a ++ b) = startedBy a ++ startedBy b :=
  List.filterMap_append ..

theorem startedBy_started (argvs : List (List Text)) : startedBy (argvs.map .started) = argvs := by
  induction argvs with
  | nil => rfl
  | cons argv rest ih => exact congrArg (argv :: ·) ih

theorem startedBy_serveRequest (drains : Bool) (request : JsonRpcRequest) (params : Params) :
    startedBy (serveRequest posix host drains request params) = (params.child posix host).toList := by
  have hevents := @methodDispatch_leaves posix host params [.dispatched params]
  unfold serveRequest
  rcases hrun : (methodDispatch posix host params).run.run [.dispatched params] with ⟨result, events⟩
  rw [hrun] at hevents
  have hstarted : startedBy events = (params.child posix host).toList := by
    rw [show events = _ from hevents, startedBy_append, startedBy_started]
    rfl
  cases result with
  | error => rw [startedBy_append, hstarted]; exact List.append_nil _
  | ok result =>
    dsimp only
    split
    · rw [startedBy_append, hstarted]; exact List.append_nil _
    · rw [startedBy_append, hstarted]; exact List.append_nil _

theorem startedBy_serveLine [Pydantic] (drains : Bool) (line : List UInt8) :
    startedBy (serveLine posix host drains line) =
      ((requestOf line).bind fun request => request.2.child posix host).toList := by
  unfold serveLine requestOf
  split
  · rfl
  · cases hrequest : JsonRpcRequest.validateJson line with
    | none => rfl
    | some request =>
      cases hparams : paramModels request.method request.params with
      | none => simp [hparams, startedBy]
      | some params => simp [hparams, startedBy_serveRequest]

/-! ## Vectors of the whitelist -/

theorem nul_notMem_shutdownTime (delaySeconds : Int) : '\x00' ∉ shutdownTime delaySeconds := by
  unfold shutdownTime
  split
  · rw [List.mem_cons, not_or]
    refine ⟨by decide, fun hmem => ?_⟩
    have hdigit := Nat.isDigit_of_mem_toDigits (by decide) (by decide) hmem
    exact absurd hdigit (by decide)
  · decide +kernel

theorem plain_of_service {service : Text} (h : service ∈ allowedServices) : Plain service := by
  have hall : ∀ s ∈ allowedServices, Plain s := by decide +kernel
  exact hall service h

theorem plain_of_branch {branch : Text} (hpattern : branchNamePattern branch = true)
    (hlast : branch.getLast? ≠ some '\n') : Plain branch :=
  ⟨branchNamePattern_head hpattern, fun h => hlast ((branchNamePattern_newline hpattern).mp h)⟩

theorem whitelisted_of_plain {params : Params} {argv : List Text} (hargv : params.argv = some argv)
    (hnul : ∀ arg ∈ argv, '\x00' ∉ arg) (hplain : params.PlainTexts) : Whitelisted argv := by
  cases params with
  | serviceRestart params =>
    cases hargv
    exact ⟨.restart params.serviceName, rfl, params.service_allowed, by
      simpa [Command.arguments] using plain_of_service params.service_allowed⟩
  | serviceStatus params =>
    cases hargv
    exact ⟨.isActive params.serviceName, rfl, params.service_allowed, by
      simpa [Command.arguments] using plain_of_service params.service_allowed⟩
  | serviceReload params =>
    simp only [Params.argv] at hargv
    split at hargv
    · cases hargv
      exact ⟨.daemonReload, rfl, trivial, by simp [Command.arguments]⟩
    · cases hargv
  | systemReboot params =>
    cases hargv
    -- A reason with a NUL would have kept the process from starting.
    have hreason : Plain params.reason := by
      rcases hplain with hmem | hplain
      · exact absurd hmem (hnul params.reason (by simp))
      · exact hplain
    by_cases hdelay : params.delaySeconds > 0
    · refine ⟨.shutdownIn (max 1 (params.delaySeconds / 60)).toNat params.reason, ?_, ?_, ?_⟩
      · simp [Command.argv, shutdownTime, hdelay]
      · simp only [Command.Allowed]
        omega
      · simpa [Command.arguments] using hreason
    · refine ⟨.shutdownNow params.reason, ?_, trivial, ?_⟩
      · simp [Command.argv, shutdownTime, hdelay]
      · simpa [Command.arguments] using hreason
  | systemDeploy params =>
    cases hargv
    exact ⟨.deploy params.targetBranch, rfl, trivial, by
      simpa [Command.arguments] using plain_of_branch params.branch_pattern hplain⟩

theorem whitelisted_last {argv : List Text} {last : Text} (h : Whitelisted (argv ++ [last])) : Plain last := by
  obtain ⟨command, hargv, -, hplain⟩ := h
  have hlast := congrArg List.getLast? hargv
  rw [List.getLast?_concat] at hlast
  cases command with
  | daemonReload =>
    rw [← Option.some.inj hlast]
    decide +kernel
  | restart service | isActive service => exact Option.some.inj hlast ▸ hplain _ (by simp [Command.arguments])
  | shutdownNow message | shutdownIn minutes message =>
    exact Option.some.inj hlast ▸ hplain _ (by simp [Command.arguments])
  | deploy branch => exact Option.some.inj hlast ▸ hplain _ (by simp [Command.arguments])

theorem spawn_isSome {argv : List Text} :
    (spawn host argv).isSome ↔ (∀ arg ∈ argv, '\x00' ∉ arg) ∧ (host argv).isSome := by
  unfold spawn
  split
  · rename_i hnul
    simp only [List.any_eq_true, List.contains_iff_mem] at hnul
    obtain ⟨arg, hmem, hin⟩ := hnul
    simp only [Option.isSome_none, Bool.false_eq_true, false_iff, not_and]
    exact fun h => absurd hin (h arg hmem)
  · rename_i hnul
    simp only [List.any_eq_true, List.contains_iff_mem, not_exists, not_and] at hnul
    exact (and_iff_right hnul).symm

theorem child_eq_some {params : Params} {argv : List Text} : params.child posix host = some argv ↔
    posix = true ∧ params.argv = some argv ∧ (∀ arg ∈ argv, '\x00' ∉ arg) ∧ (host argv).isSome := by
  unfold Params.child
  cases posix with
  | false => simp
  | true => simp [Option.filter_eq_some_iff, spawn_isSome]

theorem child_willingHost {params : Params} {argv : List Text} (hargv : params.argv = some argv)
    (hnul : ∀ arg ∈ argv, '\x00' ∉ arg) : params.child true willingHost = some argv :=
  child_eq_some.mpr ⟨rfl, hargv, hnul, rfl⟩

theorem plainTexts_of_whitelisted {params : Params}
    (h : ∀ argv, params.child true willingHost = some argv → Whitelisted argv) : params.PlainTexts := by
  cases params with
  | serviceRestart | serviceStatus | serviceReload => trivial
  | systemReboot params =>
    refine or_iff_not_imp_left.mpr fun hnul => ?_
    have hcommand : ∀ arg ∈ [lit "/sbin/shutdown", lit "-r", shutdownTime params.delaySeconds], '\x00' ∉ arg := by
      rw [List.forall_mem_cons, List.forall_mem_cons, List.forall_mem_singleton]
      exact ⟨by decide +kernel, by decide +kernel, nul_notMem_shutdownTime _⟩
    refine whitelisted_last (h _ (child_willingHost rfl (List.forall_mem_append.mpr ⟨hcommand, ?_⟩)))
    exact List.forall_mem_singleton.mpr hnul
  | systemDeploy params =>
    intro hlast
    have hcommand : ∀ arg ∈ [lit "/var/lib/palmanager/deploy-runner.sh"], '\x00' ∉ arg := by
      rw [List.forall_mem_singleton]
      decide +kernel
    have hplain : Plain params.targetBranch := by
      refine whitelisted_last (h _ (child_willingHost rfl (List.forall_mem_append.mpr ⟨hcommand, ?_⟩)))
      exact List.forall_mem_singleton.mpr (branchNamePattern_nul params.branch_pattern)
    exact hplain.2 (List.mem_of_getLast? hlast)

/-- **When a line runs only whitelisted commands.** Whatever the host answers, this holds exactly when the
reason of a reboot is plain or has a NUL, and the branch of a deployment does not end with a newline. -/
theorem line_runs_whitelisted_iff [Pydantic] (posix : Bool) (line : List UInt8) :
    (∀ (host : Host) (drains : Bool), RunsWhitelisted (serveLine posix host drains line)) ↔
      (posix = true → ∀ request, requestOf line = some request → request.2.PlainTexts) := by
  simp only [RunsWhitelisted, startedBy_serveLine]
  constructor
  · rintro h rfl request hrequest
    refine plainTexts_of_whitelisted fun argv hchild => ?_
    exact (h willingHost true).2 argv (by simp [hrequest, hchild])
  · intro h host drains
    refine ⟨Option.length_toList_le, fun argv hargv => ?_⟩
    obtain ⟨request, hrequest, hchild⟩ := Option.bind_eq_some_iff.mp (Option.mem_toList.mp hargv)
    obtain ⟨hposix, hargv, hnul, -⟩ := child_eq_some.mp hchild
    exact whitelisted_of_plain hargv hnul (h hposix request hrequest)

/-! ## A branch with a newline -/

def deployLine : List UInt8 :=
  lineBytes "\x7b\"id\": \"7\", \"method\": \"system.deploy\", \"params\": \x7b\"target_branch\": \"main\\n\"\x7d\x7d"

def deployDocument : Json :=
  .object [(lit "id", text "7"), (lit "method", text "system.deploy"),
    (lit "params", .object [(lit "target_branch", .str (lit "main" ++ ['\n']))])]

/-- The deployment script gets a branch with a newline at its end. -/
theorem deploys_branch_with_newline : ¬ ∀ (_ : Pydantic) (line : List UInt8) (host : Host) (drains : Bool),
    RunsWhitelisted (serveLine true host drains line) := by
  intro h
  let _ := pydanticOf deployLine deployDocument
  have hstarted : startedBy (serveLine true willingHost true deployLine) =
      [[lit "/var/lib/palmanager/deploy-runner.sh"] ++ [lit "main" ++ ['\n']]] := by
    rw [startedBy_serveLine]
    decide +kernel
  have hplain := whitelisted_last ((h _ deployLine willingHost true).2 _ (by rw [hstarted]; exact List.mem_cons_self))
  exact absurd hplain (by decide +kernel)

end Palworld.Supervisor

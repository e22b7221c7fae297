import Palworld.Lib.IpAddress
import Palworld.Lib.PyRepr
import Palworld.Lib.Str

/-!
# The target of a ping

`validate_probe_target` of `net_diagnostics.py`, and the command that `execute_ping_probes`
makes of its answer. An address or a host name is safe as an argument. The scope behind
an IPv6 address is not looked at.
-/

open Lib

namespace Palworld.Network

/-! ## Host names -/

/-- `[a-zA-Z0-9-]`. -/
def isLabelChar (c : Char) : Bool := c.isAlphanum || c == '-'

/-- `[a-zA-Z0-9](?:[a-zA-Z0-9-]{0,61}[a-zA-Z0-9])?`. -/
def isLabel : Text → Bool
  | [] => false
  | [c] => c.isAlphanum
  | c :: rest =>
    c.isAlphanum && rest.dropLast.all isLabelChar && decide (rest.dropLast.length ≤ 61) && rest.getLast?.any Char.isAlphanum

/-- Labels with dots between them. -/
def isHostname (t : Text) : Bool := (t.splitOn '.').all isLabel

/-- `_HOSTNAME_REGEX.match`. The `$` of the pattern also stands before a newline at the end. -/
def hostnameRegex (t : Text) : Bool := isHostname t || (t.getLast? == some '\n' && isHostname t.dropLast)

/-! ## The validator -/

/-- What a caller may pass: a string, or an object of another type. -/
inductive ProbeTarget
  | str (target : Text)
  | other (typeName : Text)

inductive ProbeError
  | notString (typeName : Text)
  | empty
  | hyphen (target : Text)
  | invalid (target : Text)
  deriving DecidableEq

def ProbeError.message (isPrintable : Char → Bool) : ProbeError → Text
  | .notString typeName => lit "Probe target must be a string, got " ++ typeName
  | .empty => lit "Probe target cannot be empty or whitespace-only."
  | .hyphen target =>
    lit "Probe target cannot start with a hyphen/flag: " ++ reprStr isPrintable (PyStr.ofText target)
  | .invalid target =>
    lit "Invalid probe target format (must be valid IP address or hostname): " ++
      reprStr isPrintable (PyStr.ofText target)

def validateProbeTarget : ProbeTarget → Except ProbeError Text
  | .other typeName => .error (.notString typeName)
  | .str target =>
    let clean := strip target
    if clean = [] then .error .empty
    else if clean.head? = some '-' then .error (.hyphen target)
    else if isIpAddress clean then .ok clean
    else if clean.length ≤ 253 ∧ hostnameRegex clean = true then .ok clean
    else .error (.invalid target)

/-- The command of `execute_ping_probes`. There is none for a target that is rejected. -/
def pingCommand (posix : Bool) (pingBin : Text) (count : Int) (target : ProbeTarget) : Option (List Text) :=
  (validateProbeTarget target).toOption.map fun target =>
    let count := lit (toString (max 1 (min count 20)))
    if posix then [pingBin, lit "-c", count, lit "-W", lit "1", target]
    else [lit "ping", lit "-n", count, lit "-w", lit "1000", target]

/-! ## What is safe to pass on -/

/-- `[A-Za-z0-9.:-]`. -/
def isInertChar (c : Char) : Bool := c.isAlphanum || c == '.' || c == ':' || c == '-'

structure Inert (v : Text) : Prop where
  chars : ∀ c ∈ v, isInertChar c = true
  noFlag : v.head? ≠ some '-'

/-- An IPv6 address and a scope behind it. -/
def Scoped (t : Text) : Prop :=
  ∃ address scope, t = address ++ '%' :: scope ∧ isIPv6Address address = true ∧ scope ≠ [] ∧ '%' ∉ scope ∧ '/' ∉ scope

variable {t v : Text} {c : Char}

theorem validate_cases {target : Text} (h : validateProbeTarget (.str target) = .ok v) :
    v = strip target ∧ v.head? ≠ some '-' ∧ (isIpAddress v = true ∨ hostnameRegex v = true) := by
  unfold validateProbeTarget at h
  dsimp only at h
  split at h
  · cases h
  split at h
  · cases h
  rename_i hflag
  split at h
  · rename_i haddress
    cases h
    exact ⟨rfl, hflag, Or.inl haddress⟩
  split at h
  · rename_i hname
    cases h
    exact ⟨rfl, hflag, Or.inr hname.2⟩
  · cases h

theorem isInertChar_of_isLabelChar (h : isLabelChar c = true) : isInertChar c = true := by
  simp only [isLabelChar, isInertChar, Bool.or_eq_true] at h ⊢
  tauto

theorem isLabel_chars (h : isLabel t = true) : ∀ c ∈ t, isLabelChar c = true := by
  have halnum : ∀ c : Char, c.isAlphanum = true → isLabelChar c = true := by
    intro c hc
    rw [isLabelChar, hc]
    rfl
  unfold isLabel at h
  split at h
  · cases h
  · rename_i c
    rintro d hd
    rw [List.mem_singleton.mp hd]
    exact halnum c h
  · rename_i c rest _
    simp only [Bool.and_eq_true, List.all_eq_true, Option.any_eq_true] at h
    obtain ⟨⟨⟨hfirst, hmiddle⟩, _⟩, last, hlast, hend⟩ := h
    obtain ⟨middle, rfl⟩ := List.getLast?_eq_some_iff.mp hlast
    rw [List.dropLast_concat] at hmiddle
    intro d hd
    rw [List.mem_cons, List.mem_append, List.mem_singleton] at hd
    rcases hd with rfl | hd | rfl
    · exact halnum d hfirst
    · exact hmiddle d hd
    · exact halnum d hend

theorem isHostname_chars (h : isHostname t = true) : ∀ c ∈ t, isInertChar c = true := by
  intro c hc
  rcases @mem_splitOn t c '.' hc with hdot | ⟨part, hpart, hmem⟩
  · rw [hdot]
    decide
  · exact isInertChar_of_isLabelChar (isLabel_chars (List.all_eq_true.mp h part hpart) c hmem)

theorem isInertChar_of_isHexDigit (h : isHexDigit c = true) : isInertChar c = true := by
  have halnum : c.isAlphanum = true := by
    simp only [isHexDigit, Bool.or_eq_true, Bool.and_eq_true, decide_eq_true_eq, Char.isDigit_iff_toNat, charLe_iff_toNat,
      Char.reduceToNat] at h
    rw [isAlphanum_iff_toNat]
    omega
  rw [isInertChar, halnum]
  rfl

theorem isIPv6Address_inert (h : isIPv6Address t = true) : ∀ c ∈ t, isInertChar c = true := by
  intro c hc
  rcases isIPv6Address_chars h c hc with hhex | rfl | rfl
  · exact isInertChar_of_isHexDigit hhex
  · rfl
  · rfl

theorem isIPv4_inert {n : Nat} (h : parseIPv4 t = some n) : ∀ c ∈ t, isInertChar c = true := by
  intro c hc
  rcases parseIPv4_chars h c hc with hdigit | rfl
  · exact isInertChar_of_isHexDigit (isHexDigit_of_isDigit hdigit)
  · rfl

theorem isIPv6_scope {address scope : Text} (haddress : isIPv6Address address = true) :
    isIPv6 (address ++ '%' :: scope) = true ↔ scope ≠ [] ∧ '%' ∉ scope ∧ '/' ∉ scope := by
  have hinert := isIPv6Address_inert haddress
  have hpercent : '%' ∉ address := fun hmem => absurd (hinert _ hmem) (by decide)
  have hslash : '/' ∉ address := fun hmem => absurd (hinert _ hmem) (by decide)
  rw [isIPv6, takeWhile_ne_stop hpercent, dropWhile_ne_stop hpercent, haddress]
  simp [hslash]
  tauto

/-- An IPv6 address has a scope, or nothing behind it. -/
theorem isIPv6_cases (h : isIPv6 t = true) : isIPv6Address t = true ∨ Scoped t := by
  have haddress : isIPv6Address (t.takeWhile (· ≠ '%')) = true := by
    simp only [isIPv6, Bool.and_eq_true] at h
    exact h.1.2
  have hjoin := List.takeWhile_append_dropWhile (p := (· ≠ '%')) (l := t)
  cases hrest : t.dropWhile (· ≠ '%') with
  | nil =>
    rw [hrest, List.append_nil] at hjoin
    exact Or.inl (hjoin ▸ haddress)
  | cons c scope =>
    have hpercent : c = '%' := by
      have hstop := List.head?_dropWhile_not (· ≠ '%') t
      rw [hrest] at hstop
      simpa using hstop
    rw [hrest, hpercent] at hjoin
    rw [← hjoin, isIPv6_scope haddress] at h
    exact Or.inr ⟨_, scope, hjoin.symm, haddress, h⟩

/-- A text that was stripped does not end with a newline. -/
theorem strip_newline (t : Text) : (strip t).getLast? ≠ some '\n' := by
  intro hlast
  have hspace := List.head?_dropWhile_not isSpace (lstrip t).reverse
  rw [strip, rstrip, List.getLast?_reverse] at hlast
  rw [hlast] at hspace
  exact absurd hspace (by decide)

/-- No answer can be read as a flag. -/
theorem validate_noFlag {target : ProbeTarget} (h : validateProbeTarget target = .ok v) : v.head? ≠ some '-' := by
  cases target with
  | str target => exact (validate_cases h).2.1
  | other typeName => cases h

/-- The command of a probe ends with a target that is no flag. -/
theorem pingCommand_target {posix : Bool} {pingBin : Text} {count : Int} {target : ProbeTarget} {command : List Text}
    (h : pingCommand posix pingBin count target = some command) :
    ∃ v, validateProbeTarget target = .ok v ∧ command.getLast? = some v ∧ v.head? ≠ some '-' := by
  unfold pingCommand at h
  cases hv : validateProbeTarget target with
  | error error =>
    rw [hv] at h
    cases h
  | ok v =>
    rw [hv] at h
    cases posix <;> cases h <;> exact ⟨v, rfl, rfl, validate_noFlag hv⟩

/-- **When a probe target is inert.** What the validator returns for a string has only the characters of
addresses and host names, and is no flag, exactly when the trimmed string is no IPv6 address with a scope. -/
theorem validate_inert_iff (target : Text) :
    (∀ v, validateProbeTarget (.str target) = .ok v → Inert v) ↔ ¬ Scoped (strip target) := by
  constructor
  · rintro hinert ⟨address, scope, hclean, haddress, hscope⟩
    have hne : address ≠ [] := by
      rintro rfl
      cases haddress
    have hhead : (strip target).head? ≠ some '-' := by
      obtain ⟨c, rest, rfl⟩ := List.exists_cons_of_ne_nil hne
      have hfirst := isIPv6Address_chars haddress c List.mem_cons_self
      rw [hclean]
      rintro hflag
      cases hflag
      exact absurd hfirst (by decide)
    have haccepts : validateProbeTarget (.str target) = .ok (strip target) := by
      have hsix := (isIPv6_scope haddress).mpr hscope
      rw [← hclean] at hsix
      have hclean' : strip target ≠ [] := by
        rw [hclean]
        simp
      simp only [validateProbeTarget, if_neg hclean', if_neg hhead, isIpAddress, hsix, Bool.or_true, if_true]
    have hpercent : '%' ∈ strip target := by
      rw [hclean]
      simp
    exact absurd ((hinert _ haccepts).chars _ hpercent) (by decide)
  · intro hscope v hv
    obtain ⟨rfl, hflag, haccepted⟩ := validate_cases hv
    refine ⟨?_, hflag⟩
    rcases haccepted with haddress | hname
    · rw [isIpAddress, Bool.or_eq_true, Option.isSome_iff_exists] at haddress
      rcases haddress with ⟨n, hn⟩ | hsix
      · exact isIPv4_inert hn
      · exact isIPv6Address_inert ((isIPv6_cases hsix).resolve_right hscope)
    · rw [hostnameRegex, Bool.or_eq_true, Bool.and_eq_true, beq_iff_eq] at hname
      rcases hname with hname | ⟨hnewline, _⟩
      · exact isHostname_chars hname
      · exact absurd hnewline (strip_newline target)

/-- The scope of an address is passed on whatever it is. -/
theorem scope_passed_on : ¬ ∀ target v, validateProbeTarget (.str target) = .ok v → Inert v := by
  intro h
  have haccepts : validateProbeTarget (.str (lit "fe80::1%$(id)")) = .ok (lit "fe80::1%$(id)") := by decide +kernel
  exact absurd ((h _ _ haccepts).chars '$' (by decide)) (by decide)

end Palworld.Network

import Palworld.Lib.AtomicFile

/-!
# Staging a certificate and its key

`stage_tls_bundle` writes `fullchain.pem` and then `privkey.pem`, each of them atomically. The pair is
not: between the two replacements the new certificate stands beside the old key.
-/

open Lib

namespace Palworld.Tls

inductive TlsFile
  | fullchain
  | privkey
  deriving DecidableEq

abbrev TlsStore := TlsFile → Option Bytes

structure StageIo where
  makesDir : Bool
  fullchain : WriteIo
  privkey : WriteIo

def StageIo.returns (io : StageIo) : Bool := io.makesDir && io.fullchain.returns && io.privkey.returns

/-- The calls of one staging that take effect, and whether it returns. -/
def stageTlsBundle (io : StageIo) (certPem keyPem : Bytes) : List (FileOp TlsFile) × Bool :=
  if !io.makesDir then ([], false)
  else
    let fullchain := atomicWriteFile io.fullchain .fullchain certPem
    if !fullchain.2 then fullchain
    else
      let privkey := atomicWriteFile io.privkey .privkey keyPem
      (fullchain.1 ++ privkey.1, privkey.2)

def pairOf (certPem keyPem : Bytes) : TlsStore
  | .fullchain => some certPem
  | .privkey => some keyPem

/-- What is found after a staging that stopped behind `stop` of its calls. -/
def foundAfter (io : StageIo) (certPem keyPem : Bytes) (old : TlsStore) (stop : Nat) (loss : Option (TlsFile → Bool)) :
    TlsStore :=
  ((Disk.settled old).run ((stageTlsBundle io certPem keyPem).1.take stop)).found loss

/-- The staging got past the replacement of the file. -/
def Replaced (io : StageIo) (stop : Nat) : TlsFile → Prop
  | .fullchain => io.makesDir = true ∧ io.fullchain.returns = true ∧ io.fullchain.replacesAt ≤ stop
  | .privkey => io.makesDir = true ∧ io.fullchain.returns = true ∧ io.privkey.returns = true ∧
      io.fullchain.calls + io.privkey.replacesAt ≤ stop

/-- After a loss of power, the new name is there: by itself, or because a flush of the directory followed. -/
def Survives (io : StageIo) (stop : Nat) (loss : Option (TlsFile → Bool)) (file : TlsFile) : Prop :=
  match loss with
  | none => True
  | some kept =>
    kept file = true ∨
    (file = .fullchain ∧ io.fullchain.syncsDir = true ∧ io.fullchain.replacesAt < stop) ∨
    (io.privkey.returns = true ∧ io.privkey.syncsDir = true ∧ io.fullchain.calls + io.privkey.replacesAt < stop)

def staged (io : StageIo) (certPem keyPem : Bytes) (old : TlsStore) : TlsStore :=
  foundAfter io certPem keyPem old (stageTlsBundle io certPem keyPem).1.length none

section Staging

variable {io : StageIo} {certPem keyPem : Bytes} {old : TlsStore} {stop : Nat} {loss : Option (TlsFile → Bool)} {file : TlsFile}

theorem installs_fullchain {d : Disk TlsFile} : Installs .fullchain certPem d (stageTlsBundle io certPem keyPem).1 := by
  simp only [stageTlsBundle]
  split_ifs
  · trivial
  · exact installs_atomicWriteFile fun _ => rfl
  · rw [installs_append]
    exact ⟨installs_atomicWriteFile fun _ => rfl, installs_atomicWriteFile fun h => by cases h⟩

theorem installs_privkey {d : Disk TlsFile} : Installs .privkey keyPem d (stageTlsBundle io certPem keyPem).1 := by
  simp only [stageTlsBundle]
  split_ifs
  · trivial
  · exact installs_atomicWriteFile fun h => by cases h
  · rw [installs_append]
    exact ⟨installs_atomicWriteFile (fun h => by cases h), installs_atomicWriteFile fun _ => rfl⟩

theorem take_staged (hdir : io.makesDir = true) (hcert : io.fullchain.returns = true) :
    (stageTlsBundle io certPem keyPem).1.take stop =
      (atomicWriteFile io.fullchain .fullchain certPem).1.take stop ++
        (atomicWriteFile io.privkey .privkey keyPem).1.take (stop - io.fullchain.calls) := by
  have hreturns : (atomicWriteFile io.fullchain TlsFile.fullchain certPem).2 = true := by
    rw [atomicWriteFile_returns, hcert]
  unfold stageTlsBundle
  simp only [hdir, hreturns, Bool.not_true, Bool.false_eq_true, if_false, List.take_append,
    length_atomicWriteFile hcert]

theorem not_replaced (h : io.makesDir = false ∨ io.fullchain.returns = false) :
    .replace file ∉ (stageTlsBundle io certPem keyPem).1.take stop := by
  unfold stageTlsBundle
  by_cases hdir : io.makesDir = true
  · have hcert : io.fullchain.returns = false := by simpa [hdir] using h
    simp only [hdir, atomicWriteFile_returns, hcert, Bool.not_true, Bool.not_false, Bool.false_eq_true, if_false, if_true]
    exact take_raised hcert _ (.inl rfl)
  · simp [hdir]

theorem replacesAt_pos (write : WriteIo) : 0 < write.replacesAt := by
  unfold WriteIo.replacesAt
  split_ifs <;> omega

theorem inEffect_iff (certPem keyPem : Bytes) :
    InEffect loss file ((stageTlsBundle io certPem keyPem).1.take stop) ↔
      Replaced io stop file ∧ Survives io stop loss file := by
  by_cases hfails : io.makesDir = false ∨ io.fullchain.returns = false
  · have hnot : ¬ Replaced io stop file := by
      cases file <;> unfold Replaced <;> rcases hfails with h | h <;> simp [h]
    simp only [InEffect, not_replaced hfails, hnot, false_and]
  · push Not at hfails
    have hdir : io.makesDir = true := by simpa using hfails.1
    have hcert : io.fullchain.returns = true := by simpa using hfails.2
    have hkey := replacesAt_pos io.privkey
    rw [take_staged hdir hcert]
    unfold InEffect Survives
    cases file <;> cases loss <;>
      simp only [synced_append, List.mem_append, replace_mem_take, syncDir_mem_take, synced_take, Replaced, hdir, hcert,
        true_and, reduceCtorEq, false_and, and_false, or_false, false_or, and_true] <;> grind

theorem found_fullchain : foundAfter io certPem keyPem old stop loss .fullchain =
    if InEffect loss .fullchain ((stageTlsBundle io certPem keyPem).1.take stop) then some certPem else old .fullchain :=
  found_run (installs_take installs_fullchain stop)

theorem found_privkey : foundAfter io certPem keyPem old stop loss .privkey =
    if InEffect loss .privkey ((stageTlsBundle io certPem keyPem).1.take stop) then some keyPem else old .privkey :=
  found_run (installs_take installs_privkey stop)

theorem store_ext {a b : TlsStore} : a = b ↔ a .fullchain = b .fullchain ∧ a .privkey = b .privkey := by
  refine ⟨fun h => h ▸ ⟨rfl, rfl⟩, fun ⟨hcert, hkey⟩ => funext fun file => ?_⟩
  cases file <;> assumption

theorem stageTlsBundle_returns : (stageTlsBundle io certPem keyPem).2 = io.returns := by
  unfold stageTlsBundle StageIo.returns
  cases hdir : io.makesDir <;> cases hcert : io.fullchain.returns <;> simp [atomicWriteFile_returns, hcert]

theorem replacesAt_le_calls (write : WriteIo) : write.replacesAt ≤ write.calls := by
  unfold WriteIo.calls
  split_ifs <;> omega

theorem staged_of_returns (h : io.returns = true) : staged io certPem keyPem old = pairOf certPem keyPem := by
  simp only [StageIo.returns, Bool.and_eq_true] at h
  obtain ⟨⟨hdir, hcert⟩, hkey⟩ := h
  have hlength : (stageTlsBundle io certPem keyPem).1.length = io.fullchain.calls + io.privkey.calls := by
    unfold stageTlsBundle
    simp [hdir, hcert, atomicWriteFile_returns, length_atomicWriteFile hcert, length_atomicWriteFile hkey]
  have hcalls := replacesAt_le_calls io.fullchain
  have hcalls' := replacesAt_le_calls io.privkey
  unfold staged
  rw [store_ext, found_fullchain, found_privkey, hlength]
  constructor
  · apply if_pos
    rw [inEffect_iff]
    exact ⟨⟨hdir, hcert, by omega⟩, trivial⟩
  · apply if_pos
    rw [inEffect_iff]
    exact ⟨⟨hdir, hcert, hkey, by omega⟩, trivial⟩

end Staging

/-- The pair on disk is the old one or the new one exactly if both replacements are in effect or neither is. -/
theorem staged_pair_matches_iff (io : StageIo) (certPem keyPem : Bytes) (old : TlsStore) (stop : Nat)
    (loss : Option (TlsFile → Bool)) :
    (foundAfter io certPem keyPem old stop loss = old ∨
      foundAfter io certPem keyPem old stop loss = pairOf certPem keyPem) ↔
    ((Replaced io stop .fullchain ∧ Survives io stop loss .fullchain ↔
        Replaced io stop .privkey ∧ Survives io stop loss .privkey) ∨
      old .fullchain = some certPem ∨ old .privkey = some keyPem) := by
  rw [← inEffect_iff certPem keyPem, ← inEffect_iff certPem keyPem]
  simp only [store_ext, found_fullchain, found_privkey, pairOf]
  by_cases hcert : InEffect loss .fullchain ((stageTlsBundle io certPem keyPem).1.take stop) <;>
    by_cases hkey : InEffect loss .privkey ((stageTlsBundle io certPem keyPem).1.take stop) <;>
    simp [hcert, hkey, eq_comm, or_comm]

def everyCall : WriteIo := ⟨true, true, true, true, true, true, true⟩

/-- The disk is full when the staging file of the key is to be written: the new certificate keeps the old key. -/
theorem new_certificate_beside_old_key :
    ¬ ∀ (io : StageIo) (certPem keyPem : Bytes) (old : TlsStore) (stop : Nat) (loss : Option (TlsFile → Bool)),
      foundAfter io certPem keyPem old stop loss = old ∨
        foundAfter io certPem keyPem old stop loss = pairOf certPem keyPem := by
  intro h
  have hpair := h ⟨true, everyCall, { everyCall with writes := false }⟩ [2] [2] (pairOf [1] [1]) 100 none
  simp only [store_ext] at hpair
  exact absurd hpair (by decide)

end Palworld.Tls

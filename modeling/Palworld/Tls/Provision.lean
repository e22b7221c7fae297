import Palworld.Tls.Certificate

/-!
# Provisioning in two tiers

`provision_tls_certificates` asks the certificate authority first. Where that fails, it puts
a self-signed certificate into the directory, whatever was there before.
-/

open Lib

namespace Palworld.Tls

inductive TLSProvisionMode
  | acmeLetsencrypt
  | selfSignedFallback
  | existingValid
  deriving DecidableEq

structure TLSProvisionResult where
  success : Bool
  mode : TLSProvisionMode
  domain : Text
  fullchainPath : Text
  privkeyPath : Text
  daysRemaining : Int
  message : Text
  error : Option Text

structure ACMECertificateResult where
  success : Bool
  fullchainPem : Option Bytes
  error : Option Text

/-- What `perform_dns01_flow` does. -/
inductive AcmeOutcome
  | returns (result : ACMECertificateResult)
  | raises
  | cancelled                    -- the task is cancelled meanwhile

/-- The fullchain of a result that counts as a success. -/
def ACMECertificateResult.issued (result : ACMECertificateResult) : Option Bytes :=
  if result.success then result.fullchainPem.filter (· ≠ []) else none

def AcmeOutcome.Fails : AcmeOutcome → Prop
  | .returns result => result.issued = none
  | .raises | .cancelled => True

structure ProvisionIo (Key : Type) where
  look : Look
  key : Option Key                 -- `generate_private_key`
  acme : AcmeOutcome
  acmeStage : StageIo
  signedAt : Int                   -- the clock of the fallback certificate
  fallbackStage : StageIo

inductive Raised
  | exception
  | cancelled
  deriving DecidableEq

structure Provisioned where
  result : Except Raised TLSProvisionResult
  store : TlsStore
  attempted : Bool                 -- `perform_dns01_flow` was called

section Provisioning

variable {Key : Type} (x509 : X509 Key) (domain token : Text) (force : Bool) (dir : Text) (io : ProvisionIo Key)

def install (stage : StageIo) (mode : TLSProvisionMode) (days : Int) (message : Text) (certPem keyPem : Bytes)
    (store : TlsStore) : Except Raised TLSProvisionResult × TlsStore :=
  (if (stageTlsBundle stage certPem keyPem).2 then
    .ok ⟨true, mode, domain, joinPath dir fullchainName, joinPath dir privkeyName, days, message, none⟩
  else .error .exception, staged stage certPem keyPem store)

def selfSignedFallback (key : Key) (store : TlsStore) (attempted : Bool) : Provisioned :=
  match x509.selfSignedPem key domain io.signedAt with
  | none => ⟨.error .exception, store, attempted⟩
  | some certPem =>
    let installed := install domain dir io.fallbackStage .selfSignedFallback 365
      (lit "Provisioned self-signed fallback certificate.") certPem (x509.keyPem key) store
    ⟨installed.1, installed.2, attempted⟩

def renew (key : Key) : Provisioned :=
  if token ≠ [] ∧ strip token ≠ [] then
    match io.acme with
    | .cancelled => ⟨.error .cancelled, io.look.files, true⟩
    | .raises => selfSignedFallback x509 domain dir io key io.look.files true
    | .returns result =>
      match result.issued with
      | none => selfSignedFallback x509 domain dir io key io.look.files true
      | some fullchainPem =>
        let installed := install domain dir io.acmeStage .acmeLetsencrypt 90
          (lit "Provisioned Let's Encrypt certificate via ACME DNS-01.") fullchainPem (x509.keyPem key) io.look.files
        match installed with
        | (.ok result, store) => ⟨.ok result, store, true⟩
        | (.error _, store) => selfSignedFallback x509 domain dir io key store true
  else selfSignedFallback x509 domain dir io key io.look.files false

def provisionTlsCertificates : Provisioned :=
  match getTlsCertificateStatus x509 dir (some domain) io.look with
  | none => ⟨.error .exception, io.look.files, false⟩
  | some status =>
    if !force ∧ status.isValid ∧ renewalThresholdDays < status.daysRemaining then
      ⟨.ok ⟨true, .existingValid, domain, status.fullchainPath, status.privkeyPath, status.daysRemaining,
        lit "Existing certificate is valid and not near expiry.", none⟩, io.look.files, false⟩
    else
      match io.key with
      | none => ⟨.error .exception, io.look.files, false⟩
      | some key => renew x509 domain token dir io key

end Provisioning

section Spec

variable {Key : Type} {x509 : X509 Key} {domain token : Text} {force : Bool} {dir : Text} {io : ProvisionIo Key} {key : Key}
  {store : TlsStore} {attempted : Bool} {result : TLSProvisionResult}

/-- There is nothing to do: the certificate is valid and not near its expiry. -/
def Current (x509 : X509 Key) (look : Look) : Prop := ∃ cert, Finds x509 look cert ∧ cert.NotNearExpiry look.now

theorem current_iff {status : TLSCertificateStatus} {domain : Option Text} {look : Look}
    (h : getTlsCertificateStatus x509 dir domain look = some status) :
    (status.isValid = true ∧ renewalThresholdDays < status.daysRemaining) ↔ Current x509 look := by
  rcases status_cases h with ⟨cert, sans, hfinds, rfl⟩ | ⟨hnone, message, rfl⟩
  · rw [valid_beyond_threshold_iff]
    constructor
    · intro hfar
      exact ⟨cert, hfinds, hfar⟩
    · rintro ⟨cert', hfinds', hfar⟩
      rwa [finds_unique hfinds hfinds']
  · constructor
    · rintro ⟨hvalid, -⟩
      cases hvalid
    · rintro ⟨cert, hfinds, -⟩
      exact absurd hfinds (hnone cert)

/-- A call that finds a current certificate leaves it alone, unless it is forced. -/
theorem provision_current (domain token dir : Text) (hforce : force = false) (h : Current x509 io.look) :
    ∃ status, getTlsCertificateStatus x509 dir (some domain) io.look = some status ∧
      provisionTlsCertificates x509 domain token force dir io =
        ⟨.ok ⟨true, .existingValid, domain, status.fullchainPath, status.privkeyPath, status.daysRemaining,
          lit "Existing certificate is valid and not near expiry.", none⟩, io.look.files, false⟩ := by
  obtain ⟨cert, hfinds, hfar⟩ := h
  obtain ⟨sans, hstatus⟩ := status_of_finds dir (some domain) hfinds
  refine ⟨_, hstatus, ?_⟩
  have hcurrent := (current_iff hstatus).mpr ⟨cert, hfinds, hfar⟩
  unfold provisionTlsCertificates
  simp [hstatus, hforce, hcurrent]

theorem provision_not_current (h : ¬ (force = false ∧ Current x509 io.look))
    (hreturns : (provisionTlsCertificates x509 domain token force dir io).result = .ok result) :
    ∃ key, io.key = some key ∧
      provisionTlsCertificates x509 domain token force dir io = renew x509 domain token dir io key := by
  unfold provisionTlsCertificates at hreturns ⊢
  cases hstatus : getTlsCertificateStatus x509 dir (some domain) io.look with
  | none => simp [hstatus] at hreturns
  | some status =>
    have hgoes : ¬ ((!force) = true ∧ status.isValid = true ∧ renewalThresholdDays < status.daysRemaining) := by
      rw [current_iff hstatus]
      simpa using h
    cases hkey : io.key with
    | none => simp only [hstatus, if_neg hgoes, hkey, reduceCtorEq] at hreturns
    | some key => exact ⟨key, rfl, by simp only [hgoes, if_false]⟩

theorem fallback_returns (h : (selfSignedFallback x509 domain dir io key store attempted).result = .ok result) :
    result.mode = .selfSignedFallback ∧ ∃ certPem, x509.selfSignedPem key domain io.signedAt = some certPem ∧
      (selfSignedFallback x509 domain dir io key store attempted).store = pairOf certPem (x509.keyPem key) := by
  unfold selfSignedFallback at h ⊢
  cases hsigned : x509.selfSignedPem key domain io.signedAt with
  | none => simp [hsigned] at h
  | some certPem =>
    simp only [hsigned, install] at h ⊢
    split at h
    · rename_i hstaged
      cases h
      rw [stageTlsBundle_returns] at hstaged
      exact ⟨rfl, certPem, rfl, staged_of_returns hstaged⟩
    · cases h

theorem install_returns {stage : StageIo} {mode : TLSProvisionMode} {days : Int} {message : Text} {certPem keyPem : Bytes}
    (h : (install domain dir stage mode days message certPem keyPem store).1 = .ok result) :
    (install domain dir stage mode days message certPem keyPem store).2 = pairOf certPem keyPem := by
  unfold install at h ⊢
  rw [stageTlsBundle_returns] at h
  split at h
  · exact staged_of_returns ‹_›
  · cases h

def Provisioned.HoldsPair (done : Provisioned) (x509 : X509 Key) (key : Key) : Prop :=
  ∀ result, done.result = .ok result → ∃ certPem, done.store = pairOf certPem (x509.keyPem key)

theorem fallback_holdsPair : (selfSignedFallback x509 domain dir io key store attempted).HoldsPair x509 key := by
  intro result hreturns
  obtain ⟨-, certPem, -, hstore⟩ := fallback_returns hreturns
  exact ⟨certPem, hstore⟩

theorem renew_holdsPair : (renew x509 domain token dir io key).HoldsPair x509 key := by
  unfold renew
  split
  · split
    · rintro result ⟨⟩
    · exact fallback_holdsPair
    · split
      · exact fallback_holdsPair
      · rename_i fullchainPem _
        dsimp only
        split
        · rename_i hinstall
          intro result hreturns
          have hstore := install_returns (congrArg Prod.fst hinstall)
          rw [hinstall] at hstore
          exact ⟨fullchainPem, hstore⟩
        · exact fallback_holdsPair
  · exact fallback_holdsPair

/-- A call that returns with a new certificate has put it in place, with the key that it generated. -/
theorem provision_issues (h : (provisionTlsCertificates x509 domain token force dir io).result = .ok result)
    (hmode : result.mode ≠ .existingValid) : ∃ key certPem, io.key = some key ∧
      (provisionTlsCertificates x509 domain token force dir io).store = pairOf certPem (x509.keyPem key) := by
  by_cases hcurrent : force = false ∧ Current x509 io.look
  · obtain ⟨status, -, hprovision⟩ := provision_current domain token dir hcurrent.1 hcurrent.2
    rw [hprovision] at h
    cases h
    exact absurd rfl hmode
  · obtain ⟨key, hkey, hrenew⟩ := provision_not_current hcurrent h
    rw [hrenew] at h ⊢
    obtain ⟨certPem, hstore⟩ := renew_holdsPair result h
    exact ⟨key, certPem, hkey, hstore⟩

/-- The attempt comes to nothing: no certificate was issued, or it could not be staged. -/
def ProvisionIo.AttemptFails (io : ProvisionIo Key) : Prop := io.acme.Fails ∨ io.acmeStage.returns = false

theorem renew_failed (htoken : strip token ≠ []) (hfails : io.AttemptFails)
    (h : (renew x509 domain token dir io key).result = .ok result) :
    ∃ store, renew x509 domain token dir io key = selfSignedFallback x509 domain dir io key store true := by
  have hgiven : token ≠ [] := by
    rintro rfl
    exact htoken rfl
  unfold renew at h ⊢
  simp only [hgiven, htoken, ne_eq, not_false_eq_true, and_self, if_true] at h ⊢
  cases hacme : io.acme with
  | cancelled => simp [hacme] at h
  | raises => exact ⟨_, rfl⟩
  | returns acmeResult =>
    cases hissued : acmeResult.issued with
    | none =>
      simp only [hissued]
      exact ⟨_, rfl⟩
    | some fullchainPem =>
      have hstage : io.acmeStage.returns = false := by
        rcases hfails with hfails | hstage
        · rw [hacme] at hfails
          exact absurd (hfails.symm.trans hissued) (by simp)
        · exact hstage
      simp only [hissued, install, stageTlsBundle_returns, hstage, Bool.false_eq_true, if_false]
      exact ⟨_, rfl⟩

end Spec

/-- **What a failing attempt leaves.** A current certificate and its key stay in place, unless the call is
forced. Otherwise a call that returns has put a self-signed certificate there, with its own key. -/
theorem failed_attempt_keeps_current {Key : Type} (x509 : X509 Key) (domain token : Text) (force : Bool) (dir : Text)
    (io : ProvisionIo Key) (htoken : strip token ≠ []) (hfails : io.AttemptFails) :
    (force = false ∧ Current x509 io.look →
      (provisionTlsCertificates x509 domain token force dir io).store = io.look.files) ∧
    (¬ (force = false ∧ Current x509 io.look) →
      ∀ result, (provisionTlsCertificates x509 domain token force dir io).result = .ok result →
        result.mode = .selfSignedFallback ∧
        ∃ key certPem, io.key = some key ∧ x509.selfSignedPem key domain io.signedAt = some certPem ∧
          (provisionTlsCertificates x509 domain token force dir io).store = pairOf certPem (x509.keyPem key)) := by
  constructor
  · rintro ⟨hforce, hcurrent⟩
    obtain ⟨status, -, hprovision⟩ := provision_current domain token dir hforce hcurrent
    rw [hprovision]
  · intro hgoes result hresult
    obtain ⟨key, hkey, hrenew⟩ := provision_not_current hgoes hresult
    rw [hrenew] at hresult ⊢
    obtain ⟨store, hfallback⟩ := renew_failed htoken hfails hresult
    rw [hfallback] at hresult ⊢
    obtain ⟨hmode, certPem, hsigned, hstore⟩ := fallback_returns hresult
    exact ⟨hmode, key, certPem, hkey, hsigned, hstore⟩

section Example

def everyStage : StageIo := ⟨true, everyCall, everyCall⟩

/-- An issued certificate with twenty days left is looked at, and the authority cannot be reached. -/
def unreachable : ProvisionIo Bytes where
  look := ⟨pairOf issuedPem [1], true, issuedCertificate.notValidBefore⟩
  key := some [2]
  acme := .raises
  acmeStage := everyStage
  signedAt := signedCertificate.notValidBefore
  fallbackStage := everyStage

theorem unreachable_finds : Finds x509Sample unreachable.look issuedCertificate where
  readable := rfl
  loads := ⟨issuedPem, rfl, by simp [x509Sample]⟩
  key := rfl
  wellFormed := nofun

theorem failed_attempt_keeps_current_unreachable :
    ∃ key certPem, unreachable.key = some key ∧
      x509Sample.selfSignedPem key (lit "pal.duckdns.org") unreachable.signedAt = some certPem ∧
      (provisionTlsCertificates x509Sample (lit "pal.duckdns.org") (lit "duck-token") true (lit "/certs")
        unreachable).store = pairOf certPem (x509Sample.keyPem key) := by
  have hkept := failed_attempt_keeps_current x509Sample (lit "pal.duckdns.org") (lit "duck-token") true (lit "/certs")
    unreachable (by decide +kernel) (.inl trivial)
  have hreturns : (provisionTlsCertificates x509Sample (lit "pal.duckdns.org") (lit "duck-token") true (lit "/certs")
      unreachable).result.isOk = true := by decide +kernel
  cases hresult : (provisionTlsCertificates x509Sample (lit "pal.duckdns.org") (lit "duck-token") true (lit "/certs")
      unreachable).result with
  | error raised => simp [hresult, Except.isOk, Except.toBool] at hreturns
  | ok result => exact (hkept.2 (by simp) result hresult).2

/-- With twenty days left, a failed renewal replaces the issued certificate by a self-signed one. -/
theorem failed_renewal_downgrades :
    ¬ ∀ (x509 : X509 Bytes) (domain token : Text) (force : Bool) (dir : Text) (io : ProvisionIo Bytes)
        (cert : X509Certificate),
      Finds x509 io.look cert → cert.isSelfSigned = false → io.look.now < cert.notValidAfter → strip token ≠ [] →
        io.AttemptFails → (provisionTlsCertificates x509 domain token force dir io).store = io.look.files := by
  intro h
  have hkept := h x509Sample (lit "pal.duckdns.org") (lit "duck-token") false (lit "/certs") unreachable issuedCertificate
    unreachable_finds (by decide +kernel) (by decide) (by decide +kernel) (.inl trivial)
  have hcert := congrFun hkept .fullchain
  exact absurd hcert (by decide +kernel)

end Example

end Palworld.Tls

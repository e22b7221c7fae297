import Palworld.Tls.Provision

/-!
# The renewal scheduler

`certificate_renewal_scheduler` looks at the certificate, renews it when it is due, and sleeps. Other
programs may replace the files in between.
-/

open Lib

namespace Palworld.Tls

inductive SSLCertMode
  | letsencrypt
  | selfSigned
  | custom
  deriving DecidableEq

structure RenewalSettings where
  sslCertMode : SSLCertMode
  sslAutoRenew : Bool
  duckdnsDomain : Text
  duckdnsToken : Text

/-- What one iteration meets. The provisioner has a look of its own, behind that of the scheduler. -/
structure IterationIo (Key : Type) where
  settings : Option RenewalSettings      -- `get_settings`, or it raises
  readable : Bool
  now : Int
  provision : ProvisionIo Key

/-- What one iteration does: its sleep in seconds, which a cancelled one does not come to. -/
structure Iteration where
  slept : Option Nat
  attempted : Bool
  store : TlsStore

section Scheduler

variable {Key : Type} (x509 : X509 Key) (dir : Text) (store : TlsStore) (io : IterationIo Key)

def schedulerLook : Look := ⟨store, io.readable, io.now⟩

/-- One iteration of the loop, with the engine available. -/
def iteration : Iteration :=
  match io.settings with
  | none => ⟨some 3600, false, store⟩
  | some cfg =>
    if cfg.sslCertMode = .custom then ⟨some 86400, false, store⟩
    else if !cfg.sslAutoRenew then ⟨some 3600, false, store⟩
    else
      let domain := orDefault (some cfg.duckdnsDomain) (lit "localhost")
      match getTlsCertificateStatus x509 dir (some domain) (schedulerLook store io) with
      | none => ⟨some 3600, false, store⟩
      | some status =>
        if status.isValid ∧ 30 < status.daysRemaining then
          let secondsUntilRenewal := (status.daysRemaining - 30) * 86400
          ⟨some (min (max secondsUntilRenewal 3600) 86400).toNat, false, store⟩
        else
          let token := if cfg.sslCertMode = .letsencrypt then cfg.duckdnsToken else []
          let done := provisionTlsCertificates x509 domain token false dir io.provision
          match done.result with
          | .ok result => ⟨some (if result.success then 86400 else 21600), done.attempted, done.store⟩
          | .error .cancelled => ⟨none, done.attempted, done.store⟩
          | .error .exception => ⟨some 3600, done.attempted, done.store⟩

inductive Event (Key : Type)
  | iteration (io : IterationIo Key)
  | replaced (files : TlsStore)        -- another program, or the operator

def Event.after : Event Key → TlsStore
  | .iteration io => (Tls.iteration x509 dir store io).store
  | .replaced files => files

/-- Every iteration of the history has the property, at the files that it finds. -/
def AllIterations (P : TlsStore → IterationIo Key → Prop) : TlsStore → List (Event Key) → Prop
  | _, [] => True
  | store, event :: events =>
    (∀ io, event = .iteration io → P store io) ∧ AllIterations P (event.after x509 dir store) events

/-! ## Retrying -/

def IterationIo.WantsAcme (io : IterationIo Key) : Prop :=
  ∃ cfg, io.settings = some cfg ∧ cfg.sslCertMode = .letsencrypt ∧ cfg.sslAutoRenew = true ∧ strip cfg.duckdnsToken ≠ []

def FindsSelfSigned : Prop := ∃ cert, Finds x509 (schedulerLook store io) cert ∧ cert.isSelfSigned = true

/-- An iteration that finds a self-signed certificate does not sleep without an attempt. -/
def Retries : Prop :=
  io.WantsAcme → FindsSelfSigned x509 store io → (iteration x509 dir store io).slept ≠ none →
    (iteration x509 dir store io).attempted = true

/-- The self-signed certificate that the iteration finds is near its expiry or not valid. The provisioner,
at its own look, finds no other one either, and it can generate a key. -/
def RenewsSelfSigned : Prop :=
  io.WantsAcme → FindsSelfSigned x509 store io →
    ¬ Current x509 (schedulerLook store io) ∧
    Opens x509 io.provision.look ∧ ¬ Current x509 io.provision.look ∧ io.provision.key.isSome = true

end Scheduler

section Attempts

variable {Key : Type} {x509 : X509 Key} {domain token : Text} {dir : Text} {io : ProvisionIo Key} {key : Key} {store : TlsStore}
  {attempted : Bool}

theorem fallback_attempted : (selfSignedFallback x509 domain dir io key store attempted).attempted = attempted := by
  unfold selfSignedFallback
  split <;> rfl

theorem fallback_not_cancelled : (selfSignedFallback x509 domain dir io key store attempted).result ≠ .error .cancelled := by
  unfold selfSignedFallback install
  split
  · simp
  · dsimp only
    split <;> simp

theorem renew_attempted : (renew x509 domain token dir io key).attempted = true ↔ strip token ≠ [] := by
  have hstrip : token = [] → strip token = [] := by
    rintro rfl
    rfl
  unfold renew
  split
  · rename_i htoken
    simp only [htoken.2, not_false_eq_true, iff_true, ne_eq]
    split
    · rfl
    · exact fallback_attempted
    · split
      · exact fallback_attempted
      · split
        · rfl
        · exact fallback_attempted
  · rename_i htoken
    rw [fallback_attempted]
    simp only [Bool.false_eq_true, false_iff]
    tauto

theorem provision_attempted (x509 : X509 Key) (domain token dir : Text) (io : ProvisionIo Key) :
    (provisionTlsCertificates x509 domain token false dir io).attempted = true ↔
      strip token ≠ [] ∧ Opens x509 io.look ∧ ¬ Current x509 io.look ∧ io.key.isSome = true := by
  rw [← status_isSome_iff dir (some domain)]
  unfold provisionTlsCertificates
  cases hstatus : getTlsCertificateStatus x509 dir (some domain) io.look with
  | none => simp
  | some status =>
    have hcurrent := current_iff hstatus
    by_cases hnow : Current x509 io.look
    · simp [hcurrent.mpr hnow, hnow]
    · have hgoes : ¬ (status.isValid = true ∧ renewalThresholdDays < status.daysRemaining) := fun h => hnow (hcurrent.mp h)
      cases hkey : io.key with
      | none => simp [hgoes]
      | some key => simp [hgoes, hnow, renew_attempted]

theorem cancelled_attempted (x509 : X509 Key) (domain token dir : Text) (io : ProvisionIo Key)
    (h : (provisionTlsCertificates x509 domain token false dir io).result = .error .cancelled) :
    (provisionTlsCertificates x509 domain token false dir io).attempted = true := by
  unfold provisionTlsCertificates at h ⊢
  cases hstatus : getTlsCertificateStatus x509 dir (some domain) io.look with
  | none => simp [hstatus] at h
  | some status =>
    simp only [hstatus] at h ⊢
    split at h
    · cases h
    · rename_i hgoes
      rw [if_neg hgoes]
      cases hkey : io.key with
      | none => simp [hkey] at h
      | some key =>
        simp only [hkey] at h ⊢
        rw [renew_attempted]
        intro htoken
        unfold renew at h
        simp only [htoken, ne_eq, not_true_eq_false, and_false, if_false] at h
        exact fallback_not_cancelled h

end Attempts

section Iterations

variable {Key : Type} {x509 : X509 Key} {dir : Text} {store : TlsStore} {io : IterationIo Key}

theorem iteration_provisions (dir : Text) {cfg : RenewalSettings} (hcfg : io.settings = some cfg) (hmode : cfg.sslCertMode = .letsencrypt)
    (hauto : cfg.sslAutoRenew = true) (hopens : Opens x509 (schedulerLook store io))
    (hnot : ¬ Current x509 (schedulerLook store io)) :
    ∃ domain, (iteration x509 dir store io).attempted =
        (provisionTlsCertificates x509 domain cfg.duckdnsToken false dir io.provision).attempted ∧
      ((iteration x509 dir store io).slept = none ↔
        (provisionTlsCertificates x509 domain cfg.duckdnsToken false dir io.provision).result = .error .cancelled) := by
  refine ⟨orDefault (some cfg.duckdnsDomain) (lit "localhost"), ?_⟩
  obtain ⟨status, hstatus⟩ := Option.isSome_iff_exists.mp ((status_isSome_iff dir
    (some (orDefault (some cfg.duckdnsDomain) (lit "localhost")))).mpr hopens)
  have hgoes : ¬ (status.isValid = true ∧ 30 < status.daysRemaining) := fun h => hnot ((current_iff hstatus).mp h)
  unfold iteration
  simp only [hcfg, hmode, hauto, hstatus, if_neg hgoes, Bool.not_true, Bool.false_eq_true, if_false, if_true, reduceCtorEq]
  split <;> simp_all

theorem iteration_current (dir : Text) {cfg : RenewalSettings} (hcfg : io.settings = some cfg) (hmode : cfg.sslCertMode = .letsencrypt)
    (hauto : cfg.sslAutoRenew = true) (hopens : Opens x509 (schedulerLook store io))
    (hcurrent : Current x509 (schedulerLook store io)) :
    (iteration x509 dir store io).attempted = false ∧ (iteration x509 dir store io).slept ≠ none := by
  obtain ⟨status, hstatus⟩ := Option.isSome_iff_exists.mp ((status_isSome_iff dir
    (some (orDefault (some cfg.duckdnsDomain) (lit "localhost")))).mpr hopens)
  have hsleeps : status.isValid = true ∧ 30 < status.daysRemaining := (current_iff hstatus).mpr hcurrent
  unfold iteration
  simp only [hcfg, hmode, hauto, hstatus, if_pos hsleeps, Bool.not_true, Bool.false_eq_true, if_false, reduceCtorEq]
  simp

theorem opens_of_finds {look : Look} {cert : X509Certificate} (h : Finds x509 look cert) : Opens x509 look := by
  obtain ⟨sans, hstatus⟩ := status_of_finds [] none h
  rw [← status_isSome_iff [] none, hstatus]
  rfl

theorem retries_iff : Retries x509 dir store io ↔ RenewsSelfSigned x509 store io := by
  unfold Retries RenewsSelfSigned
  refine forall_congr' fun hwants => forall_congr' fun hfinds => ?_
  obtain ⟨cfg, hcfg, hmode, hauto, htoken⟩ := hwants
  obtain ⟨cert, hcert, -⟩ := hfinds
  have hopens := opens_of_finds hcert
  by_cases hcurrent : Current x509 (schedulerLook store io)
  · obtain ⟨hattempted, hslept⟩ := iteration_current dir hcfg hmode hauto hopens hcurrent
    simp [hcurrent, hattempted, hslept]
  · obtain ⟨domain, hattempted, hslept⟩ := iteration_provisions dir hcfg hmode hauto hopens hcurrent
    have hprovision := provision_attempted x509 domain cfg.duckdnsToken dir io.provision
    have hcancelled := cancelled_attempted x509 domain cfg.duckdnsToken dir io.provision
    rw [hattempted, ne_eq, hslept]
    simp only [htoken, ne_eq, not_false_eq_true, true_and] at hprovision
    tauto

end Iterations

/-- **When a self-signed certificate is retried.** In every history of iterations and of files replaced by
others, each iteration retries exactly if each renews the self-signed certificate that it finds. -/
theorem every_iteration_retries_iff {Key : Type} (x509 : X509 Key) (dir : Text) (store : TlsStore)
    (events : List (Event Key)) :
    AllIterations x509 dir (Retries x509 dir) store events ↔ AllIterations x509 dir (RenewsSelfSigned x509) store events := by
  induction events generalizing store with
  | nil => rfl
  | cons event events ih => simp only [AllIterations, ih, retries_iff]

section Example

def renewalSample : RenewalSettings := ⟨.letsencrypt, true, lit "pal.duckdns.org", lit "duck-token"⟩

def laterSample (files : TlsStore) (now : Int) : IterationIo Bytes where
  settings := some renewalSample
  readable := true
  now
  provision := { unreachable with look := ⟨files, true, now⟩ }

/-- The first iteration finds no certificate, and the authority cannot be reached. The second one, a day
later, finds the fallback and sleeps. -/
def fallbackHistory : List (Event Bytes) :=
  [.iteration (laterSample (fun _ => none) signedCertificate.notValidBefore),
    .iteration (laterSample (pairOf signedPem [2]) (signedCertificate.notValidBefore + oneDay))]

theorem fallback_installed : (Event.iteration (laterSample (fun _ => none) signedCertificate.notValidBefore)).after
    x509Sample (lit "/certs") (fun _ => none) = pairOf signedPem [2] := by
  rw [store_ext]
  decide +kernel

theorem fallback_is_not_retried :
    ¬ ∀ (x509 : X509 Bytes) (dir : Text) (store : TlsStore) (events : List (Event Bytes)),
      AllIterations x509 dir (Retries x509 dir) store events := by
  intro h
  have hlater := (h x509Sample (lit "/certs") (fun _ => none) fallbackHistory).2
  rw [fallback_installed] at hlater
  have hretries := hlater.1 _ rfl
  have hwants : (laterSample (pairOf signedPem [2]) (signedCertificate.notValidBefore + oneDay)).WantsAcme :=
    ⟨renewalSample, rfl, rfl, rfl, by decide +kernel⟩
  have hfinds : FindsSelfSigned x509Sample (pairOf signedPem [2])
      (laterSample (pairOf signedPem [2]) (signedCertificate.notValidBefore + oneDay)) := by
    refine ⟨signedCertificate, ⟨rfl, ⟨signedPem, rfl, ?_⟩, rfl, nofun⟩, by decide +kernel⟩
    decide +kernel
  exact absurd (hretries hwants hfinds (by decide +kernel)) (by decide +kernel)

end Example

end Palworld.Tls

import Palworld.Tls.Stage
import Palworld.Lib.Str

/-!
# What is known of an installed certificate

`get_tls_certificate_status` of `tls_manager.py`. The parser of certificates is a parameter.
-/

open Lib

namespace Palworld.Tls

/-- Times are in microseconds since the epoch. -/
def oneDay : Int := 86400 * 1000000

def renewalThresholdDays : Int := 30

/-! ## Certificates -/

inductive SubjectAltName
  | dnsNames (names : List Text)
  | notFound
  | malformed                    -- reading it raises another error
  deriving DecidableEq

/-- What is read of a parsed certificate. The attributes of a name are pairs of an OID and a value. -/
structure X509Certificate where
  issuer : List (Text × Text)
  subject : List (Text × Text)
  subjectAltName : SubjectAltName
  notValidBefore : Int
  notValidAfter : Int
  deriving DecidableEq

/-- The calls to the library for certificates. -/
structure X509 (Key : Type) where
  /-- `load_pem_x509_certificate`, or the text of its `ValueError`. -/
  loadPem : Bytes → Except Text X509Certificate
  keyPem : Key → Bytes
  /-- `generate_self_signed_certificate` in PEM format. It raises for a name that is none. -/
  selfSignedPem : Key → Text → Int → Option Bytes

def commonNameOid : Text := lit "2.5.4.3"

def commonName (attributes : List (Text × Text)) : Text :=
  (attributes.find? fun attr => attr.1 = commonNameOid).elim (lit "unknown") Prod.snd

def X509Certificate.isSelfSigned (cert : X509Certificate) : Bool := commonName cert.issuer = commonName cert.subject

/-! ## The status -/

structure TLSCertificateStatus where
  isValid : Bool
  domain : Text
  issuer : Text
  subjectAltNames : List Text
  notBefore : Option Int
  notAfter : Option Int
  daysRemaining : Int
  fullchainPath : Text
  privkeyPath : Text
  isSelfSigned : Bool
  errorMessage : Option Text

def joinPath (dir name : Text) : Text := if dir.getLast? = some '/' then dir ++ name else dir ++ '/' :: name

def fullchainName : Text := lit "fullchain.pem"

def privkeyName : Text := lit "privkey.pem"

def orDefault (text : Option Text) (default : Text) : Text :=
  match text with
  | some (c :: rest) => c :: rest
  | _ => default

def unusableStatus (dir : Text) (domain : Option Text) (message : Text) : TLSCertificateStatus where
  isValid := false
  domain := orDefault domain (lit "unknown")
  issuer := lit "unknown"
  subjectAltNames := []
  notBefore := none
  notAfter := none
  daysRemaining := 0
  fullchainPath := joinPath dir fullchainName
  privkeyPath := joinPath dir privkeyName
  isSelfSigned := false
  errorMessage := some message

def certificateStatus (dir : Text) (domain : Option Text) (now : Int) (cert : X509Certificate)
    (sans : List Text) : TLSCertificateStatus :=
  let daysRemaining := max 0 ((cert.notValidAfter - now) / oneDay)
  let isValid := decide (0 < daysRemaining) && decide (cert.notValidBefore ≤ now)
  { isValid
    domain := orDefault domain (commonName cert.subject)
    issuer := commonName cert.issuer
    subjectAltNames := sans
    notBefore := some cert.notValidBefore
    notAfter := some cert.notValidAfter
    daysRemaining
    fullchainPath := joinPath dir fullchainName
    privkeyPath := joinPath dir privkeyName
    isSelfSigned := cert.isSelfSigned
    errorMessage := if isValid then none else some (lit "Certificate expired or not yet valid") }

/-- What is reported of a certificate file that has been read. -/
def certificateReport {Key : Type} (x509 : X509 Key) (dir : Text) (domain : Option Text) (now : Int) (pem : Bytes) :
    Option TLSCertificateStatus :=
  match x509.loadPem pem with
  | .error text => some (unusableStatus dir domain (lit "Failed to load certificate: " ++ text))
  | .ok cert =>
    match cert.subjectAltName with
    | .dnsNames names => some (certificateStatus dir domain now cert names)
    | .notFound => some (certificateStatus dir domain now cert [])
    | .malformed => none

/-- A look at a certificate directory. An `OSError` makes it unreadable. -/
structure Look where
  files : TlsStore
  readable : Bool
  now : Int

/-- `get_tls_certificate_status` for a directory. `none` is an error that it does not catch. -/
def getTlsCertificateStatus {Key : Type} (x509 : X509 Key) (dir : Text) (domain : Option Text) (look : Look) :
    Option TLSCertificateStatus :=
  if !look.readable then none
  else
    match look.files .fullchain, look.files .privkey with
    | some pem, some _ => certificateReport x509 dir domain look.now pem
    | _, _ => some (unusableStatus dir domain (lit "Certificate files missing"))

/-! ## What a look finds -/

section Looks

variable {Key : Type} {x509 : X509 Key} {dir : Text} {domain : Option Text} {look : Look} {status : TLSCertificateStatus}
  {cert : X509Certificate}

theorem status_of_both {pem keyPem : Bytes} (hreadable : look.readable = true) (hpem : look.files .fullchain = some pem)
    (hkey : look.files .privkey = some keyPem) :
    getTlsCertificateStatus x509 dir domain look = certificateReport x509 dir domain look.now pem := by
  unfold getTlsCertificateStatus
  simp only [hreadable, hpem, hkey, Bool.not_true, Bool.false_eq_true, if_false]

theorem status_of_missing (hreadable : look.readable = true)
    (hmissing : look.files .fullchain = none ∨ look.files .privkey = none) :
    getTlsCertificateStatus x509 dir domain look = some (unusableStatus dir domain (lit "Certificate files missing")) := by
  unfold getTlsCertificateStatus
  rw [hreadable]
  rcases hmissing with hnone | hnone
  · simp [hnone]
  · cases look.files .fullchain <;> simp [hnone]

/-- No report on a certificate says that the files are missing. -/
theorem certificateReport_ne_missing {now : Int} {pem : Bytes} :
    certificateReport x509 dir domain now pem ≠ some (unusableStatus dir domain (lit "Certificate files missing")) := by
  have hreport : ∀ cert sans, certificateStatus dir domain now cert sans ≠
      unusableStatus dir domain (lit "Certificate files missing") := by
    intro cert sans heq
    have hmessage := congrArg TLSCertificateStatus.errorMessage heq
    simp only [certificateStatus, unusableStatus] at hmessage
    split at hmessage
    · cases hmessage
    · exact absurd (Option.some.inj hmessage) (by decide)
  unfold certificateReport
  intro heq
  split at heq
  · have hmessage := congrArg TLSCertificateStatus.errorMessage (Option.some.inj heq)
    have htext : 'F' :: (lit "ailed to load certificate: " ++ _) = 'C' :: lit "ertificate files missing" := Option.some.inj hmessage
    exact absurd (List.cons.inj htext).1 (by decide)
  · split at heq
    · exact hreport _ _ (Option.some.inj heq)
    · exact hreport _ _ (Option.some.inj heq)
    · cases heq

structure Finds (x509 : X509 Key) (look : Look) (cert : X509Certificate) : Prop where
  readable : look.readable = true
  loads : ∃ pem, look.files .fullchain = some pem ∧ x509.loadPem pem = .ok cert
  key : (look.files .privkey).isSome = true
  wellFormed : cert.subjectAltName ≠ .malformed

/-- The certificate is valid and has more days left than the threshold. -/
def X509Certificate.NotNearExpiry (cert : X509Certificate) (now : Int) : Prop :=
  cert.notValidBefore ≤ now ∧ now + 31 * oneDay ≤ cert.notValidAfter

instance (now : Int) : Decidable (cert.NotNearExpiry now) := by
  unfold X509Certificate.NotNearExpiry
  infer_instance

/-- The status of a directory is that of the certificate in it, or says that there is none. -/
theorem status_cases (h : getTlsCertificateStatus x509 dir domain look = some status) :
    (∃ cert sans, Finds x509 look cert ∧ status = certificateStatus dir domain look.now cert sans) ∨
      (∀ cert, ¬ Finds x509 look cert) ∧ ∃ message, status = unusableStatus dir domain message := by
  unfold getTlsCertificateStatus certificateReport at h
  split at h
  · cases h
  · rename_i hreadable
    have hreadable : look.readable = true := by simpa using hreadable
    split at h
    · rename_i pem key hpem hkey
      split at h
      · rename_i text herror
        refine .inr ⟨fun cert hfinds => ?_, _, (Option.some.inj h).symm⟩
        obtain ⟨pem', hpem', hloads⟩ := hfinds.loads
        rw [hpem] at hpem'
        cases hpem'
        rw [herror] at hloads
        cases hloads
      · rename_i cert hloads
        have hfinds (hsan : cert.subjectAltName ≠ .malformed) : Finds x509 look cert :=
          ⟨hreadable, ⟨pem, hpem, hloads⟩, by rw [hkey]; rfl, hsan⟩
        split at h
        · rename_i names hsan
          exact .inl ⟨cert, names, hfinds (by simp [hsan]), (Option.some.inj h).symm⟩
        · rename_i hsan
          exact .inl ⟨cert, [], hfinds (by simp [hsan]), (Option.some.inj h).symm⟩
        · cases h
    · rename_i hmissing
      refine .inr ⟨fun cert hfinds => ?_, _, (Option.some.inj h).symm⟩
      obtain ⟨pem, hpem, -⟩ := hfinds.loads
      obtain ⟨key, hkey⟩ := Option.isSome_iff_exists.mp hfinds.key
      exact hmissing pem key hpem hkey

theorem status_of_finds (dir : Text) (domain : Option Text) (h : Finds x509 look cert) :
    ∃ sans, getTlsCertificateStatus x509 dir domain look = some (certificateStatus dir domain look.now cert sans) := by
  obtain ⟨pem, hpem, hloads⟩ := h.loads
  obtain ⟨key, hkey⟩ := Option.isSome_iff_exists.mp h.key
  have hsan := h.wellFormed
  unfold getTlsCertificateStatus certificateReport
  simp only [h.readable, hpem, hkey, hloads, Bool.not_true, Bool.false_eq_true, if_false]
  cases hnames : cert.subjectAltName with
  | dnsNames names => exact ⟨names, rfl⟩
  | notFound => exact ⟨[], rfl⟩
  | malformed => exact absurd hnames hsan

theorem valid_beyond_threshold_iff {sans : List Text} {now : Int} :
    ((certificateStatus dir domain now cert sans).isValid = true ∧
      renewalThresholdDays < (certificateStatus dir domain now cert sans).daysRemaining) ↔ cert.NotNearExpiry now := by
  have hdays : 31 ≤ (cert.notValidAfter - now) / oneDay ↔ 31 * oneDay ≤ cert.notValidAfter - now :=
    Int.le_ediv_iff_mul_le (by decide)
  simp only [certificateStatus, renewalThresholdDays, X509Certificate.NotNearExpiry, Bool.and_eq_true, decide_eq_true_eq]
  omega

/-- Nothing that the look reads makes it raise. -/
def Opens (x509 : X509 Key) (look : Look) : Prop :=
  look.readable = true ∧ ¬ ∃ pem cert, look.files .fullchain = some pem ∧ (look.files .privkey).isSome = true ∧
    x509.loadPem pem = .ok cert ∧ cert.subjectAltName = .malformed

theorem status_isSome_iff (dir : Text) (domain : Option Text) :
    (getTlsCertificateStatus x509 dir domain look).isSome = true ↔ Opens x509 look := by
  unfold getTlsCertificateStatus certificateReport Opens
  cases hreadable : look.readable
  · simp
  · cases hpem : look.files .fullchain <;> cases hkey : look.files .privkey <;> simp
    rename_i pem key
    cases hloads : x509.loadPem pem with
    | error text => simp
    | ok cert => cases hsan : cert.subjectAltName <;> simp [hsan]

theorem finds_unique {cert' : X509Certificate} (h : Finds x509 look cert) (h' : Finds x509 look cert') : cert = cert' := by
  obtain ⟨pem, hpem, hloads⟩ := h.loads
  obtain ⟨pem', hpem', hloads'⟩ := h'.loads
  rw [hpem] at hpem'
  cases hpem'
  rw [hloads] at hloads'
  exact Except.ok.inj hloads'

end Looks

section Example

/-- A certificate of `pal.duckdns.org` by the authority `R10`, for twenty days. -/
def issuedPem : Bytes :=
  utf8 ("-----BEGIN CERTIFICATE-----\n" ++
    "MIIBNDCB56ADAgECAgECMAUGAytlcDAOMQwwCgYDVQQDDANSMTAwHhcNMjYxMTE5\n" ++
    "MDM0NjExWhcNMjYxMjA5MDM0NjExWjAaMRgwFgYDVQQDDA9wYWwuZHVja2Rucy5v\n" ++
    "cmcwKjAFBgMrZXADIQDK6J9X8IsKYWUdZmvPQLGGACYO95MnfqaJWO4v6x+i36Ne\n" ++
    "MFwwGgYDVR0RBBMwEYIPcGFsLmR1Y2tkbnMub3JnMB0GA1UdDgQWBBSyptRF+5m0\n" ++
    "Ixtt+nYyVHJDdrJfBDAfBgNVHSMEGDAWgBTnJ7M2KHbUSL65LovHQm4FRw3h3zAF\n" ++
    "BgMrZXADQQC3WmB3Q5f7CeqQSfI2v7A0eWRQ/Xa+vp+Llb+q7N5wK4yC9NaKj/b5\n" ++
    "1Pd4Q7k6ZGRYsqfCNzW8QNV6L4g8JSoE\n" ++
    "-----END CERTIFICATE-----\n")

def issuedCertificate : X509Certificate where
  issuer := [(commonNameOid, lit "R10")]
  subject := [(commonNameOid, lit "pal.duckdns.org")]
  subjectAltName := .dnsNames [lit "pal.duckdns.org"]
  notValidBefore := 1795059971 * 1000000
  notValidAfter := 1796787971 * 1000000

/-- One that `pal.duckdns.org` has signed itself, for a year. -/
def signedPem : Bytes :=
  utf8 ("-----BEGIN CERTIFICATE-----\n" ++
    "MIIBHzCB0qADAgECAgEDMAUGAytlcDAaMRgwFgYDVQQDDA9wYWwuZHVja2Rucy5v\n" ++
    "cmcwHhcNMjYxMTE5MDM0NjExWhcNMjcxMTE5MDM0NjExWjAaMRgwFgYDVQQDDA9w\n" ++
    "YWwuZHVja2Rucy5vcmcwKjAFBgMrZXADIQDp2bHOfU6rwdzKFp9p+5YKOSAblBqm\n" ++
    "J6cSP4OCtJVe9KM9MDswGgYDVR0RBBMwEYIPcGFsLmR1Y2tkbnMub3JnMB0GA1Ud\n" ++
    "DgQWBBT1HcDvecFtzEFtUCMISMekPA/fRzAFBgMrZXADQQBK8Bf5B8LEa22Lo8Yp\n" ++
    "KMEQh9zEjRr+vc2LfcyJ8rOhiWHqUgLz2adm+4hgyZd2I5TfN1ea6zBEAhez3M/4\n" ++
    "lMsC\n" ++
    "-----END CERTIFICATE-----\n")

def signedCertificate : X509Certificate where
  issuer := [(commonNameOid, lit "pal.duckdns.org")]
  subject := [(commonNameOid, lit "pal.duckdns.org")]
  subjectAltName := .dnsNames [lit "pal.duckdns.org"]
  notValidBefore := 1795059971 * 1000000
  notValidAfter := 1826595971 * 1000000

/-- The library on the two certificates. A key is its PEM text here. -/
def x509Sample : X509 Bytes where
  loadPem pem :=
    if pem = issuedPem then .ok issuedCertificate
    else if pem = signedPem then .ok signedCertificate
    else .error (lit "Unable to load PEM file.")
  keyPem key := key
  selfSignedPem _ domain now :=
    if domain = lit "pal.duckdns.org" ∧ now = signedCertificate.notValidBefore then some signedPem else none

end Example

end Palworld.Tls

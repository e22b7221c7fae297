import Palworld.Config.Harmless
import Palworld.Tls.Provision

/-!
# The certificate that is served

`resolve_ssl_paths` walks a list of candidate pairs. The status and the provisioner keep to the
directory that `cert_dir` names. No field of `AppSettings` has that name.
-/

open Lib Palworld.Config

namespace Palworld.Tls

/-- `str.lower`. The tables of Unicode stay open. -/
class Lowercase where
  lower : Text → Text
  lower_ascii (t : Text) : (∀ c ∈ t, c.toNat < 128) → lower t = t.map Char.toLower

/-- `OSError` and its kinds, `SSLError` among them, or another error. -/
inductive PathError
  | osError
  | runtimeError
  deriving DecidableEq

/-- The host of the files. Files are named by their resolved paths. -/
structure CertHost where
  home : Option Text                          -- `Path.home()`, or it raises `RuntimeError`
  expandTilde : Text → Option Text            -- the same for a path that starts with a tilde
  resolve : Text → Except PathError Text
  fits : Bytes → Bytes → Bool                 -- `load_cert_chain` takes the certificate and the key

abbrev Files := Text → Option Bytes

/-! ## The candidates -/

section Candidates

variable {F : Type} (host : CertHost) (cfg : AppSettings F) (files : Files)

/-- `cfg.name`. It raises `AttributeError` for a name that no field has. -/
def getAttribute (name : Text) : Option FieldValue :=
  (appFields.attach.find? fun f => f.1.name = name).map fun f => cfg f.1 f.2

def givenText (name : String) : Option Text :=
  match getAttribute cfg (lit name) with
  | some (.str (c :: rest)) => some (c :: rest)
  | _ => none

def defaultCertDir : Text := lit "/var/lib/palmanager/certs"

/-- The `stage_dir` of a call that gives none. -/
def stageDirectory : Text :=
  match getAttribute cfg (lit "cert_dir") with
  | some (.str dir) => dir
  | _ => defaultCertDir

def CertHost.expanduser (path : Text) : Option Text :=
  if path.head? = some '~' then host.expandTilde path else some path

def CertHost.locate (path : Text) : Except PathError Text :=
  match host.expanduser path with
  | some path => host.resolve path
  | none => .error .runtimeError

def pairIn (dir : Text) (names : String × String) : Text × Text :=
  (joinPath dir (lit names.1), joinPath dir (lit names.2))

/-- The candidates in their order. `none` is a `RuntimeError` on the way. -/
def candidates [Lowercase] : Option (List (Text × Text)) := do
  let explicit :=
    match givenText cfg "ssl_cert_path", givenText cfg "ssl_key_path" with
    | some cert, some key => [(cert, key)]
    | _, _ => []
  let custom ←
    match givenText cfg "ssl_cert_dir" with
    | some dir => (host.expanduser dir).map fun dir =>
        [("tls.crt", "tls.key"), ("fullchain.pem", "privkey.pem"), ("cert.pem", "key.pem"),
          ("server.crt", "server.key")].map (pairIn dir)
    | none => some []
  let detected ←
    if getAttribute cfg (lit "ssl_auto_detect") = some (.bool true) then
      let issued :=
        match givenText cfg "duckdns_domain" with
        | some domain => [pairIn (lit "/etc/letsencrypt/live/" ++ Lowercase.lower (strip domain)) ("fullchain.pem", "privkey.pem")]
        | none => []
      host.home.map fun home =>
        pairIn defaultCertDir ("fullchain.pem", "privkey.pem") :: issued ++
          [pairIn (joinPath (joinPath home (lit ".palmanager")) (lit "certs")) ("fullchain.pem", "privkey.pem")]
    else some []
  return explicit ++ custom ++ detected

/-! ## The choice -/

/-- One round of the loop. `none` when one of the files is missing. -/
def tryCandidate (pair : Text × Text) : Except PathError (Option (Text × Text)) :=
  match host.locate pair.1 with
  | .error err => .error err
  | .ok cert =>
    match host.locate pair.2 with
    | .error err => .error err
    | .ok key =>
      match files cert, files key with
      | some certPem, some keyPem => if host.fits certPem keyPem then .ok (some (cert, key)) else .error .osError
      | _, _ => .ok none

def firstUsable : List (Text × Text) → Except PathError (Option (Text × Text))
  | [] => .ok none
  | pair :: rest =>
    match tryCandidate host files pair with
    | .ok (some served) => .ok (some served)
    | .ok none | .error .osError => firstUsable rest
    | .error .runtimeError => .error .runtimeError

def resolveSslPaths [Lowercase] : Except PathError (Option (Text × Text)) :=
  match candidates host cfg with
  | some pairs => firstUsable host files pairs
  | none => .error .runtimeError

end Candidates

section Choice

variable {host : CertHost} {files : Files} {pair served : Text × Text} {pairs before rest : List (Text × Text)}

def Usable (host : CertHost) (files : Files) (pair : Text × Text) : Prop :=
  ∃ served, tryCandidate host files pair = .ok (some served)

/-- The candidate ends the loop with an error. -/
def Breaks (host : CertHost) (pair : Text × Text) : Prop :=
  host.locate pair.1 = .error .runtimeError ∨
    (∃ cert, host.locate pair.1 = .ok cert) ∧ host.locate pair.2 = .error .runtimeError

theorem breaks_iff (host : CertHost) (files : Files) (pair : Text × Text) :
    Breaks host pair ↔ tryCandidate host files pair = .error .runtimeError := by
  unfold Breaks tryCandidate
  rcases hcert : host.locate pair.1 with err | cert
  · simp
  · rcases hkey : host.locate pair.2 with err | key
    · simp
    · simp only [reduceCtorEq, and_false, or_self, false_iff]
      split
      · split <;> simp
      · simp

theorem usable_iff : tryCandidate host files pair = .ok (some served) ↔
    host.locate pair.1 = .ok served.1 ∧ host.locate pair.2 = .ok served.2 ∧
      ∃ certPem keyPem, files served.1 = some certPem ∧ files served.2 = some keyPem ∧ host.fits certPem keyPem = true := by
  obtain ⟨cert, key⟩ := served
  unfold tryCandidate
  rcases hcert : host.locate pair.1 with err | cert'
  · simp
  · rcases hkey : host.locate pair.2 with err | key'
    · simp
    · cases hcertPem : files cert' <;> cases hkeyPem : files key' <;> simp <;> grind

def Chosen (host : CertHost) (files : Files) (pairs : List (Text × Text)) (served : Text × Text) : Prop :=
  ∃ before pair rest, pairs = before ++ pair :: rest ∧ (∀ q ∈ before, ¬ Breaks host q ∧ ¬ Usable host files q) ∧
    tryCandidate host files pair = .ok (some served)

theorem skip_iff (hbreaks : ¬ Breaks host pair) (husable : ¬ Usable host files pair) :
    Chosen host files (pair :: pairs) served ↔ Chosen host files pairs served := by
  constructor
  · rintro ⟨before, first, rest, hpairs, hbefore, hfirst⟩
    cases before with
    | nil =>
      cases hpairs
      exact absurd ⟨served, hfirst⟩ husable
    | cons q before =>
      cases hpairs
      exact ⟨before, first, rest, rfl, fun q hq => hbefore q (List.mem_cons_of_mem _ hq), hfirst⟩
  · rintro ⟨before, first, rest, rfl, hbefore, hfirst⟩
    exact ⟨pair :: before, first, rest, rfl, List.forall_mem_cons.mpr ⟨⟨hbreaks, husable⟩, hbefore⟩, hfirst⟩

theorem firstUsable_iff : firstUsable host files pairs = .ok (some served) ↔ Chosen host files pairs served := by
  induction pairs with
  | nil => simp [firstUsable, Chosen]
  | cons pair pairs ih =>
    have hbreaks := breaks_iff host files pair
    unfold firstUsable
    rcases htry : tryCandidate host files pair with err | (_ | chosen)
    · cases err with
      | osError =>
        rw [ih]
        exact (skip_iff (by simp [hbreaks, htry]) (by simp [Usable, htry])).symm
      | runtimeError =>
        simp only [reduceCtorEq, false_iff]
        rintro ⟨before, first, rest, hpairs, hbefore, hfirst⟩
        cases before with
        | nil =>
          cases hpairs
          rw [htry] at hfirst
          cases hfirst
        | cons q before =>
          cases hpairs
          exact (hbefore pair List.mem_cons_self).1 (hbreaks.mpr htry)
    · rw [ih]
      exact (skip_iff (by simp [hbreaks, htry]) (by simp [Usable, htry])).symm
    · simp only [Except.ok.injEq, Option.some.injEq]
      constructor
      · rintro rfl
        exact ⟨[], pair, pairs, rfl, nofun, htry⟩
      · rintro ⟨before, first, rest, hpairs, hbefore, hfirst⟩
        cases before with
        | nil =>
          cases hpairs
          rw [htry] at hfirst
          simpa using hfirst
        | cons q before =>
          cases hpairs
          exact absurd ⟨chosen, htry⟩ (hbefore pair List.mem_cons_self).2

theorem chosen_mem (h : Chosen host files (before ++ pair :: rest) served) (husable : Usable host files pair) :
    ∃ q ∈ before ++ [pair], tryCandidate host files q = .ok (some served) := by
  induction before with
  | nil =>
    obtain ⟨front, first, rest', hpairs, hfront, hfirst⟩ := h
    cases front with
    | nil =>
      cases hpairs
      exact ⟨pair, by simp, hfirst⟩
    | cons q front =>
      cases hpairs
      exact absurd husable (hfront pair List.mem_cons_self).2
  | cons head before ih =>
    obtain ⟨front, first, rest', hpairs, hfront, hfirst⟩ := h
    cases front with
    | nil =>
      cases hpairs
      exact ⟨head, by simp, hfirst⟩
    | cons q front =>
      obtain ⟨-, hpairs⟩ := List.cons_eq_cons.mp hpairs
      obtain ⟨q, hq, htry⟩ := ih ⟨front, first, rest', hpairs, fun q hq => hfront q (List.mem_cons_of_mem _ hq), hfirst⟩
      exact ⟨q, List.mem_cons_of_mem _ hq, htry⟩

theorem chosen_exists (hbreaks : ∀ q ∈ before, ¬ Breaks host q) (husable : Usable host files pair) :
    ∃ served, Chosen host files (before ++ pair :: rest) served := by
  induction before with
  | nil =>
    obtain ⟨served, htry⟩ := husable
    exact ⟨served, [], pair, rest, rfl, nofun, htry⟩
  | cons head before ih =>
    rw [List.forall_mem_cons] at hbreaks
    by_cases hhead : Usable host files head
    · obtain ⟨served, htry⟩ := hhead
      exact ⟨served, [], head, before ++ pair :: rest, rfl, nofun, htry⟩
    · obtain ⟨served, hchosen⟩ := ih hbreaks.2
      exact ⟨served, (skip_iff hbreaks.1 hhead).mpr hchosen⟩

end Choice

/-! ## A new pair in the default directory -/

section Install

variable {host : CertHost} {files : Files} {place : Text × Text} {certPem keyPem : Bytes} {pair served : Text × Text}

def storeAt (files : Files) (place : Text × Text) : TlsStore
  | .fullchain => files place.1
  | .privkey => files place.2

/-- The files after the provisioner has written the certificate and then the key. -/
def Files.install (files : Files) (place : Text × Text) (store : TlsStore) : Files :=
  Function.update (Function.update files place.1 (store .fullchain)) place.2 (store .privkey)

/-- A certificate for a key of its own. Neither goes with anything that was there before. -/
structure Fresh (host : CertHost) (files : Files) (certPem keyPem : Bytes) : Prop where
  fits : host.fits certPem keyPem = true
  notCertificate : ∀ b, host.fits keyPem b = false
  notKey : ∀ a, host.fits a certPem = false
  newKey : ∀ file a, files file = some a → host.fits a keyPem = false
  newCertificate : ∀ file b, files file = some b → host.fits certPem b = false

def Touches (host : CertHost) (place pair : Text × Text) : Prop :=
  ∃ file, (host.locate pair.1 = .ok file ∨ host.locate pair.2 = .ok file) ∧ (file = place.1 ∨ file = place.2)

theorem install_apply (file : Text) : files.install place (pairOf certPem keyPem) file =
    if file = place.2 then some keyPem else if file = place.1 then some certPem else files file := by
  unfold Files.install
  simp only [Function.update_apply, pairOf]

theorem install_certificate_iff (h : Fresh host files certPem keyPem) (file : Text) :
    files.install place (pairOf certPem keyPem) file = some certPem ↔ file = place.1 ∧ place.1 ≠ place.2 := by
  have hdiffer : keyPem ≠ certPem := by
    rintro rfl
    exact absurd h.fits (by simp [h.notKey])
  have hnew : files file ≠ some certPem := fun hfile => absurd h.fits (by simp [h.newKey file certPem hfile])
  rw [install_apply]
  split_ifs with hkey hcert
  · simp only [Option.some.injEq, hdiffer, false_iff, not_and, not_not]
    rintro rfl
    exact hkey
  · subst hcert
    simpa using hkey
  · simp [hnew, hcert]

theorem fits_install (h : Fresh host files certPem keyPem) (cert key : Text) :
    (∃ a b, files.install place (pairOf certPem keyPem) cert = some a ∧
        files.install place (pairOf certPem keyPem) key = some b ∧ host.fits a b = true) ↔
      cert = place.1 ∧ key = place.2 ∧ place.1 ≠ place.2 ∨
      cert ≠ place.1 ∧ cert ≠ place.2 ∧ key ≠ place.1 ∧ key ≠ place.2 ∧
        ∃ a b, files cert = some a ∧ files key = some b ∧ host.fits a b = true := by
  simp only [install_apply]
  by_cases hcert : cert = place.2
  · -- A key stands there, which is no certificate.
    simp only [hcert, if_true, Option.some.injEq]
    constructor
    · rintro ⟨a, b, rfl, -, hfits⟩
      exact absurd hfits (by simp [h.notCertificate])
    · rintro (⟨hsame, -, hne⟩ | ⟨-, hne, -⟩)
      · exact absurd hsame.symm hne
      · exact absurd rfl hne
  · by_cases hkey : key = place.2
    · by_cases hnew : cert = place.1
      · have hne : place.1 ≠ place.2 := hnew ▸ hcert
        simp [hkey, hnew, hne, h.fits]
      · simp only [hcert, hkey, hnew, if_true, if_false, Option.some.injEq, false_and, false_or]
        constructor
        · rintro ⟨a, b, ha, rfl, hfits⟩
          exact absurd hfits (by simp [h.newKey cert a ha])
        · rintro ⟨-, -, -, hne, -⟩
          exact absurd rfl hne
    · simp only [hcert, hkey, if_false, false_and, and_false, false_or]
      by_cases hsecond : key = place.1
      · simp only [hsecond, if_true, Option.some.injEq]
        constructor
        · rintro ⟨a, b, -, rfl, hfits⟩
          exact absurd hfits (by simp [h.notKey])
        · rintro ⟨-, -, hne, -⟩
          exact absurd rfl hne
      · by_cases hnew : cert = place.1
        · simp only [hsecond, hnew, if_true, if_false, Option.some.injEq]
          constructor
          · rintro ⟨a, b, rfl, hb, hfits⟩
            exact absurd hfits (by simp [h.newCertificate key b hb])
          · rintro ⟨hne, -⟩
            exact absurd rfl hne
        · simp [hcert, hkey, hsecond, hnew]

/-- The candidates that are usable with the new pair in place: the pair itself, and what it does not touch. -/
theorem usable_install (h : Fresh host files certPem keyPem) :
    tryCandidate host (files.install place (pairOf certPem keyPem)) pair = .ok (some served) ↔
      place.1 ≠ place.2 ∧ host.locate pair.1 = .ok place.1 ∧ host.locate pair.2 = .ok place.2 ∧ served = place ∨
      ¬ Touches host place pair ∧ tryCandidate host files pair = .ok (some served) := by
  rw [usable_iff, usable_iff, fits_install h]
  constructor
  · rintro ⟨hcert, hkey, ⟨hfirst, hsecond, hne⟩ | ⟨hone, htwo, hthree, hfour, hfits⟩⟩
    · have hserved : served = place := Prod.ext hfirst hsecond
      subst hserved
      exact .inl ⟨hne, hcert, hkey, rfl⟩
    · refine .inr ⟨?_, hcert, hkey, hfits⟩
      rintro ⟨file, hfile, hplace⟩
      rw [hcert, hkey, Except.ok.injEq, Except.ok.injEq] at hfile
      rcases hfile with rfl | rfl <;> tauto
  · rintro (⟨hne, hcert, hkey, rfl⟩ | ⟨huntouched, hcert, hkey, hfits⟩)
    · exact ⟨hcert, hkey, .inl ⟨rfl, rfl, hne⟩⟩
    · refine ⟨hcert, hkey, .inr ⟨?_, ?_, ?_, ?_, hfits⟩⟩
      · exact fun hone => huntouched ⟨_, .inl hcert, .inl hone⟩
      · exact fun htwo => huntouched ⟨_, .inl hcert, .inr htwo⟩
      · exact fun hthree => huntouched ⟨_, .inr hkey, .inl hthree⟩
      · exact fun hfour => huntouched ⟨_, .inr hkey, .inr hfour⟩

end Install

/-! ## The monitored certificate -/

section Monitored

variable {F : Type}

theorem name_mem_appFields {f : AppField F} (hf : f ∈ appFields) :
    f.name ∈ (appFields : List (AppField Unit)).map AppField.name := by
  have hnames : (appFields : List (AppField F)).map AppField.name = (appFields : List (AppField Unit)).map AppField.name :=
    rfl
  rw [← hnames]
  exact List.mem_map_of_mem hf

/-- No field is named `cert_dir`, so a call without a directory always takes the default one. -/
theorem stageDirectory_eq (cfg : AppSettings F) : stageDirectory cfg = defaultCertDir := by
  have hnone : getAttribute cfg (lit "cert_dir") = none := by
    unfold getAttribute
    rw [Option.map_eq_none_iff, List.find?_eq_none]
    intro f _ hname
    have hmem := name_mem_appFields f.2
    rw [of_decide_eq_true hname] at hmem
    exact absurd hmem (by decide +kernel)
  unfold stageDirectory
  rw [hnone]

variable [Lowercase] (host : CertHost) (cfg : AppSettings F) (files : Files)

/-- The file behind `fullchain.pem` in the directory of a call that gives none. -/
def stagedCertificate : Except PathError Text := host.resolve (joinPath (stageDirectory cfg) fullchainName)

def stagedKey : Except PathError Text := host.resolve (joinPath (stageDirectory cfg) privkeyName)

def IsPlace (place : Text × Text) : Prop := stagedCertificate host cfg = .ok place.1 ∧ stagedKey host cfg = .ok place.2

/-- What a status call without a directory sees of its two files. -/
def stagedLook (now : Int) : Look where
  files
    | .fullchain => (stagedCertificate host cfg).toOption.bind files
    | .privkey => (stagedKey host cfg).toOption.bind files
  readable := true
  now := now

/-- Called without a directory, `get_tls_certificate_status` reads this file, and its answer is the report on what it read. -/
def Inspects {Key : Type} (x509 : X509 Key) (file : Text) : Prop :=
  stagedCertificate host cfg = .ok file ∧ ∃ pem, files file = some pem ∧ ∀ domain now,
    getTlsCertificateStatus x509 (stageDirectory cfg) domain (stagedLook host cfg files now) =
      certificateReport x509 (stageDirectory cfg) domain now pem

/-- A call without a directory that returns with a new certificate. The pair that it leaves is fresh. -/
structure IssuingCall {Key : Type} (x509 : X509 Key) where
  domain : Text
  token : Text
  force : Bool
  io : ProvisionIo Key
  place : Text × Text
  isPlace : IsPlace host cfg place
  look : io.look.files = storeAt files place
  issues : ∃ result, (provisionTlsCertificates x509 domain token force (stageDirectory cfg) io).result = .ok result ∧
    result.mode ≠ .existingValid
  fresh : ∀ certPem keyPem,
    (provisionTlsCertificates x509 domain token force (stageDirectory cfg) io).store = pairOf certPem keyPem →
      Fresh host files certPem keyPem

def IssuingCall.store {Key : Type} {x509 : X509 Key} (call : IssuingCall host cfg files x509) : TlsStore :=
  (provisionTlsCertificates x509 call.domain call.token call.force (stageDirectory cfg) call.io).store

def IssuingCall.after {Key : Type} {x509 : X509 Key} (call : IssuingCall host cfg files x509) : Files :=
  files.install call.place (call.store host cfg files)

def ServesNew {Key : Type} {x509 : X509 Key} (call : IssuingCall host cfg files x509) : Prop :=
  ∃ served, resolveSslPaths host cfg (call.after host cfg files) = .ok (some served) ∧
    call.after host cfg files served.1 = call.store host cfg files .fullchain

/-- Some usable candidate has the certificate of the directory, and so has every usable one in front of it. -/
def ServesStaged : Prop :=
  ∃ before pair rest, candidates host cfg = some (before ++ pair :: rest) ∧ Usable host files pair ∧
    host.locate pair.1 = stagedCertificate host cfg ∧
    ∀ q ∈ before, Usable host files q → host.locate q.1 = stagedCertificate host cfg

/-- Beside it there is a private key, without which the status does not look at the certificate. -/
def HasKey : Prop := ∃ file, stagedKey host cfg = .ok file ∧ (files file).isSome = true

/-- The pair of the default directory is a candidate. Those in front of it do not end the search, and the
usable ones among them have a file of that directory. -/
def ServesDefault : Prop :=
  ∃ place, IsPlace host cfg place ∧ place.1 ≠ place.2 ∧
    ∃ before pair rest, candidates host cfg = some (before ++ pair :: rest) ∧
      host.locate pair.1 = .ok place.1 ∧ host.locate pair.2 = .ok place.2 ∧
      ∀ q ∈ before, ¬ Breaks host q ∧ (Usable host files q → Touches host place q)

end Monitored

section Spec

variable {F : Type} [Lowercase] {host : CertHost} {cfg : AppSettings F} {files : Files} {served : Text × Text}
  {Key : Type} {x509 : X509 Key}

theorem resolve_iff : resolveSslPaths host cfg files = .ok (some served) ↔
    ∃ pairs, candidates host cfg = some pairs ∧ Chosen host files pairs served := by
  unfold resolveSslPaths
  cases candidates host cfg with
  | none => simp
  | some pairs => simp [firstUsable_iff]

theorem stagedCertificate_iff (h : resolveSslPaths host cfg files = .ok (some served)) :
    stagedCertificate host cfg = .ok served.1 ↔ ServesStaged host cfg files := by
  obtain ⟨pairs, hpairs, hchosen⟩ := resolve_iff.mp h
  constructor
  · intro hstaged
    obtain ⟨before, pair, rest, rfl, hbefore, htry⟩ := hchosen
    refine ⟨before, pair, rest, hpairs, ⟨served, htry⟩, ?_, fun q hq husable => absurd husable (hbefore q hq).2⟩
    rw [hstaged]
    exact (usable_iff.mp htry).1
  · rintro ⟨before, pair, rest, hcandidates, husable, hpair, hbefore⟩
    rw [hpairs, Option.some.injEq] at hcandidates
    subst hcandidates
    obtain ⟨q, hq, htry⟩ := chosen_mem hchosen husable
    have hsame : host.locate q.1 = stagedCertificate host cfg := by
      rcases List.mem_append.mp hq with hq | hq
      · exact hbefore q hq ⟨served, htry⟩
      · rw [List.mem_singleton.mp hq]
        exact hpair
    rw [← hsame]
    exact (usable_iff.mp htry).1

omit [Lowercase] in
/-- The answer is about the certificate exactly if the key is there as well. -/
theorem inspects_iff (x509 : X509 Key) {file : Text} (hfile : (files file).isSome = true) :
    Inspects host cfg files x509 file ↔ stagedCertificate host cfg = .ok file ∧ HasKey host cfg files := by
  obtain ⟨pem, hpem⟩ := Option.isSome_iff_exists.mp hfile
  unfold Inspects HasKey
  refine and_congr_right fun hcert => ⟨?_, ?_⟩
  · rintro ⟨pem', -, hreport⟩
    by_contra hmissing
    refine certificateReport_ne_missing ((hreport none 0).symm.trans (status_of_missing ?_ (.inr ?_)))
    · rfl
    · show (stagedKey host cfg).toOption.bind files = none
      cases hkey : stagedKey host cfg with
      | error err => rfl
      | ok file =>
        show files file = none
        rw [← Option.not_isSome_iff_eq_none]
        exact fun hsome => hmissing ⟨file, hkey, hsome⟩
  · rintro ⟨key, hkey, hsome⟩
    refine ⟨pem, hpem, fun domain now => ?_⟩
    obtain ⟨keyPem, hkeyPem⟩ := Option.isSome_iff_exists.mp hsome
    have hfullchain : (stagedLook host cfg files now).files .fullchain = some pem := by
      simp only [stagedLook, hcert, Except.toOption, Option.bind_some, hpem]
    have hprivkey : (stagedLook host cfg files now).files .privkey = some keyPem := by
      simp only [stagedLook, hkey, Except.toOption, Option.bind_some, hkeyPem]
    exact status_of_both rfl hfullchain hprivkey

omit [Lowercase] in
theorem isPlace_unique {place place' : Text × Text} (h : IsPlace host cfg place) (h' : IsPlace host cfg place') :
    place = place' :=
  Prod.ext (Except.ok.inj (h.1.symm.trans h'.1)) (Except.ok.inj (h.2.symm.trans h'.2))

theorem servesNew_iff (call : IssuingCall host cfg files x509) :
    ServesNew host cfg files call ↔ ServesDefault host cfg files := by
  obtain ⟨result, hresult, hmode⟩ := call.issues
  obtain ⟨key, certPem, -, hstore⟩ := provision_issues hresult hmode
  have hfresh := call.fresh certPem (x509.keyPem key) hstore
  unfold ServesNew IssuingCall.after IssuingCall.store
  rw [hstore]
  constructor
  · rintro ⟨served, hserved, hnew⟩
    obtain ⟨hplace, hdiffer⟩ := (install_certificate_iff hfresh served.1).mp hnew
    obtain ⟨pairs, hpairs, before, pair, rest, rfl, hbefore, htry⟩ := resolve_iff.mp hserved
    refine ⟨call.place, call.isPlace, hdiffer, before, pair, rest, hpairs, ?_⟩
    rcases (usable_install hfresh).mp htry with ⟨-, hcert, hkey, -⟩ | ⟨huntouched, htry'⟩
    · refine ⟨hcert, hkey, fun q hq => ⟨(hbefore q hq).1, fun ⟨chosen, husable⟩ => ?_⟩⟩
      by_contra huntouched
      exact (hbefore q hq).2 ⟨chosen, (usable_install hfresh).mpr (.inr ⟨huntouched, husable⟩)⟩
    · exact absurd ⟨served.1, .inl (usable_iff.mp htry').1, .inl hplace⟩ huntouched
  · rintro ⟨place, hplace, hdiffer, before, pair, rest, hpairs, hcert, hkey, hbefore⟩
    obtain rfl := isPlace_unique call.isPlace hplace
    have husable : tryCandidate host (files.install call.place (pairOf certPem (x509.keyPem key))) pair =
        .ok (some call.place) := (usable_install hfresh).mpr (.inl ⟨hdiffer, hcert, hkey, rfl⟩)
    obtain ⟨served, hchosen⟩ : ∃ served, Chosen host _ (before ++ pair :: rest) served :=
      chosen_exists (fun q hq => (hbefore q hq).1) ⟨_, husable⟩
    refine ⟨served, resolve_iff.mpr ⟨_, hpairs, hchosen⟩, ?_⟩
    obtain ⟨q, hq, htry⟩ := chosen_mem hchosen ⟨_, husable⟩
    rcases (usable_install hfresh).mp htry with ⟨-, -, -, rfl⟩ | ⟨huntouched, htry'⟩
    · exact (install_certificate_iff hfresh _).mpr ⟨rfl, hdiffer⟩
    · rcases List.mem_append.mp hq with hq | hq
      · exact absurd ((hbefore q hq).2 ⟨served, htry'⟩) huntouched
      · rw [List.mem_singleton.mp hq] at huntouched
        exact absurd ⟨call.place.1, .inl hcert, .inl rfl⟩ huntouched

end Spec

/-- **When the monitored certificate is the served one**, and stays so with every new certificate. -/
theorem monitored_is_served_iff {F : Type} [Lowercase] {Key : Type} (x509 : X509 Key) (host : CertHost)
    (cfg : AppSettings F) (files : Files) (served : Text × Text)
    (hserved : resolveSslPaths host cfg files = .ok (some served)) :
    (Inspects host cfg files x509 served.1 ∧ ∀ call : IssuingCall host cfg files x509, ServesNew host cfg files call) ↔
      (ServesStaged host cfg files ∧ HasKey host cfg files) ∧
        (Nonempty (IssuingCall host cfg files x509) → ServesDefault host cfg files) := by
  obtain ⟨_, _, before, pair, rest, -, -, htry⟩ := resolve_iff.mp hserved
  obtain ⟨-, -, certPem, keyPem, hcert, -⟩ := usable_iff.mp htry
  rw [inspects_iff x509 (by rw [hcert]; rfl), stagedCertificate_iff hserved]
  simp only [servesNew_iff]
  constructor
  · rintro ⟨hmonitors, hserves⟩
    exact ⟨hmonitors, fun ⟨call⟩ => hserves call⟩
  · rintro ⟨hmonitors, hserves⟩
    exact ⟨hmonitors, fun call => hserves ⟨call⟩⟩

section Example

attribute [local instance] Unicode.ascii pydanticSample

@[reducible]
def Lowercase.ascii : Lowercase where
  lower t := t.map Char.toLower
  lower_ascii _ _ := rfl

attribute [local instance] Lowercase.ascii

/-- A host without links, and the library on two pairs. A key is told by one byte here. -/
def plainHost : CertHost where
  home := some (lit "/home/pal")
  expandTilde path := some (lit "/home/pal" ++ path.drop 1)
  resolve path := .ok path
  fits certPem keyPem := decide (certPem = issuedPem ∧ keyPem = [1] ∨ certPem = signedPem ∧ keyPem = [2])

def servedDefault : Text × Text := pairIn defaultCertDir ("fullchain.pem", "privkey.pem")

def settingsWith (given : List (String × FieldValue)) : AppSettings Binary64 := fun f _ =>
  ((given.find? fun kv => lit kv.1 = f.name).map Prod.snd).getD
    ((f.type.check (f.default emptyEnvironment.host)).getD .none)

def filesWith (pair : Text × Text) : Files := fun file =>
  if file = pair.1 then some issuedPem else if file = pair.2 then some [1] else none

def lowerDefaults : List (Text × Text) :=
  [pairIn (lit "/etc/letsencrypt/live/yourdomain.duckdns.org") ("fullchain.pem", "privkey.pem"),
    pairIn (lit "/home/pal/.palmanager/certs") ("fullchain.pem", "privkey.pem")]

theorem isPlace_default (cfg : AppSettings Binary64) : IsPlace plainHost cfg servedDefault := by
  unfold IsPlace stagedCertificate stagedKey
  rw [stageDirectory_eq]
  exact ⟨rfl, rfl⟩

theorem filesWith_cases {pair : Text × Text} {file : Text} {content : Bytes} (h : filesWith pair file = some content) :
    content = issuedPem ∨ content = [1] := by
  unfold filesWith at h
  split_ifs at h <;> simp_all

theorem try_filesWith {pair : Text × Text} (hcert : pair.1.head? ≠ some '~') (hkey : pair.2.head? ≠ some '~')
    (hne : pair.2 ≠ pair.1) : tryCandidate plainHost (filesWith pair) pair = .ok (some pair) := by
  have hexpand : ∀ {path : Text}, path.head? ≠ some '~' → plainHost.locate path = .ok path := by
    intro path hpath
    simp [CertHost.locate, CertHost.expanduser, hpath, plainHost]
  refine usable_iff.mpr ⟨hexpand hcert, hexpand hkey, issuedPem, [1], ?_, ?_, ?_⟩
  · simp [filesWith]
  · simp [filesWith, hne]
  · simp [plainHost]

theorem candidates_default : candidates plainHost (settingsWith []) = some (servedDefault :: lowerDefaults) := by
  decide +kernel

theorem signed_fresh {pair : Text × Text} : Fresh plainHost (filesWith pair) signedPem [2] := by
  have hissued : ∀ n, [n] ≠ issuedPem := fun n h => absurd (congrArg List.length h) (by
    rw [List.length_singleton]
    decide +kernel)
  have hsigned : ∀ n, [n] ≠ signedPem := fun n h => absurd (congrArg List.length h) (by
    rw [List.length_singleton]
    decide +kernel)
  have hdiffer : issuedPem ≠ signedPem := fun h => absurd (congrArg List.length h) (by decide +kernel)
  refine ⟨by simp [plainHost], fun b => ?_, fun a => ?_, fun file a ha => ?_, fun file b hb => ?_⟩
  · simp [plainHost, hissued, hsigned]
  · simp [plainHost, (hsigned _).symm]
  · rcases filesWith_cases ha with rfl | rfl <;> simp [plainHost, hissued, hsigned, hdiffer]
  · rcases filesWith_cases hb with rfl | rfl <;> simp [plainHost, (hissued _).symm, hdiffer.symm]

def fallbackIo : ProvisionIo Bytes :=
  { unreachable with look := ⟨pairOf issuedPem [1], true, issuedCertificate.notValidBefore⟩ }

/-- The authority cannot be reached, and the fallback certificate takes the place of the issued one. -/
theorem fallback_issues :
    (∃ result, (provisionTlsCertificates x509Sample (lit "pal.duckdns.org") (lit "duck-token") false defaultCertDir
        fallbackIo).result = .ok result ∧ result.mode ≠ .existingValid) ∧
      (provisionTlsCertificates x509Sample (lit "pal.duckdns.org") (lit "duck-token") false defaultCertDir
        fallbackIo).store = pairOf signedPem [2] := by
  have hruns : (provisionTlsCertificates x509Sample (lit "pal.duckdns.org") (lit "duck-token") false defaultCertDir
        fallbackIo).result.toOption.map TLSProvisionResult.mode = some .selfSignedFallback ∧
      (provisionTlsCertificates x509Sample (lit "pal.duckdns.org") (lit "duck-token") false defaultCertDir
        fallbackIo).store .fullchain = some signedPem ∧
      (provisionTlsCertificates x509Sample (lit "pal.duckdns.org") (lit "duck-token") false defaultCertDir
        fallbackIo).store .privkey = some [2] := by decide +kernel
  refine ⟨?_, store_ext.mpr hruns.2⟩
  cases hresult : (provisionTlsCertificates x509Sample (lit "pal.duckdns.org") (lit "duck-token") false defaultCertDir
      fallbackIo).result with
  | error raised => simp [hresult, Except.toOption] at hruns
  | ok result =>
    rw [hresult] at hruns
    have hfallback : result.mode = .selfSignedFallback := Option.some.inj hruns.1
    exact ⟨result, rfl, by simp [hfallback]⟩

theorem storeAt_filesWith {pair : Text × Text} (hne : pair.2 ≠ pair.1) :
    storeAt (filesWith pair) pair = pairOf issuedPem [1] := by
  rw [store_ext]
  simp [storeAt, filesWith, pairOf, hne]

def fallbackCall : IssuingCall plainHost (settingsWith []) (filesWith servedDefault) x509Sample where
  domain := lit "pal.duckdns.org"
  token := lit "duck-token"
  force := false
  io := fallbackIo
  place := servedDefault
  isPlace := isPlace_default _
  look := (storeAt_filesWith (by decide +kernel)).symm
  issues := by
    rw [stageDirectory_eq]
    exact fallback_issues.1
  fresh certPem keyPem hstore := by
    rw [stageDirectory_eq, fallback_issues.2, store_ext] at hstore
    obtain ⟨rfl, rfl⟩ : signedPem = certPem ∧ [2] = keyPem := by simpa [pairOf] using hstore
    exact signed_fresh

theorem monitored_is_served_default :
    Inspects plainHost (settingsWith []) (filesWith servedDefault) x509Sample servedDefault.1 ∧
      ServesNew plainHost (settingsWith []) (filesWith servedDefault) fallbackCall := by
  have hcandidates : candidates plainHost (settingsWith []) = some ([] ++ servedDefault :: lowerDefaults) :=
    candidates_default
  have htry : tryCandidate plainHost (filesWith servedDefault) servedDefault = .ok (some servedDefault) :=
    try_filesWith (by decide +kernel) (by decide +kernel) (by decide +kernel)
  have hplace := isPlace_default (settingsWith [])
  have hkey : (filesWith servedDefault servedDefault.2).isSome = true := by decide +kernel
  have hboth := (monitored_is_served_iff x509Sample plainHost (settingsWith []) (filesWith servedDefault) servedDefault
    (resolve_iff.mpr ⟨_, hcandidates, [], servedDefault, lowerDefaults, rfl, nofun, htry⟩)).mpr
      ⟨⟨?_, servedDefault.2, hplace.2, hkey⟩, fun _ => ?_⟩
  · exact ⟨hboth.1, hboth.2 fallbackCall⟩
  · exact ⟨[], servedDefault, lowerDefaults, hcandidates, ⟨servedDefault, htry⟩,
      (usable_iff.mp htry).1.trans hplace.1.symm, nofun⟩
  · exact ⟨servedDefault, hplace, by decide +kernel, [], servedDefault, lowerDefaults, hcandidates,
      (usable_iff.mp htry).1, (usable_iff.mp htry).2.1, nofun⟩

def ownPair : Text × Text := (lit "/etc/ssl/pal.crt", lit "/etc/ssl/pal.key")

def ownSettings : AppSettings Binary64 :=
  settingsWith [("ssl_cert_path", .str ownPair.1), ("ssl_key_path", .str ownPair.2)]

theorem own_certificate_is_not_monitored :
    ¬ ∀ (x509 : X509 Bytes) (host : CertHost) (cfg : AppSettings Binary64) (files : Files) (served : Text × Text),
      resolveSslPaths host cfg files = .ok (some served) →
        Inspects host cfg files x509 served.1 ∧ ∀ call : IssuingCall host cfg files x509, ServesNew host cfg files call := by
  intro h
  have hcandidates : candidates plainHost ownSettings = some (ownPair :: servedDefault :: lowerDefaults) := by
    decide +kernel
  have htry : tryCandidate plainHost (filesWith ownPair) ownPair = .ok (some ownPair) :=
    try_filesWith (by decide +kernel) (by decide +kernel) (by decide +kernel)
  have hown := h x509Sample plainHost ownSettings (filesWith ownPair) ownPair
    (resolve_iff.mpr ⟨_, hcandidates, [], ownPair, _, rfl, nofun, htry⟩)
  have hinspected := hown.1.1.symm.trans (isPlace_default ownSettings).1
  exact absurd hinspected (by decide +kernel)

end Example

end Palworld.Tls

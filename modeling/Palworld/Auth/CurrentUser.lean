import Palworld.Auth.Session
import Palworld.Lib.Str

/-!
# The current user of a request

`get_current_user` looks for a bearer token, a session cookie and basic credentials. A
request with none of them is trusted when its client address is one of the local ones.
-/

open Lib

namespace Palworld.Auth

structure UserRecord where
  id : Int
  username : Text
  passwordHash : Text
  salt : Text
  email : Text
  role : Text
  isActive : Bool
  createdAt : Text
  lastLogin : Option Text
  deriving DecidableEq

/-- `DatabaseManager.get_user_by_username` on the rows of the users table. -/
def getUserByUsername (users : List UserRecord) (username : Text) : Option UserRecord :=
  users.find? fun user => user.username = username

/-- A request. The server hands the names of headers over in lower case. -/
structure Request where
  headers : List (Text × Text)
  cookies : List (Text × Text)
  client : Option Text   -- `request.client.host`

structure AuthState where
  lib : Libraries
  adminPassword : Text
  users : List UserRecord
  now : ℚ                -- `time.time()`
  nowIso : Text          -- `datetime.now(utc).isoformat()`

inductive AuthError
  | unauthorized (detail : Text)  -- `HTTPException` with status 401
  | raised (err : PyError)
  deriving DecidableEq

def Request.header (r : Request) (name : Text) : Option Text := lookup name r.headers

/-- The address that the proxy headers name, the first of them that is there. -/
def Request.forwardedAddress (r : Request) : Option Text :=
  (r.header (lit "cf-connecting-ip")).or
    (((r.header (lit "x-forwarded-for")).map fun value => strip (value.takeWhile (· ≠ ','))).or
      (r.header (lit "x-real-ip")))

def getClientIp (r : Request) : Text :=
  match r.forwardedAddress with
  | some address => address
  | none =>
    match r.client with
    | some host => if host = [] then lit "127.0.0.1" else host
    | none => lit "127.0.0.1"

def Request.authorization (r : Request) : Text := (r.header (lit "authorization")).getD []

def Request.bearerToken (r : Request) : Option Text :=
  if (lit "Bearer ").isPrefixOf r.authorization then some (strip (r.authorization.drop 7)) else none

def Request.cookieToken (r : Request) : Option Text := lookup (lit "pal_session_token") r.cookies

def Request.token (r : Request) : Option Text := r.bearerToken.or r.cookieToken

def Request.basicCredentials (r : Request) : Option (Text × Text) :=
  if (lit "Basic ").isPrefixOf r.authorization then
    match (b64decodeStr (strip (r.authorization.drop 6))).bind utf8Decode with
    | some decoded =>
      if ':' ∈ decoded then some (decoded.takeWhile (· ≠ ':'), (decoded.dropWhile (· ≠ ':')).tail) else none
    | none => none
  else none

variable (state : AuthState)

def activeUser (username : Text) : Option UserRecord :=
  (getUserByUsername state.users username).filter fun user => user.isActive

def basicAdmin (r : Request) : Option UserRecord :=
  if r.token = none ∧ r.basicCredentials = some (lit "admin", state.adminPassword) then activeUser state (lit "admin")
  else none

/-- The record of a local request when there is no active `admin` row. -/
def localAdmin : UserRecord where
  id := 1
  username := lit "admin"
  passwordHash := []
  salt := []
  email := lit "admin@localhost"
  role := lit "admin"
  isActive := true
  createdAt := state.nowIso
  lastLogin := none

def invalidToken : AuthError := .unauthorized (lit "Invalid or expired session token.")

def credentialsRequired : AuthError := .unauthorized (lit "Authentication credentials required.")

def tokenUser (token : Text) : Except AuthError UserRecord :=
  match verifySessionToken state.lib state.now token state.adminPassword with
  | .error err => .error (.raised err)
  | .ok none => .error invalidToken
  | .ok (some username) =>
    match activeUser state username with
    | some user => .ok user
    | none => .error invalidToken

def localAddresses : List Text := ["127.0.0.1", "::1", "testclient", "localhost"].map lit

/-- A request without any credentials. -/
def localUser (r : Request) : Except AuthError UserRecord :=
  if getClientIp r ∈ localAddresses then .ok ((activeUser state (lit "admin")).getD (localAdmin state))
  else .error credentialsRequired

/-- `get_current_user`. An empty token counts as none. -/
def getCurrentUser (r : Request) : Except AuthError UserRecord :=
  match basicAdmin state r with
  | some admin => .ok admin
  | none =>
    match r.token with
    | none | some [] => localUser state r
    | some token => tokenUser state token

/-! ## Requests from elsewhere -/

def loopbackAddresses : List Text := ["127.0.0.1", "::1", "localhost"].map lit

structure RemoteWithoutCredential (r : Request) : Prop where
  noSession : ∀ token, r.bearerToken = some token ∨ r.cookieToken = some token →
    ∀ username, verifySessionToken state.lib state.now token state.adminPassword ≠ .ok (some username)
  noBasic : r.basicCredentials ≠ some (lit "admin", state.adminPassword)
  remote : ∃ host, r.client = some host ∧ host ∉ loopbackAddresses

def AddressRefused (r : Request) : Prop :=
  match r.forwardedAddress with
  | some address => address ∉ localAddresses
  | none => r.client ≠ some [] ∧ r.client ≠ some (lit "testclient")

/-- The token, when there is one, is one that the token check survives. Otherwise the proxy headers,
when there are any, name no local address, and the peer has a name that is not that of the test client. -/
def Refused (r : Request) : Prop :=
  match r.token with
  | none | some [] => AddressRefused r
  | some token => ¬ TokenRaises state.lib token state.adminPassword

variable {state : AuthState} {r : Request}

theorem getClientIp_local (hremote : ∃ host, r.client = some host ∧ host ∉ loopbackAddresses) :
    getClientIp r ∉ localAddresses ↔ AddressRefused r := by
  obtain ⟨host, hclient, hhost⟩ := hremote
  unfold getClientIp AddressRefused
  cases r.forwardedAddress with
  | some address => rfl
  | none =>
    simp only [hclient]
    by_cases hempty : host = []
    · rw [if_pos hempty]
      constructor
      · intro h
        exact absurd (by decide +kernel) h
      · rintro ⟨h, -⟩
        exact absurd (congrArg some hempty) h
    · rw [if_neg hempty]
      simp only [localAddresses, loopbackAddresses, List.map_cons, List.map_nil, List.mem_cons, List.not_mem_nil,
        or_false, not_or, ne_eq, Option.some.injEq] at hhost ⊢
      constructor
      · rintro ⟨-, -, htest, -⟩
        exact ⟨hempty, htest⟩
      · rintro ⟨-, htest⟩
        exact ⟨hhost.1, hhost.2.1, htest, hhost.2.2⟩

theorem localUser_refused : (∃ detail, localUser state r = .error (.unauthorized detail)) ↔
    getClientIp r ∉ localAddresses := by
  unfold localUser
  split
  · rename_i h
    constructor
    · rintro ⟨_, hd⟩
      cases hd
    · intro hn
      exact absurd h hn
  · rename_i h
    exact ⟨fun _ => h, fun _ => ⟨_, rfl⟩⟩

theorem tokenUser_refused {token : Text} (hnone : ∀ username,
    verifySessionToken state.lib state.now token state.adminPassword ≠ .ok (some username)) :
    (∃ detail, tokenUser state token = .error (.unauthorized detail)) ↔
      ¬ TokenRaises state.lib token state.adminPassword := by
  rw [← verifySessionToken_raises state.lib state.now]
  unfold tokenUser
  cases hverify : verifySessionToken state.lib state.now token state.adminPassword with
  | error err =>
    constructor
    · rintro ⟨_, h⟩
      cases h
    · intro h
      exact absurd ⟨err, rfl⟩ h
  | ok username =>
    cases username with
    | some username => exact absurd hverify (hnone username)
    | none =>
      refine ⟨fun _ => ?_, fun _ => ⟨_, rfl⟩⟩
      rintro ⟨_, h⟩
      cases h

/-- **When a remote request without a credential is refused.** A token must not make the token check
raise, and without a token the address that the request claims must not be a local one. -/
theorem remote_refused_iff (h : RemoteWithoutCredential state r) :
    (∃ detail, getCurrentUser state r = .error (.unauthorized detail)) ↔ Refused state r := by
  have hbasic : basicAdmin state r = none := if_neg fun hadmin => h.noBasic hadmin.2
  unfold getCurrentUser Refused
  rw [hbasic]
  cases htoken : r.token with
  | none => exact localUser_refused.trans (getClientIp_local h.remote)
  | some token =>
    cases token with
    | nil => exact localUser_refused.trans (getClientIp_local h.remote)
    | cons c rest =>
      have hcarried : r.bearerToken = some (c :: rest) ∨ r.cookieToken = some (c :: rest) := by
        rcases Option.or_eq_some_iff.mp htoken with hbearer | ⟨-, hcookie⟩
        · exact .inl hbearer
        · exact .inr hcookie
      exact tokenUser_refused (h.noSession _ hcarried)

/-! ## Two remote requests -/

def emptyLibraries : Libraries := ⟨fun _ _ => [], fun _ => .error .valueError⟩

def sampleState : AuthState := ⟨emptyLibraries, lit "s3cret", [], 0, []⟩

def remoteRequest (headers : List (Text × Text)) : Request := ⟨headers, [], some (lit "203.0.113.9")⟩

theorem remoteRequest_premise {headers : List (Text × Text)} (hauth : lookup (lit "authorization") headers = none) :
    RemoteWithoutCredential sampleState (remoteRequest headers) := by
  have hempty : (remoteRequest headers).authorization = [] := by
    rw [Request.authorization, Request.header, remoteRequest, hauth]
    rfl
  refine ⟨fun token hcarried => ?_, ?_, lit "203.0.113.9", rfl, by decide +kernel⟩
  · rcases hcarried with hbearer | hcookie
    · rw [Request.bearerToken, hempty, if_neg (by decide +kernel)] at hbearer
      cases hbearer
    · cases hcookie
  · rw [Request.basicCredentials, hempty, if_neg (by decide +kernel)]
    simp

theorem remote_refused_without_headers :
    ∃ detail, getCurrentUser sampleState (remoteRequest []) = .error (.unauthorized detail) :=
  (remote_refused_iff (remoteRequest_premise rfl)).mpr ⟨by decide +kernel, by decide +kernel⟩

/-- A remote request that names a local address in a proxy header is the administrator. -/
theorem forged_header_is_admin : ¬ ∀ (state : AuthState) (r : Request), RemoteWithoutCredential state r →
    ∃ detail, getCurrentUser state r = .error (.unauthorized detail) := by
  intro h
  obtain ⟨detail, hrefused⟩ := h sampleState (remoteRequest [(lit "x-forwarded-for", lit "127.0.0.1")])
    (remoteRequest_premise (by decide +kernel))
  have hadmin : getCurrentUser sampleState (remoteRequest [(lit "x-forwarded-for", lit "127.0.0.1")])
      = .ok (localAdmin sampleState) := by decide +kernel
  rw [hadmin] at hrefused
  cases hrefused

/-! ## Whose record comes back -/

def AuthState.LiveRow (state : AuthState) (user : UserRecord) : Prop :=
  user ∈ state.users ∧ user.isActive = true

def LocalWithoutToken (r : Request) : Prop :=
  (r.token = none ∨ r.token = some []) ∧ getClientIp r ∈ localAddresses

theorem activeUser_live {username : Text} {user : UserRecord} (h : activeUser state username = some user) :
    state.LiveRow user := by
  obtain ⟨hfound, hactive⟩ := Option.filter_eq_some_iff.mp h
  exact ⟨List.mem_of_find?_eq_some hfound, hactive⟩

theorem basicAdmin_live {user : UserRecord} (h : basicAdmin state r = some user) : state.LiveRow user := by
  unfold basicAdmin at h
  split at h
  · exact activeUser_live h
  · cases h

theorem tokenUser_live {token : Text} {user : UserRecord} (h : tokenUser state token = .ok user) :
    state.LiveRow user := by
  unfold tokenUser at h
  cases hverify : verifySessionToken state.lib state.now token state.adminPassword with
  | error err => simp only [hverify] at h; cases h
  | ok username =>
    cases username with
    | none => simp only [hverify] at h; cases h
    | some username =>
      simp only [hverify] at h
      cases hfound : activeUser state username with
      | none => rw [hfound] at h; cases h
      | some found =>
        rw [hfound] at h
        cases h
        exact activeUser_live hfound

theorem localUser_live {user : UserRecord} (h : localUser state r = .ok user) :
    getClientIp r ∈ localAddresses ∧
      (state.LiveRow user ∨ user = localAdmin state ∧ activeUser state (lit "admin") = none) := by
  unfold localUser at h
  split at h
  · rename_i hlocal
    refine ⟨hlocal, ?_⟩
    cases hadmin : activeUser state (lit "admin") with
    | some admin =>
      rw [hadmin] at h
      cases h
      exact .inl (activeUser_live hadmin)
    | none =>
      rw [hadmin] at h
      cases h
      exact .inr ⟨rfl, rfl⟩
  · cases h

/-- **Whose record a request gets.** It is a live row, whatever the route. The one other record is the
administrator that the code makes up for a local request without a token, when no live row is named `admin`. -/
theorem current_user_live_or_local {user : UserRecord} (h : getCurrentUser state r = .ok user) :
    state.LiveRow user ∨
      user = localAdmin state ∧ LocalWithoutToken r ∧ activeUser state (lit "admin") = none := by
  have of_local (htoken : r.token = none ∨ r.token = some []) (hlocal : localUser state r = .ok user) :
      state.LiveRow user ∨
        user = localAdmin state ∧ LocalWithoutToken r ∧ activeUser state (lit "admin") = none := by
    obtain ⟨haddress, hlive | ⟨hmade, hnone⟩⟩ := localUser_live hlocal
    · exact .inl hlive
    · exact .inr ⟨hmade, ⟨htoken, haddress⟩, hnone⟩
  unfold getCurrentUser at h
  cases hbasic : basicAdmin state r with
  | some admin =>
    rw [hbasic] at h
    cases h
    exact .inl (basicAdmin_live hbasic)
  | none =>
    simp only [hbasic] at h
    cases htoken : r.token with
    | none =>
      simp only [htoken] at h
      exact of_local (.inl htoken) h
    | some token =>
      simp only [htoken] at h
      cases token with
      | nil => exact of_local (.inr htoken) h
      | cons c rest => exact .inl (tokenUser_live h)

def disabledAdmin : AuthState :=
  { sampleState with users := [⟨1, lit "admin", lit "5f4d", lit "a1", [], lit "admin", false, [], none⟩] }

def loopbackRequest : Request := ⟨[], [], some (lit "127.0.0.1")⟩

theorem loopback_of_disabledAdmin : getCurrentUser disabledAdmin loopbackRequest = .ok (localAdmin disabledAdmin) := by
  decide +kernel

theorem loopback_live_or_local : disabledAdmin.LiveRow (localAdmin disabledAdmin) ∨
    localAdmin disabledAdmin = localAdmin disabledAdmin ∧ LocalWithoutToken loopbackRequest ∧
      activeUser disabledAdmin (lit "admin") = none :=
  current_user_live_or_local loopback_of_disabledAdmin

/-- With its administrator disabled, the portal still takes a local request for one. -/
theorem disabled_admin_acts : ¬ ∀ (state : AuthState) (r : Request) (user : UserRecord),
    getCurrentUser state r = .ok user → state.LiveRow user := by
  intro h
  have hrow := (h disabledAdmin loopbackRequest _ loopback_of_disabledAdmin).1
  exact absurd hrow (by decide +kernel)

/-! ## Tokens that are not accepted -/

def NotAccepted (state : AuthState) (token : Text) : Prop :=
  ∀ username, verifySessionToken state.lib state.now token state.adminPassword ≠ .ok (some username)

/-- The token check returns, and a request whose token is not accepted is answered with 401. -/
structure CheckReturns (state : AuthState) (token : Text) : Prop where
  returns : ∃ username, verifySessionToken state.lib state.now token state.adminPassword = .ok username
  answers : ∀ r : Request, r.token = some token → token ≠ [] → NotAccepted state token →
    ∃ detail, getCurrentUser state r = .error (.unauthorized detail)

theorem getCurrentUser_token {token : Text} (htoken : r.token = some token) (hne : token ≠ []) : getCurrentUser state r = tokenUser state token := by
  have hbasic : basicAdmin state r = none := if_neg fun hadmin => by
    rw [htoken] at hadmin
    cases hadmin.1
  unfold getCurrentUser
  rw [hbasic, htoken]
  cases token with
  | nil => exact absurd rfl hne
  | cons c token => rfl

/-- **The token check.** It returns, and no request makes it raise, if and only if the signature is ASCII and no signed payload is
other than the check expects. -/
theorem token_check_returns_iff (state : AuthState) (token : Text) :
    CheckReturns state token ↔ ¬TokenRaises state.lib token state.adminPassword := by
  have hraises := verifySessionToken_raises state.lib state.now token state.adminPassword
  constructor
  · intro h htoken
    obtain ⟨err, herr⟩ := hraises.mpr htoken
    obtain ⟨username, husername⟩ := h.returns
    rw [husername] at herr
    cases herr
  · intro h
    refine ⟨?_, fun r htoken hne hmalformed => ?_⟩
    · cases hverify : verifySessionToken state.lib state.now token state.adminPassword with
      | ok username => exact ⟨username, rfl⟩
      | error err => exact absurd (hraises.mp ⟨err, hverify⟩) h
    · rw [getCurrentUser_token htoken hne]
      exact (tokenUser_refused hmalformed).mpr h

/-- A text that a header carries. -/
def isLatin1 (t : Text) : Bool := t.all fun c => c.toNat < 256

def accentedToken : Text := lit "a.é"

theorem accentedToken_raises : verifySessionToken emptyLibraries 0 accentedToken (lit "s3cret") = .error .typeError := by decide +kernel

/-- The comparison raises on a signature that is not ASCII. -/
theorem accented_signature_raises : ¬∀ (state : AuthState) (token : Text), isLatin1 token = true → CheckReturns state token := by
  intro h
  obtain ⟨username, husername⟩ := (h sampleState accentedToken (by decide)).returns
  cases accentedToken_raises.symm.trans husername

end Palworld.Auth

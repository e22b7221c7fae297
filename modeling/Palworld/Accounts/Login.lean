import Palworld.Accounts.Bootstrap
import Palworld.Auth.Tokens
import Palworld.Database.Permissions
import Palworld.Lib.Paging

/-!
# Logins and their audit trail

Each login that is answered leaves a record of its outcome. The first login of an administrator waits for a thread between
its record and its answer, and other logins are handled meanwhile. A statement may fail at any point, and the process may
start anew at any time.
-/

open Lib Lib.Db
open Palworld.Auth (UserRecord TokenLibraries generateSessionToken getClientIp)
open Palworld.Database

namespace Palworld.Accounts

structure LoginAuditRow where
  id : Int
  username : Text
  timestamp : Text
  ipAddress : Text
  userAgent : Text
  status : Text
  failureReason : Text
  deriving DecidableEq

/-- The tables of users and permissions, and the audit trail in the order of its ids. -/
structure PortalData where
  tables : Tables
  audits : List LoginAuditRow
  auditSeq : Int

/-- What `record_login_audit` is given, and the time. -/
structure NewAudit where
  username : Text
  timestamp : Text
  ipAddress : Text
  userAgent : Text
  status : Text
  failureReason : Text

def NewAudit.row (new : NewAudit) (id : Int) : LoginAuditRow :=
  ⟨id, new.username, new.timestamp, new.ipAddress, new.userAgent, new.status, new.failureReason⟩

def PortalData.insertAudit (new : NewAudit) (d : PortalData) : Int × PortalData :=
  (d.auditSeq + 1, { d with audits := d.audits ++ [new.row (d.auditSeq + 1)], auditSeq := d.auditSeq + 1 })

abbrev PortalCall (α : Type) := Db PortalData Failure α

/-- `record_login_audit`, with the new id. -/
def recordAudit (new : NewAudit) : PortalCall Int := do
  let newId ← execute fun d => some (d.insertAudit new)
  commit
  return newId

def listLoginAudits (limit offset : Int) : PortalCall (List LoginAuditRow) :=
  query fun d => page limit offset d.audits.reverse

/-- A statement on the tables that reports nothing, and its commit. -/
def writeTables (f : Tables → Tables) : PortalCall Unit := do
  execute fun d => some ((), { d with tables := f d.tables })
  commit

/-! ## The handler -/

/-- A request to log in, the clock and the nonce drawn for it. -/
structure LoginAttempt where
  request : Auth.Request
  username : Text
  password : Text
  now : ℚ
  nowIso : Text
  nonce : Text

def LoginAttempt.userAgent (attempt : LoginAttempt) : Text := (attempt.request.header (lit "user-agent")).getD (lit "Unknown")

structure LoginResponse where
  token : Text
  username : Text
  role : Text
  permissions : List Text
  deriving DecidableEq

def PortalData.findUser (username : Text) (d : PortalData) : Option UserRecord :=
  (d.tables.users.find? fun row => row.username = username).map rowToUser

/-- The account that the credentials of an attempt open. -/
def PortalData.opens (env : Environment) (attempt : LoginAttempt) (d : PortalData) : Option UserRecord :=
  (d.findUser attempt.username).filter fun user => user.isActive && env.verifyPassword attempt.password user.salt user.passwordHash

/-- The reason of a refusal. -/
def refusalReason (found : Option UserRecord) : Text :=
  if found.any fun user => !user.isActive then lit "Account disabled" else lit "Invalid credentials"

def LoginAttempt.audit (attempt : LoginAttempt) (username status reason : Text) : NewAudit where
  username := username
  timestamp := attempt.nowIso
  ipAddress := getClientIp attempt.request
  userAgent := attempt.userAgent
  status := status
  failureReason := reason

def invalidLogin : Failure := .http 401 (lit "Invalid username or password.")

/-- The lifetime of a token. -/
def tokenSeconds : Int := 86400

/-- How far a handler gets before it returns or waits. -/
inductive LoginTurn
  | response (response : LoginResponse)
  | awaiting (user : UserRecord) (token : Text)  -- in `asyncio.to_thread(acknowledge_bootstrap, db)`

/-- The end of `login`, behind the acknowledgement. -/
def answerLogin (user : UserRecord) (token : Text) : PortalCall LoginTurn := do
  let permissions ← query fun d => d.tables.permissionsOf user.id
  return .response ⟨token, user.username, user.role, permissions⟩

/-- `login`, up to its `await`. `pending` is that of the bootstrap state. -/
def loginUser (env : Environment) (lib : TokenLibraries) (adminPassword : Text) (attempt : LoginAttempt) (pending : Bool) :
    PortalCall LoginTurn := do
  let found ← query fun d => d.findUser attempt.username
  match found.filter fun user => user.isActive && env.verifyPassword attempt.password user.salt user.passwordHash with
  | none =>
    let _ ← recordAudit (attempt.audit attempt.username (lit "FAILED") (refusalReason found))
    throw invalidLogin
  | some user =>
    match generateSessionToken lib attempt.now attempt.nonce user.username adminPassword tokenSeconds with
    | none => throw (.runtimeError [])  -- `int` has no text of that many digits
    | some token =>
      let _ ← recordAudit (attempt.audit user.username (lit "SUCCESS") [])
      writeTables fun t => t.updateLastLogin user.id attempt.nowIso
      if pending && user.role = lit "admin" then return .awaiting user token else answerLogin user token

/-- What `acknowledge_bootstrap` does to the database. The mark is in a table of its own. -/
def sealBootstrap : PortalCall Unit := writeTables id

/-! ## Runs -/

/-- A statement of another method. -/
inductive OtherStatement
  | write (f : Tables → Option Tables)
  | commit

def OtherStatement.run : OtherStatement → PortalCall Unit
  | .write f => execute fun d => (f d.tables).map fun tables => ((), { d with tables })
  | .commit => Lib.commit

/-- Where a login is. -/
inductive LoginState
  | lost                                                          -- it raised, or the process is gone
  | awaiting (user : UserRecord) (token : Text)
  | acknowledged (user : UserRecord) (token : Text) (fine : Bool)  -- the thread is done, and has raised or not
  | answered (ok : Bool)                                          -- that the credentials were right, or that they were not

def stateOf : Except Failure LoginTurn → LoginState
  | .ok (.response _) => .answered true
  | .ok (.awaiting user token) => .awaiting user token
  | .error err => if err = invalidLogin then .answered false else .lost

/-- A login that was begun, with whether its credentials were right at that moment. -/
structure BegunLogin where
  attempt : LoginAttempt
  good : Bool
  state : LoginState

def BegunLogin.goTo (state : LoginState) (login : BegunLogin) : BegunLogin := { login with state }

def BegunLogin.isAnswered (login : BegunLogin) : Bool :=
  match login.state with
  | .answered _ => true
  | _ => false

/-- A new process answers no login of the old one. -/
def BegunLogin.restart (login : BegunLogin) : BegunLogin := if login.isAnswered then login else login.goTo .lost

/-- What happens to the database, with the outcomes of the statements. The number of a login is its place among those begun. -/
inductive PortalEvent
  | login (env : Environment) (lib : TokenLibraries) (adminPassword : Text) (attempt : LoginAttempt) (pending : Bool) (faults : List Bool)
  | acknowledge (i : Nat) (faults : List Bool)  -- the thread that login `i` waits for
  | resume (i : Nat) (faults : List Bool)
  | other (statements : List OtherStatement) (faults : List Bool)  -- a method that touches no audit record
  | restart

/-- The database, and the logins in the order in which they were begun. -/
structure AuditedPortal where
  session : Session PortalData
  logins : List BegunLogin

def AuditedPortal.handle (p : AuditedPortal) : PortalEvent → AuditedPortal
  | .login env lib adminPassword attempt pending faults =>
    let outcome := (loginUser env lib adminPassword attempt pending).on { p.session with faults }
    ⟨outcome.2, p.logins ++ [⟨attempt, (p.session.current.opens env attempt).isSome, stateOf outcome.1⟩]⟩
  | .acknowledge i faults =>
    match p.logins[i]?.map BegunLogin.state with
    | some (.awaiting user token) =>
      let outcome := sealBootstrap.on { p.session with faults }
      ⟨outcome.2, p.logins.modify i (BegunLogin.goTo (.acknowledged user token outcome.1.isOk))⟩
    | _ => p
  | .resume i faults =>
    match p.logins[i]?.map BegunLogin.state with
    | some (.acknowledged user token true) =>
      let outcome := (answerLogin user token).on { p.session with faults }
      ⟨outcome.2, p.logins.modify i (BegunLogin.goTo (stateOf outcome.1))⟩
    | some (.acknowledged _ _ false) => { p with logins := p.logins.modify i (BegunLogin.goTo .lost) }
    | _ => p
  | .other statements faults => { p with session := ((statements.forM OtherStatement.run).on { p.session with faults }).2 }
  | .restart => ⟨⟨p.session.stored, p.session.stored, []⟩, p.logins.map BegunLogin.restart⟩

def Handles (p : AuditedPortal) (event : PortalEvent) (p' : AuditedPortal) : Prop := p.handle event = p'

/-- What a record says, apart from its id, its time and its reason. -/
structure AuditEntry where
  username : Text
  ipAddress : Text
  userAgent : Text
  status : Text
  deriving DecidableEq

def LoginAuditRow.entry (row : LoginAuditRow) : AuditEntry := ⟨row.username, row.ipAddress, row.userAgent, row.status⟩

/-- The entry that an attempt is to leave. -/
def entryOf (attempt : LoginAttempt) (good : Bool) : AuditEntry where
  username := attempt.username
  ipAddress := getClientIp attempt.request
  userAgent := attempt.userAgent
  status := if good then lit "SUCCESS" else lit "FAILED"

def BegunLogin.entry (login : BegunLogin) : AuditEntry := entryOf login.attempt login.good

/-- The trail in the file, as a new process lists it, has the records of `d` and those of the logins since, in the order in
which these were begun. Each answered login has its record, with the answer it was given, and no record is of anything but a
login that was begun. -/
def TrailKept (d : PortalData) (p : AuditedPortal) : Prop :=
  ∃ added : List LoginAuditRow,
    (∀ limit offset, ((listLoginAudits limit offset).on ⟨p.session.stored, p.session.stored, []⟩).1 =
      .ok (page limit offset (d.audits ++ added).reverse)) ∧
    ((p.logins.filter BegunLogin.isAnswered).map BegunLogin.entry).Sublist (added.map LoginAuditRow.entry) ∧
    (added.map LoginAuditRow.entry).Sublist (p.logins.map BegunLogin.entry) ∧
    ∀ login ∈ p.logins, ∀ ok, login.state = .answered ok → ok = login.good

/-! ## What a method does to the trail -/

variable {α β : Type} {s s' : Session PortalData} {d : PortalData} {env : Environment} {lib : TokenLibraries} {adminPassword : Text}
  {attempt : LoginAttempt} {pending : Bool} {p p' : AuditedPortal} {event : PortalEvent} {as : List PortalEvent}

/-- From `s` to `s'` no record is written. A commit stores those that were. -/
structure Unrecorded (s s' : Session PortalData) : Prop where
  current : s'.current.audits = s.current.audits
  stored : s'.stored.audits = s.stored.audits ∨ s'.stored.audits = s.current.audits

theorem unrecorded_next (s : Session PortalData) : Unrecorded s s.next := ⟨rfl, .inl rfl⟩

theorem Unrecorded.trans {m : Session PortalData} (h : Unrecorded s m) (h' : Unrecorded m s') : Unrecorded s s' := by
  refine ⟨h'.current.trans h.current, ?_⟩
  rcases h'.stored with hstored | hstored
  · rw [hstored]
    exact h.stored
  · rw [hstored, h.current]
    exact .inr rfl

theorem Unrecorded.of_faults {faults : List Bool} (h : Unrecorded { s with faults } s') : Unrecorded s s' := ⟨h.current, h.stored⟩

/-- The method writes no record, and raises nothing but what a statement raises. -/
def Plain (x : PortalCall α) : Prop := ∀ s, Unrecorded s (x.on s).2 ∧ (x.on s).1 ≠ .error invalidLogin

theorem plain_pure (a : α) : Plain (pure a : PortalCall α) := fun s => ⟨⟨rfl, .inl rfl⟩, fun h => (by cases h)⟩

theorem plain_query (f : PortalData → α) : Plain (query f : PortalCall α) := by
  intro s
  rw [on_query]
  split <;> exact ⟨unrecorded_next s, fun h => (by cases h)⟩

theorem plain_execute {write : PortalData → Option (α × PortalData)}
    (h : ∀ d a d', write d = some (a, d') → d'.audits = d.audits) : Plain (execute write : PortalCall α) := by
  intro s
  rw [on_execute]
  split
  · exact ⟨unrecorded_next s, fun h => (by cases h)⟩
  · cases hwrite : write s.current with
    | none => exact ⟨unrecorded_next s, fun h => (by cases h)⟩
    | some out => exact ⟨⟨h _ _ _ hwrite, .inl rfl⟩, fun h => (by cases h)⟩

theorem plain_commit : Plain (commit : PortalCall Unit) := by
  intro s
  rw [on_commit]
  split
  · exact ⟨unrecorded_next s, fun h => (by cases h)⟩
  · exact ⟨⟨rfl, .inr rfl⟩, fun h => (by cases h)⟩

theorem Plain.bind {x : PortalCall α} {f : α → PortalCall β} (hx : Plain x) (hf : ∀ a, Plain (f a)) : Plain (x >>= f) := by
  intro s
  obtain ⟨hquiet, hraised⟩ := hx s
  rw [Db.on_bind]
  rcases hrun : x.on s with ⟨result, m⟩
  rw [hrun] at hquiet hraised
  cases result with
  | error err => exact ⟨hquiet, fun h => hraised (by cases h; rfl)⟩
  | ok a => exact ⟨hquiet.trans (hf a m).1, (hf a m).2⟩

theorem plain_forM {f : α → PortalCall Unit} (hf : ∀ a, Plain (f a)) (as : List α) : Plain (as.forM f) := by
  induction as with
  | nil => exact plain_pure ()
  | cons a as ih => exact (hf a).bind fun _ => ih

theorem plain_writeTables (f : Tables → Tables) : Plain (writeTables f) := by
  refine Plain.bind (plain_execute ?_) fun _ => plain_commit
  rintro d a d' ⟨⟩
  rfl

theorem plain_answerLogin (user : UserRecord) (token : Text) : Plain (answerLogin user token) :=
  (plain_query _).bind fun _ => plain_pure _

theorem OtherStatement.plain (statement : OtherStatement) : Plain statement.run := by
  cases statement with
  | write f =>
    refine plain_execute fun d a d' h => ?_
    obtain ⟨tables, -, hout⟩ := Option.map_eq_some_iff.mp h
    cases hout
    rfl
  | commit => exact plain_commit

/-! ## What an attempt does to it -/

/-- The record is written, and stored with all that were written before. -/
structure Stored (s s' : Session PortalData) (row : LoginAuditRow) : Prop where
  current : s'.current.audits = s.current.audits ++ [row]
  stored : s'.stored.audits = s'.current.audits

theorem Stored.later {m : Session PortalData} {row : LoginAuditRow} (h : Stored s m row) (h' : Unrecorded m s') : Stored s s' row := by
  refine ⟨h'.current.trans h.current, ?_⟩
  rcases h'.stored with hstored | hstored
  · rw [hstored, h.stored, h'.current]
  · rw [hstored, h'.current]

/-- What the state says of the credentials is right. -/
def LoginState.Fits (good : Bool) : LoginState → Prop
  | .lost => True
  | .awaiting _ _ | .acknowledged _ _ _ => good = true
  | .answered ok => ok = good

/-- Nothing is written, or a record is and is left open, or it is stored. Only then is the attempt answered, or waits. -/
inductive Leaves (s s' : Session PortalData) (entry : AuditEntry) (good : Bool) (state : LoginState) : Prop
  | nothing (hcurrent : s'.current.audits = s.current.audits) (hstored : s'.stored.audits = s.stored.audits) (hstate : state = .lost)
  | written {row : LoginAuditRow} (hentry : row.entry = entry) (hcurrent : s'.current.audits = s.current.audits ++ [row])
    (hstored : s'.stored.audits = s.stored.audits) (hstate : state = .lost)
  | recorded {row : LoginAuditRow} (hentry : row.entry = entry) (hstored : Stored s s' row) (hstate : state.Fits good)

theorem stateOf_error {err : Failure} (h : err ≠ invalidLogin) : stateOf (.error err) = .lost := by simp [stateOf, h]

/-- What comes after the record writes no other, and answers as it is to. -/
def Finishes (good : Bool) (x : PortalCall LoginTurn) : Prop :=
  ∀ s, Unrecorded s (x.on s).2 ∧ (stateOf (x.on s).1).Fits good

theorem Plain.finishes {x : PortalCall LoginTurn} (h : Plain x) : Finishes true x := by
  intro s
  obtain ⟨hquiet, hraised⟩ := h s
  refine ⟨hquiet, ?_⟩
  cases hresult : (x.on s).1 with
  | ok turn => cases turn <;> rfl
  | error err =>
    rw [stateOf_error fun herr => hraised (by rw [hresult, herr])]
    trivial

theorem finishes_refusal : Finishes false (throw invalidLogin) := by
  intro s
  have hrefused : stateOf (.error invalidLogin) = .answered false := by simp [stateOf]
  refine ⟨⟨rfl, .inl rfl⟩, ?_⟩
  show (stateOf (.error invalidLogin)).Fits false
  rw [hrefused]
  rfl

theorem leaves_recordAudit {new : NewAudit} {entry : AuditEntry} {good : Bool} {rest : Int → PortalCall LoginTurn}
    (hentry : ∀ id, (new.row id).entry = entry) (hrest : ∀ id, Finishes good (rest id)) (s : Session PortalData) :
    Leaves s ((recordAudit new >>= rest).on s).2 entry good (stateOf ((recordAudit new >>= rest).on s).1) := by
  have hsqlite : stateOf (.error (.sqlite .operational)) = .lost := stateOf_error (by decide)
  unfold recordAudit
  rw [Db.on_bind, Db.on_bind, on_execute]
  by_cases hfault : s.Faulty
  · rw [if_pos hfault]
    exact .nothing rfl rfl hsqlite
  · rw [if_neg hfault]
    dsimp only
    rw [Db.on_bind, on_commit]
    split_ifs
    · exact .written (hentry _) rfl rfl hsqlite
    · exact .recorded (hentry _) (Stored.later ⟨rfl, rfl⟩ (hrest _ _).1) (hrest _ _).2

theorem Leaves.of_faults {faults : List Bool} {entry : AuditEntry} {good : Bool} {state : LoginState}
    (h : Leaves { s with faults } s' entry good state) : Leaves s s' entry good state := by
  cases h with
  | nothing hcurrent hstored hstate => exact .nothing hcurrent hstored hstate
  | written hentry hcurrent hstored hstate => exact .written hentry hcurrent hstored hstate
  | recorded hentry hstored hstate => exact .recorded hentry ⟨hstored.current, hstored.stored⟩ hstate

theorem findUser_username {username : Text} {user : UserRecord} (h : d.findUser username = some user) : user.username = username := by
  obtain ⟨row, hrow, rfl⟩ := Option.map_eq_some_iff.mp h
  have hname : row.username = username := by simpa using List.find?_some hrow
  exact hname

variable (env lib adminPassword attempt pending) in
theorem loginUser_leaves (s : Session PortalData) :
    Leaves s ((loginUser env lib adminPassword attempt pending).on s).2 (entryOf attempt (s.current.opens env attempt).isSome)
      (s.current.opens env attempt).isSome (stateOf ((loginUser env lib adminPassword attempt pending).on s).1) := by
  unfold loginUser
  rw [Db.on_bind, on_query]
  by_cases hfault : s.Faulty
  · rw [if_pos hfault]
    exact .nothing rfl rfl (@stateOf_error (.sqlite .operational) (by decide))
  · rw [if_neg hfault]
    dsimp only
    rw [← PortalData.opens]
    cases hopens : s.current.opens env attempt with
    | none => exact (leaves_recordAudit (fun _ => rfl) (fun _ => finishes_refusal) s.next).of_faults
    | some user =>
      have hname := findUser_username (Option.filter_eq_some_iff.mp hopens).1
      dsimp only
      cases generateSessionToken lib attempt.now attempt.nonce user.username adminPassword tokenSeconds with
      | none => exact .nothing rfl rfl (@stateOf_error (.runtimeError []) (by decide))
      | some token =>
        refine (leaves_recordAudit (fun _ => ?_) (fun _ => ?_) s.next).of_faults
        · unfold LoginAuditRow.entry entryOf NewAudit.row LoginAttempt.audit
          simp only [hname, Option.isSome_some, if_true]
        · refine Plain.finishes ((plain_writeTables _).bind fun _ => ?_)
          split
          · exact plain_pure _
          · exact plain_answerLogin user token

/-! ## The trail -/

def BegunLogin.isLost (login : BegunLogin) : Bool :=
  match login.state with
  | .lost => true
  | _ => false

/-- The entries of the logins whose record is in the file for sure: they are answered, or they wait. -/
def heldEntries (logins : List BegunLogin) : List AuditEntry := (logins.filter fun login => !login.isLost).map BegunLogin.entry

theorem heldEntries_append (logins more : List BegunLogin) : heldEntries (logins ++ more) = heldEntries logins ++ heldEntries more := by
  simp [heldEntries]

theorem answered_sublist (logins : List BegunLogin) :
    ((logins.filter BegunLogin.isAnswered).map BegunLogin.entry).Sublist (heldEntries logins) := by
  refine List.Sublist.map _ (List.monotone_filter_right logins ?_)
  rintro ⟨attempt, good, state⟩ h
  cases state <;> trivial

/-- A login that has its record goes on, or is lost. -/
theorem heldEntries_modify {logins : List BegunLogin} {i : Nat} (state : LoginState)
    (hheld : ∀ login, logins[i]? = some login → login.isLost = false) :
    (heldEntries (logins.modify i (BegunLogin.goTo state))).Sublist (heldEntries logins) := by
  unfold heldEntries
  induction logins generalizing i with
  | nil => simp
  | cons login logins ih =>
    cases i with
    | zero =>
      have hlogin : login.isLost = false := hheld login rfl
      rw [List.modify_zero_cons, List.filter_cons, List.filter_cons, hlogin]
      split
      · exact List.Sublist.refl _
      · exact List.sublist_cons_self _ _
    | succ i =>
      have hrest := ih (i := i) fun login hlogin => hheld login hlogin
      rw [List.modify_succ_cons, List.filter_cons, List.filter_cons]
      split
      · exact hrest.cons_cons _
      · exact hrest

theorem heldEntries_restart (logins : List BegunLogin) : (heldEntries (logins.map BegunLogin.restart)).Sublist (heldEntries logins) := by
  unfold heldEntries
  induction logins with
  | nil => simp
  | cons login logins ih =>
    obtain ⟨attempt, good, state⟩ := login
    rw [List.map_cons, List.filter_cons, List.filter_cons]
    cases state with
    | lost => exact ih
    | awaiting | acknowledged => exact ih.cons _
    | answered => exact ih.cons_cons _

theorem entry_modify (logins : List BegunLogin) (i : Nat) (state : LoginState) :
    (logins.modify i (BegunLogin.goTo state)).map BegunLogin.entry = logins.map BegunLogin.entry := by
  induction logins generalizing i with
  | nil => simp
  | cons login logins ih =>
    cases i with
    | zero => rfl
    | succ i => rw [List.modify_succ_cons, List.map_cons, List.map_cons, ih]

theorem entry_restart (logins : List BegunLogin) : (logins.map BegunLogin.restart).map BegunLogin.entry = logins.map BegunLogin.entry := by
  rw [List.map_map]
  refine List.map_congr_left fun login _ => ?_
  show (BegunLogin.restart login).entry = login.entry
  unfold BegunLogin.restart
  split <;> rfl

theorem mem_modify {logins : List BegunLogin} {i : Nat} {f : BegunLogin → BegunLogin} {login : BegunLogin} (h : login ∈ logins.modify i f) :
    login ∈ logins ∨ ∃ old, logins[i]? = some old ∧ login = f old := by
  obtain ⟨j, hj, rfl⟩ := List.mem_iff_getElem.mp h
  rw [List.getElem_modify]
  rw [List.length_modify] at hj
  split
  · rename_i hij
    subst hij
    exact .inr ⟨logins[i], List.getElem?_eq_getElem hj, rfl⟩
  · exact .inl (List.getElem_mem hj)

/-- The records since the beginning, of the connection and of the file. -/
structure TrailInv (d : PortalData) (p : AuditedPortal) (written added : List LoginAuditRow) : Prop where
  current : p.session.current.audits = d.audits ++ written
  stored : p.session.stored.audits = d.audits ++ added
  begins : added <+: written
  held : (heldEntries p.logins).Sublist (added.map LoginAuditRow.entry)
  begun : (written.map LoginAuditRow.entry).Sublist (p.logins.map BegunLogin.entry)
  fits : ∀ login ∈ p.logins, login.state.Fits login.good

variable {written added : List LoginAuditRow}

/-- A login that waits goes on, and the database meanwhile does what writes no record. -/
theorem TrailInv.goOn (h : TrailInv d p written added) {i : Nat} {login : BegunLogin} (hlogin : p.logins[i]? = some login)
    (hheld : login.isLost = false) (state : LoginState) (hstate : state.Fits login.good) (hquiet : Unrecorded p.session s') :
    ∃ added', TrailInv d ⟨s', p.logins.modify i (BegunLogin.goTo state)⟩ written added' := by
  have hless : (heldEntries (p.logins.modify i (BegunLogin.goTo state))).Sublist (heldEntries p.logins) := by
    refine heldEntries_modify state fun old hold => ?_
    obtain rfl : login = old := Option.some.inj (hlogin.symm.trans hold)
    exact hheld
  have hfits : ∀ l ∈ p.logins.modify i (BegunLogin.goTo state), l.state.Fits l.good := by
    intro l hl
    rcases mem_modify hl with hold | ⟨old, hold, rfl⟩
    · exact h.fits l hold
    · obtain rfl : login = old := Option.some.inj (hlogin.symm.trans hold)
      exact hstate
  have hbegun : (written.map LoginAuditRow.entry).Sublist ((p.logins.modify i (BegunLogin.goTo state)).map BegunLogin.entry) := by
    rw [entry_modify]
    exact h.begun
  rcases hquiet.stored with hkept | hcommitted
  · exact ⟨added, hquiet.current.trans h.current, hkept.trans h.stored, h.begins, hless.trans h.held, hbegun, hfits⟩
  · exact ⟨written, hquiet.current.trans h.current, hcommitted.trans h.current, List.prefix_refl _,
      (hless.trans h.held).trans (h.begins.sublist.map _), hbegun, hfits⟩

theorem trailInv_login (h : TrailInv d p written added) (login : BegunLogin) (hleaves : Leaves p.session s' login.entry login.good login.state) :
    ∃ written' added', TrailInv d ⟨s', p.logins ++ [login]⟩ written' added' := by
  obtain ⟨hcurrent, hstored, hbegins, hheld, hbegun, hfits⟩ := h
  have hentries : (p.logins ++ [login]).map BegunLogin.entry = p.logins.map BegunLogin.entry ++ [login.entry] := by simp
  have hstill : (written.map LoginAuditRow.entry).Sublist ((p.logins ++ [login]).map BegunLogin.entry) := by
    rw [hentries]
    exact hbegun.trans (List.sublist_append_left _ _)
  have hmore : ∀ row : LoginAuditRow, row.entry = login.entry →
      ((written ++ [row]).map LoginAuditRow.entry).Sublist ((p.logins ++ [login]).map BegunLogin.entry) := by
    intro row hrow
    rw [hentries, List.map_append, List.map_singleton, hrow]
    exact hbegun.append_right _
  have hfits' : login.state.Fits login.good → ∀ l ∈ p.logins ++ [login], l.state.Fits l.good := by
    intro hlogin l hl
    rcases List.mem_append.mp hl with hl | hl
    · exact hfits l hl
    · rw [List.mem_singleton.mp hl]
      exact hlogin
  have hlost : login.state = .lost → (heldEntries (p.logins ++ [login])).Sublist (added.map LoginAuditRow.entry) ∧
      ∀ l ∈ p.logins ++ [login], l.state.Fits l.good := by
    intro hstate
    have hnone : heldEntries [login] = [] := by simp [heldEntries, BegunLogin.isLost, hstate]
    rw [heldEntries_append, hnone, List.append_nil]
    exact ⟨hheld, hfits' (hstate ▸ trivial)⟩
  cases hleaves with
  | nothing hsame hkept hstate =>
    exact ⟨written, added, hsame.trans hcurrent, hkept.trans hstored, hbegins, (hlost hstate).1, hstill, (hlost hstate).2⟩
  | @written row hentry hsame hkept hstate =>
    refine ⟨written ++ [row], added, ?_, hkept.trans hstored, hbegins.trans (List.prefix_append _ _), (hlost hstate).1, hmore row hentry,
      (hlost hstate).2⟩
    rw [← List.append_assoc, ← hcurrent]
    exact hsame
  | @recorded row hentry hrow hstate =>
    have hnow : s'.current.audits = d.audits ++ (written ++ [row]) := by
      rw [← List.append_assoc, ← hcurrent]
      exact hrow.current
    refine ⟨written ++ [row], written ++ [row], hnow, hrow.stored.trans hnow, List.prefix_refl _, ?_, hmore row hentry, hfits' hstate⟩
    have hone : (heldEntries [login]).Sublist [row.entry] := by
      rw [hentry]
      exact List.filter_sublist.map BegunLogin.entry
    rw [heldEntries_append, List.map_append]
    exact (hheld.trans (hbegins.sublist.map _)).append hone

theorem trailInv_handle (h : TrailInv d p written added) (event : PortalEvent) :
    ∃ written' added', TrailInv d (p.handle event) written' added' := by
  cases event with
  | login env lib adminPassword attempt pending faults =>
    exact trailInv_login h ⟨attempt, _, _⟩ (loginUser_leaves env lib adminPassword attempt pending { p.session with faults }).of_faults
  | acknowledge i faults =>
    unfold AuditedPortal.handle
    dsimp only
    split
    · rename_i user token hstate
      obtain ⟨login, hlogin, hawaiting⟩ := Option.map_eq_some_iff.mp hstate
      have hfits := h.fits login (List.mem_of_getElem? hlogin)
      rw [hawaiting] at hfits
      obtain ⟨added', hnext⟩ := h.goOn hlogin (by simp [BegunLogin.isLost, hawaiting]) (.acknowledged user token _) hfits
        (plain_writeTables id { p.session with faults }).1.of_faults
      exact ⟨written, added', hnext⟩
    · exact ⟨written, added, h⟩
  | resume i faults =>
    unfold AuditedPortal.handle
    dsimp only
    split
    · rename_i user token hstate
      obtain ⟨login, hlogin, hacknowledged⟩ := Option.map_eq_some_iff.mp hstate
      have hfits := h.fits login (List.mem_of_getElem? hlogin)
      rw [hacknowledged] at hfits
      obtain ⟨hquiet, hanswer⟩ := (plain_answerLogin user token).finishes { p.session with faults }
      obtain ⟨added', hnext⟩ := h.goOn hlogin (by simp [BegunLogin.isLost, hacknowledged]) _
        (by rwa [show login.good = true from hfits]) hquiet.of_faults
      exact ⟨written, added', hnext⟩
    · rename_i hstate
      obtain ⟨login, hlogin, hacknowledged⟩ := Option.map_eq_some_iff.mp hstate
      obtain ⟨added', hnext⟩ := h.goOn hlogin (by simp [BegunLogin.isLost, hacknowledged]) .lost trivial ⟨rfl, .inl rfl⟩
      exact ⟨written, added', hnext⟩
    · exact ⟨written, added, h⟩
  | other statements faults =>
    obtain ⟨hcurrent, hstored, hbegins, hheld, hbegun, hfits⟩ := h
    obtain ⟨⟨hsame, hstored'⟩, -⟩ := plain_forM OtherStatement.plain statements { p.session with faults }
    rcases hstored' with hkept | hcommitted
    · exact ⟨written, added, hsame.trans hcurrent, hkept.trans hstored, hbegins, hheld, hbegun, hfits⟩
    · exact ⟨written, written, hsame.trans hcurrent, hcommitted.trans hcurrent, List.prefix_refl _,
        hheld.trans (hbegins.sublist.map _), hbegun, hfits⟩
  | restart =>
    obtain ⟨hcurrent, hstored, hbegins, hheld, hbegun, hfits⟩ := h
    refine ⟨added, added, hstored, hstored, List.prefix_refl _, (heldEntries_restart p.logins).trans hheld, ?_, ?_⟩
    · show (added.map LoginAuditRow.entry).Sublist ((p.logins.map BegunLogin.restart).map BegunLogin.entry)
      rw [entry_restart]
      exact (hbegins.sublist.map _).trans hbegun
    · intro login hlogin
      obtain ⟨old, hold, rfl⟩ := List.mem_map.mp hlogin
      unfold BegunLogin.restart
      split
      · exact hfits old hold
      · trivial

theorem trailInv_run (hrun : Run Handles p as p') (h : TrailInv d p written added) : ∃ written' added', TrailInv d p' written' added' := by
  induction hrun generalizing written added with
  | nil => exact ⟨written, added, h⟩
  | cons hhandle _ ih =>
    obtain ⟨written', added', hnext⟩ := trailInv_handle h _
    exact ih (hhandle ▸ hnext)

/-- **No answered login without its record.** In every order of logins, of the threads that they wait for, of other methods, of
failing statements and of restarts, the file has the record of each login that was answered, with the answer it was given, in the
order in which the logins were begun. Whatever else is in it is of a login without an answer, with the outcome that it was to have. -/
theorem audit_trail {s : Session PortalData} (hrun : Run Handles ⟨s, []⟩ as p) (hcurrent : s.current.audits = d.audits)
    (hstored : s.stored.audits = d.audits) : TrailKept d p := by
  have hstart : TrailInv d ⟨s, []⟩ [] [] :=
    ⟨by rw [hcurrent, List.append_nil], by rw [hstored, List.append_nil], List.prefix_refl _, List.Sublist.refl _, List.Sublist.refl _, nofun⟩
  obtain ⟨written, added, hinv⟩ := trailInv_run hrun hstart
  refine ⟨added, fun limit offset => ?_, (answered_sublist p.logins).trans hinv.held, (hinv.begins.sublist.map _).trans hinv.begun,
    fun login hlogin ok hstate => ?_⟩
  · unfold listLoginAudits
    rw [on_query, if_neg (by rintro ⟨⟩), hinv.stored]
  · have hfits := hinv.fits login hlogin
    rw [hstate] at hfits
    exact hfits

/-- One administrator, who has not logged in so far. -/
def rootPortalData : PortalData where
  tables := ((createUser ⟨lit "root", (firstEnvironment.hashPassword []).1, (firstEnvironment.hashPassword []).2, [], lit "admin", true,
    firstEnvironment.now⟩).on ⟨emptyTables, emptyTables, []⟩).2.stored
  audits := []
  auditSeq := 0

def rootAttempt : LoginAttempt where
  request := ⟨[(lit "user-agent", lit "Mozilla/5.0")], [], some (lit "10.0.0.2")⟩
  username := lit "root"
  password := firstEnvironment.tokenUrlsafe
  now := 1699917200
  nowIso := lit "2023-11-13T23:13:20+00:00"
  nonce := lit "0123456789abcdef"

def strayAttempt : LoginAttempt where
  request := ⟨[(lit "user-agent", lit "curl/8.5.0")], [], some (lit "10.0.0.7")⟩
  username := lit "ann"
  password := lit "guess"
  now := 1699917201
  nowIso := lit "2023-11-13T23:13:21+00:00"
  nonce := lit "fedcba9876543210"

def overtakenEvents : List PortalEvent :=
  [.login firstEnvironment Auth.rootLibraries (lit "k") rootAttempt true [],
    .login firstEnvironment Auth.rootLibraries (lit "k") strayAttempt false [], .acknowledge 0 [],
    .login firstEnvironment Auth.rootLibraries (lit "k") strayAttempt false [false, false, true], .resume 0 [], .restart]

/-- While the administrator's login waits, another one is refused, and the record of a third is not stored. -/
theorem audit_trail_stray : ∃ p : AuditedPortal, p.logins.map BegunLogin.isAnswered = [true, true, false] ∧
    p.session.stored.audits.map LoginAuditRow.status = [lit "SUCCESS", lit "FAILED"] ∧ TrailKept rootPortalData p := by
  have hrun : Run Handles ⟨⟨rootPortalData, rootPortalData, []⟩, []⟩ overtakenEvents
      (overtakenEvents.foldl AuditedPortal.handle ⟨⟨rootPortalData, rootPortalData, []⟩, []⟩) :=
    .cons rfl (.cons rfl (.cons rfl (.cons rfl (.cons rfl (.cons rfl (.nil _))))))
  exact ⟨_, by decide +kernel, by decide +kernel, audit_trail hrun rfl rfl⟩

end Palworld.Accounts

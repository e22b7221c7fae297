import Palworld.Accounts.Administrator
import Palworld.Auth.Tokens
import Palworld.Database.Permissions

/-!
# Sessions and their accounts

A session token names a user. Whether it opens a route is decided anew by the tables at each request.
-/

open Lib Lib.Db
open Palworld.Auth (UserRecord AuthError AuthState TokenLibraries getCurrentUser tokenUser activeUser invalidToken generateSessionToken
  sessionExpiry)
open Palworld.Database

namespace Palworld.Accounts

/-! ## Guards of the routes -/

inductive RouteError
  | auth (err : AuthError)
  | forbidden (detail : Text)  -- `HTTPException` with status 403
  deriving DecidableEq

/-- What the process reads a request with. -/
structure SessionSettings where
  lib : TokenLibraries
  adminPassword : Text

def authState (settings : SessionSettings) (now : ℚ) (nowIso : Text) (t : Tables) : AuthState where
  lib := settings.lib.toLibraries
  adminPassword := settings.adminPassword
  users := t.users.map rowToUser
  now := now
  nowIso := nowIso

section Guards

variable (settings : SessionSettings) (now : ℚ) (nowIso : Text) (t : Tables) (request : Auth.Request)

/-- The dependency that `require_permission` makes. -/
def requirePermission (permission : Text) : Except RouteError UserRecord :=
  match getCurrentUser (authState settings now nowIso t) request with
  | .error err => .error (.auth err)
  | .ok user =>
    if hasPermission user.role (t.permissionsOf user.id) permission then .ok user
    else .error (.forbidden (lit "Forbidden: Insufficient privileges. Required permission: '" ++ permission ++ lit "'."))

/-- The dependency that `require_admin` makes. -/
def requireAdmin : Except RouteError UserRecord :=
  match getCurrentUser (authState settings now nowIso t) request with
  | .error err => .error (.auth err)
  | .ok user =>
    if user.role ≠ lit "admin" then .error (.forbidden (lit "Forbidden: Administrator role required.")) else .ok user

end Guards

/-! ## Runs -/

/-- What happens to the accounts while a token is out. -/
inductive AccountAction
  | request (arrival : Arrival)
  | lastLogin (userId : Int) (timestamp : Text) (faults : List Bool)
  | restart

def AccountAction.apply (s : Session Tables) : AccountAction → Session Tables
  | .request arrival => serve s arrival
  | .lastLogin userId timestamp faults => ((updateUserLastLogin userId timestamp).on { s with faults }).2
  | .restart => ⟨s.stored, s.stored, []⟩

def Acts (s : Session Tables) (act : AccountAction) (s' : Session Tables) : Prop := act.apply s = s'

/-- The action is a request to delete the user. -/
def AccountAction.Deletes (userId : Int) : AccountAction → Prop
  | .request arrival => ∃ adminUser, arrival.request = .deleteExistingUser adminUser userId
  | .lastLogin .. | .restart => False

/-! ## The account stays -/

variable {userId id : Int} {username : Text} {t t' : Tables} {changes : UserChanges} {s s' : Session Tables} {act : AccountAction}
  {as : List AccountAction}

/-- The account is there, under its id and its name. -/
def Has (userId : Int) (username : Text) (t : Tables) : Prop := ∃ row ∈ t.users, row.id = userId ∧ row.username = username

instance (t : Tables) : Decidable (Has userId username t) := inferInstanceAs (Decidable (∃ row ∈ t.users, _))

theorem ofUsers_has : OfUsers (Has userId username) := by
  intro t t' husers h
  unfold Has
  rwa [husers]

theorem has_insertUser {user : NewUser} {newId : Int} (hinsert : t.insertUser user = some (newId, t')) (h : Has userId username t) :
    Has userId username t' := by
  obtain ⟨row, hrow, hid⟩ := h
  unfold Tables.insertUser at hinsert
  split at hinsert
  · cases hinsert
  · cases hinsert
    exact ⟨row, List.mem_append_left _ hrow, hid⟩

theorem has_mapUsers {f : UserRow → UserRow} (hf : ∀ row, (f row).id = row.id) (hname : ∀ row, (f row).username = row.username)
    (h : Has userId username t) : Has userId username (t.mapUsers f hf hname) := by
  obtain ⟨row, hrow, hid, husername⟩ := h
  exact ⟨f row, List.mem_map_of_mem hrow, (hf row).trans hid, (hname row).trans husername⟩

theorem has_deleteUser (hne : userId ≠ id) (h : Has userId username t) : Has userId username (t.deleteUser id) := by
  obtain ⟨row, hrow, hid, husername⟩ := h
  refine ⟨row, List.mem_filter.mpr ⟨hrow, ?_⟩, hid, husername⟩
  simp only [hid, ne_eq, hne, not_false_iff, decide_true]

section Keeps

variable {F : Tables → Prop} (hF : ∀ t, Has userId username t → F t)

include hF

theorem keeps_has_createUser (user : NewUser) : Keeps (Session.Meets (Has userId username) F) (createUser user) := by
  refine Keeps.bind (keeps_execute fun t a t' hinsert h => has_insertUser hinsert h) fun newId => ?_
  exact keeps_finishUser ofUsers_has hF

theorem keeps_has_updateUser : Keeps (Session.Meets (Has userId username) F) (updateUser id changes) := by
  unfold updateUser
  refine (keeps_query _).bind fun found => ?_
  cases found with
  | none => exact keeps_pure
  | some existing =>
    refine Keeps.bind (keeps_execute ?_) fun _ => ?_
    · rintro t a t' ⟨⟩ h
      exact has_mapUsers _ _ h
    · refine (keeps_syncPermissions ofUsers_has _).bind fun _ => ?_
      exact (keeps_commit hF).bind fun _ => keeps_query _

theorem keeps_has_deleteUser (hne : userId ≠ id) : Keeps (Session.Meets (Has userId username) F) (deleteUser id) := by
  unfold deleteUser
  refine Keeps.bind (keeps_execute ?_) fun deleted => (keeps_commit hF).bind fun _ => keeps_pure
  rintro t a t' ⟨⟩ h
  exact has_deleteUser hne h

theorem keeps_has_setRequested (env : Ambient) (permissions : Option (List Text)) :
    Keeps (Session.Meets (Has userId username) F) (setRequested env id permissions) := by
  cases permissions with
  | none => exact keeps_pure
  | some permissions => exact keeps_setUserPermissions ofUsers_has hF _

omit hF in
theorem keeps_has_refuseLast (kind : Bool) (detail : Text) :
    Keeps (Session.Meets (Has userId username) F) (refuseLast kind detail) := by
  unfold refuseLast
  split
  · refine (keeps_query _).bind fun count => ?_
    split
    · exact keeps_throw
    · exact keeps_pure
  · exact keeps_pure

theorem keeps_has_handle (env : Ambient) (request : AccountRequest)
    (hspared : ∀ adminUser, request ≠ .deleteExistingUser adminUser userId) :
    Keeps (Session.Meets (Has userId username) F) (request.handle env) := by
  cases request with
  | register req =>
    refine Keeps.bind ?_ fun _ => keeps_pure
    refine (keeps_query _).bind fun found => ?_
    cases found with
    | some existing => exact keeps_throw
    | none => exact (keeps_has_createUser hF _).bind fun user => (keeps_query _).bind fun perms => keeps_pure
  | createNewUser req =>
    refine Keeps.bind ?_ fun _ => keeps_pure
    refine (keeps_query _).bind fun found => ?_
    cases found with
    | some existing => exact keeps_throw
    | none =>
      refine (keeps_has_createUser hF _).bind fun user => (keeps_has_setRequested hF env _).bind fun _ => ?_
      exact (keeps_query _).bind fun perms => keeps_pure
  | updateExistingUser id req =>
    refine Keeps.bind ?_ fun _ => keeps_pure
    refine (keeps_query _).bind fun found => ?_
    cases found with
    | none => exact keeps_throw
    | some existing =>
      refine (keeps_has_refuseLast _ _).bind fun _ => (keeps_has_refuseLast _ _).bind fun _ => ?_
      refine (keeps_has_updateUser hF).bind fun updated => ?_
      cases updated with
      | none => exact keeps_throw
      | some updated => exact (keeps_has_setRequested hF env _).bind fun _ => (keeps_query _).bind fun perms => keeps_pure
  | updateUserRole id req =>
    refine Keeps.bind ?_ fun _ => keeps_pure
    refine (keeps_query _).bind fun found => ?_
    cases found with
    | none => exact keeps_throw
    | some existing =>
      refine (keeps_has_refuseLast _ _).bind fun _ => (keeps_has_updateUser hF).bind fun updated => ?_
      cases updated with
      | none => exact keeps_throw
      | some updated => exact (keeps_query _).bind fun perms => keeps_pure
  | deleteExistingUser adminUser id =>
    have hne : userId ≠ id := by
      rintro rfl
      exact hspared adminUser rfl
    refine Keeps.bind ?_ fun _ => keeps_pure
    unfold deleteExistingUser
    split
    · exact keeps_throw
    refine (keeps_query _).bind fun found => ?_
    cases found with
    | none => exact keeps_throw
    | some existing =>
      refine (keeps_has_refuseLast _ _).bind fun _ => (keeps_has_deleteUser hF hne).bind fun deleted => ?_
      cases deleted with
      | true => exact keeps_pure
      | false => exact keeps_throw

end Keeps

/-- In the open transaction and in the file. -/
def Kept (userId : Int) (username : Text) : Session Tables → Prop := Session.Meets (Has userId username) (Has userId username)

theorem kept_step (hs : Kept userId username s) (hact : Acts s act s') (hspared : ¬ act.Deletes userId) : Kept userId username s' := by
  obtain rfl : act.apply s = s' := hact
  cases act with
  | request arrival =>
    refine (keeps_has_handle (fun _ h => h) arrival.env arrival.request ?_).after hs
    exact fun adminUser h => hspared ⟨adminUser, h⟩
  | lastLogin id timestamp faults =>
    refine Keeps.after ?_ hs
    unfold updateUserLastLogin
    refine Keeps.bind (keeps_execute ?_) fun _ => keeps_commit fun _ h => h
    rintro t a t' ⟨⟩ h
    exact has_mapUsers _ _ h
  | restart => exact ⟨hs.2, hs.2⟩

theorem kept_run (hrun : Run Acts s as s') (hspared : ∀ act ∈ as, ¬ act.Deletes userId) (hs : Kept userId username s) :
    Kept userId username s' := by
  induction hrun with
  | nil => exact hs
  | cons hact _ ih =>
    rw [List.forall_mem_cons] at hspared
    exact ih hspared.2 (kept_step hs hact hspared.1)


/-! ## What a token opens -/

variable {settings : SessionSettings} {now issued : ℚ} {nowIso nonce token : Text} {request : Auth.Request} {row : UserRow}

theorem find_of_row (hrow : row ∈ t.users) (hname : row.username = username) :
    Auth.getUserByUsername (t.users.map rowToUser) username = some (rowToUser row) := by
  have hfind : t.users.find? (fun row => row.username = username) = some row := by
    cases hfound : t.users.find? fun row => row.username = username with
    | none => exact absurd (decide_eq_true hname) (List.find?_eq_none.mp hfound row hrow)
    | some found =>
      have hfoundName : found.username = username := by simpa using List.find?_some hfound
      exact congrArg some (List.inj_on_of_nodup_map t.wellFormed.usernames (List.mem_of_find?_eq_some hfound) hrow
        (hfoundName.trans hname.symm))
  unfold Auth.getUserByUsername
  rw [List.find?_map]
  exact congrArg (Option.map rowToUser) hfind

theorem activeUser_of_row (hrow : row ∈ t.users) (hname : row.username = username) :
    activeUser (authState settings now nowIso t) username = if row.isActive ≠ 0 then some (rowToUser row) else none := by
  unfold activeUser authState
  dsimp only
  rw [find_of_row hrow hname]
  split_ifs with hactive
  · exact Option.filter_eq_some_iff.mpr ⟨rfl, by simpa [rowToUser] using hactive⟩
  · exact Option.filter_eq_none_iff.mpr fun user huser => by
      cases huser
      simpa [rowToUser] using hactive

theorem token_ne_nil {seconds : Int} (h : generateSessionToken settings.lib issued nonce username settings.adminPassword seconds = some token) :
    token ≠ [] := by
  obtain ⟨json, -, rfl⟩ := Option.map_eq_some_iff.mp h
  simp

variable (now nowIso) in
/-- The user that a request with the token acts as. -/
theorem getCurrentUser_session (hlib : settings.lib.ReadsBack) (husername : username ≠ [])
    (htoken : generateSessionToken settings.lib issued nonce username settings.adminPassword 86400 = some token)
    (hrequest : request.token = some token) (hrow : row ∈ t.users) (hname : row.username = username) :
    getCurrentUser (authState settings now nowIso t) request =
      if now ≤ sessionExpiry issued 86400 ∧ row.isActive ≠ 0 then .ok (rowToUser row) else .error invalidToken := by
  rw [Auth.getCurrentUser_token hrequest (token_ne_nil htoken)]
  have hverify : Auth.verifySessionToken (authState settings now nowIso t).lib (authState settings now nowIso t).now token
      (authState settings now nowIso t).adminPassword = .ok (if now ≤ sessionExpiry issued 86400 then some username else none) :=
    Auth.verifySessionToken_generated hlib husername htoken
  unfold tokenUser
  rw [hverify]
  by_cases hnow : now ≤ sessionExpiry issued 86400
  · rw [if_pos hnow]
    dsimp only
    rw [activeUser_of_row hrow hname]
    by_cases hactive : row.isActive ≠ 0
    · rw [if_pos hactive, if_pos ⟨hnow, hactive⟩]
    · rw [if_neg hactive, if_neg fun h => hactive h.2]
  · rw [if_neg hnow, if_neg fun h => hnow h.1]

/-- The token admits the account, as its row is now, while it has not expired and the row is active. -/
structure Opens (settings : SessionSettings) (expiry : Int) (request : Auth.Request) (row : UserRow) (t : Tables) : Prop where
  permission : ∀ now nowIso permission, requirePermission settings now nowIso t request permission =
    if now ≤ expiry ∧ row.isActive ≠ 0 then
      if hasPermission row.role (t.permissionsOf row.id) permission then .ok (rowToUser row)
      else .error (.forbidden (lit "Forbidden: Insufficient privileges. Required permission: '" ++ permission ++ lit "'."))
    else .error (.auth invalidToken)
  admin : ∀ now nowIso, requireAdmin settings now nowIso t request =
    if now ≤ expiry ∧ row.isActive ≠ 0 then
      if row.role = lit "admin" then .ok (rowToUser row)
      else .error (.forbidden (lit "Forbidden: Administrator role required."))
    else .error (.auth invalidToken)

/-- **A session follows its account.** Whatever requests, failing statements and restarts come after a login, as long as none
deletes the account a request with the token is admitted as that account and no other, with the role and the permissions that
it has by then. A new password does not end the session, nor does anything but its expiry and the mark of an inactive account. -/
theorem session_follows_account (hlib : settings.lib.ReadsBack) (husername : username ≠ [])
    (htoken : generateSessionToken settings.lib issued nonce username settings.adminPassword 86400 = some token)
    (hcurrent : Has userId username s.current) (hstored : Has userId username s.stored) (hrun : Run Acts s as s')
    (hspared : ∀ act ∈ as, ¬ act.Deletes userId) (hrequest : request.token = some token) :
    ∃ row ∈ s'.current.users, row.id = userId ∧ row.username = username ∧
      Opens settings (sessionExpiry issued 86400) request row s'.current := by
  obtain ⟨⟨row, hrow, hid, hname⟩, -⟩ := kept_run hrun hspared ⟨hcurrent, hstored⟩
  refine ⟨row, hrow, hid, hname, ?_⟩
  have huser := fun now nowIso =>
    getCurrentUser_session now nowIso hlib husername htoken hrequest hrow hname
  constructor
  · intro now nowIso permission
    unfold requirePermission
    rw [huser]
    by_cases hopen : now ≤ sessionExpiry issued 86400 ∧ row.isActive ≠ 0
    · rw [if_pos hopen, if_pos hopen]
      rfl
    · rw [if_neg hopen, if_neg hopen]
  · intro now nowIso
    unfold requireAdmin
    rw [huser]
    by_cases hopen : now ≤ sessionExpiry issued 86400 ∧ row.isActive ≠ 0
    · rw [if_pos hopen, if_pos hopen]
      dsimp only
      rw [ite_not]
      rfl
    · rw [if_neg hopen, if_neg hopen]


/-! ## A user who is demoted -/

def rootOperator : Session Tables :=
  ((createUser ⟨lit "root", lit "5f4dcc3b", lit "9ae1", [], lit "operator", true, plainEnv.now⟩).on ⟨emptyTables, emptyTables, []⟩).2

def rootSettings : SessionSettings := ⟨Auth.rootLibraries, lit "k"⟩

/-- After a demotion and a restart the session is that of a viewer. -/
theorem session_follows_demotion : ∃ s' : Session Tables, s'.current.users.map UserRow.role = [lit "viewer"] ∧
    ∃ row ∈ s'.current.users, row.id = 1 ∧ row.username = lit "root" ∧
      Opens rootSettings (sessionExpiry 1699917200 86400) ⟨[], [(lit "pal_session_token", Auth.rootToken)], none⟩ row s'.current := by
  have hrun : Run Acts rootOperator [.request ⟨.updateUserRole 1 ⟨.viewer⟩, plainEnv, []⟩, .restart] _ := .cons rfl (.cons rfl (.nil _))
  have hspared : ∀ act ∈ [.request ⟨.updateUserRole 1 ⟨.viewer⟩, plainEnv, []⟩, AccountAction.restart], ¬ act.Deletes 1 := by
    rw [List.forall_mem_cons, List.forall_mem_singleton]
    exact ⟨fun ⟨_, h⟩ => (nomatch h), not_false⟩
  have htoken : generateSessionToken rootSettings.lib 1699917200 (lit "0123456789abcdef") (lit "root") rootSettings.adminPassword 86400 =
      some Auth.rootToken := by decide +kernel
  exact ⟨_, by decide +kernel, session_follows_account Auth.rootLibraries_readsBack (by decide) htoken (by decide +kernel)
    (by decide +kernel) hrun hspared (by decide +kernel)⟩

end Palworld.Accounts

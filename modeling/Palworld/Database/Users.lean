import Palworld.Auth.CurrentUser
import Palworld.Database.Tables
import Palworld.Lib.Sqlite
import Mathlib.Data.List.Lex
import Mathlib.Data.Char

/-!
# Users in the database

The methods of `DatabaseManager` that read and write users. They share one connection and
hold its lock throughout, so each is one step.
-/

open Lib Lib.Db
open Palworld.Auth (UserRecord)

namespace Palworld.Database

inductive Failure
  | sqlite (err : SqlError)
  | runtimeError (message : Text)
  | http (status : Nat) (detail : Text)  -- `HTTPException`
  deriving DecidableEq

instance : OfSql Failure := ⟨.sqlite⟩

abbrev Call (α : Type) := Db Tables Failure α

/-- An integer in an f-string. -/
def showInt (n : Int) : Text := (toString n).toList

def allPermissions : List Text :=
  [lit "server:reboot", lit "server:settings", lit "player:kick", lit "player:ban", lit "player:broadcast",
    lit "logs:view", lit "feedback:submit", lit "users:manage", lit "system:update"]

/-- `DEFAULT_ROLE_PERMISSIONS.get(role, [])`. -/
def defaultRolePermissions (role : Text) : List Text :=
  if role = lit "admin" then allPermissions
  else if role = lit "operator" then
    [lit "server:reboot", lit "server:settings", lit "player:kick", lit "player:ban", lit "player:broadcast",
      lit "logs:view", lit "feedback:submit", lit "system:update"]
  else if role = lit "viewer" then [lit "logs:view", lit "feedback:submit"]
  else []

def rowToUser (row : UserRow) : UserRecord where
  id := row.id
  username := row.username
  passwordHash := row.passwordHash
  salt := row.salt
  email := row.email.getD []
  role := row.role
  isActive := row.isActive ≠ 0
  createdAt := row.createdAt
  lastLogin := row.lastLogin.filter (· ≠ [])

/-! ## Reading -/

def Tables.userById (userId : Int) (t : Tables) : Option UserRow := t.users.find? fun row => row.id = userId

theorem userById_spec {t : Tables} {userId : Int} {row : UserRow} (h : t.userById userId = some row) :
    row ∈ t.users ∧ row.id = userId := by
  unfold Tables.userById at h
  exact ⟨List.mem_of_find?_eq_some h, by simpa using List.find?_some h⟩

def getUserById (userId : Int) : Call (Option UserRecord) := query fun t => (t.userById userId).map rowToUser

def getUserByUsername (username : Text) : Call (Option UserRecord) :=
  query fun t => (t.users.find? fun row => row.username = username).map rowToUser

def Tables.activeAdmins (t : Tables) : Nat := t.users.countP fun row => row.role = lit "admin" ∧ row.isActive = 1

def countActiveAdmins : Call Nat := query Tables.activeAdmins

/-- `get_user_permissions`, by code points as `ORDER BY permission ASC` has them. -/
def getUserPermissions (userId : Int) : Call (List Text) :=
  query fun t =>
    ((t.permissions.filter fun row => row.userId = userId).map PermissionRow.permission).mergeSort fun p q => p ≤ q

/-! ## Writing -/

def deletePermissions (userId : Int) : Call Unit := execute fun t => some ((), t.deletePermissions userId)

def insertPermission (userId : Int) (permission : Text) : Call Unit :=
  execute fun t => (t.insertPermission userId permission).map (Prod.mk ())

def insertOrIgnorePermission (userId : Int) (permission : Text) : Call Unit :=
  execute fun t => (t.insertOrIgnorePermission userId permission).map (Prod.mk ())

def createUser (user : NewUser) : Call UserRecord := do
  let newId ← execute (Tables.insertUser user)
  (defaultRolePermissions user.role).forM (insertOrIgnorePermission newId)
  commit
  match ← getUserById newId with
  | some record => return record
  | none =>
    throw (.runtimeError
      (lit "Failed to retrieve user immediately after creation (ID " ++ showInt newId ++ lit ")"))

/-- The new role, when it is another one. -/
def newRole (changes : UserChanges) (existing : UserRecord) : Option Text :=
  changes.role.filter fun role => role ≠ existing.role

def syncPermissions (userId : Int) : Option Text → Call Unit
  | some role => do
    deletePermissions userId
    (defaultRolePermissions role).forM (insertOrIgnorePermission userId)
  | none => pure ()

def updateUser (userId : Int) (changes : UserChanges) : Call (Option UserRecord) := do
  match ← getUserById userId with
  | none => return none
  | some existing =>
    execute fun t => some ((), t.updateUser userId changes)
    syncPermissions userId (newRole changes existing)
    commit
    getUserById userId

/-- Whether a row was deleted. -/
def deleteUser (userId : Int) : Call Bool := do
  let deleted ← execute fun t => some (decide (userId ∈ t.users.map UserRow.id), t.deleteUser userId)
  commit
  return deleted

def updateUserLastLogin (userId : Int) (timestamp : Text) : Call Unit := do
  execute fun t => some ((), t.updateLastLogin userId timestamp)
  commit

/-- An order in which a `for` goes through `set(permissions)`. -/
def SetOrder (permissions : List Text) := { order : List Text // order.Perm permissions.dedup }

def setUserPermissions (userId : Int) {permissions : List Text} (order : SetOrder permissions) : Call Unit := do
  deletePermissions userId
  order.val.forM (insertPermission userId)
  commit

/-- A method that writes to the other tables. -/
def writeElsewhere (statements : Nat) : Call Unit := do
  (List.range statements).forM fun _ => execute fun t => some ((), t)
  commit

/-! ## What the methods keep -/

section Keeps

variable {I F : Tables → Prop} {userId : Int}

/-- The statements on `user_permissions` keep what is said of the users. -/
def OfUsers (I : Tables → Prop) : Prop := ∀ t t' : Tables, t'.users = t.users → I t → I t'

theorem keeps_deletePermissions (hI : OfUsers I) : Keeps (Session.Meets I F) (deletePermissions userId) := by
  refine keeps_execute fun t a t' hw ht => ?_
  cases hw
  exact hI t _ rfl ht

theorem keeps_insertPermission (hI : OfUsers I) (permission : Text) :
    Keeps (Session.Meets I F) (insertPermission userId permission) :=
  keeps_write fun t t' hins => hI t t' (insertPermission_spec hins).1

theorem keeps_insertOrIgnore (hI : OfUsers I) (permission : Text) :
    Keeps (Session.Meets I F) (insertOrIgnorePermission userId permission) :=
  keeps_write fun t t' hins => hI t t' (insertOrIgnorePermission_users hins)

theorem keeps_syncPermissions (hI : OfUsers I) (role : Option Text) :
    Keeps (Session.Meets I F) (syncPermissions userId role) := by
  cases role with
  | none => exact keeps_pure
  | some role => exact (keeps_deletePermissions hI).bind fun _ => keeps_forM (keeps_insertOrIgnore hI) _

theorem keeps_setUserPermissions (hI : OfUsers I) (hF : ∀ t, I t → F t) {permissions : List Text}
    (order : SetOrder permissions) : Keeps (Session.Meets I F) (setUserPermissions userId order) :=
  (keeps_deletePermissions hI).bind fun _ => (keeps_forM (keeps_insertPermission hI) _).bind fun _ => keeps_commit hF

/-- The part of `create_user` after its first statement. -/
theorem keeps_finishUser (hI : OfUsers I) (hF : ∀ t, I t → F t) {role : Text} {err : Failure} :
    Keeps (Session.Meets I F)
      (do
        (defaultRolePermissions role).forM (insertOrIgnorePermission userId)
        commit
        match ← getUserById userId with
        | some record => return record
        | none => throw err : Call UserRecord) := by
  refine (keeps_forM (keeps_insertOrIgnore hI) _).bind fun _ => (keeps_commit hF).bind fun _ => ?_
  refine (keeps_query _).bind fun found => ?_
  cases found with
  | some record => exact keeps_pure
  | none => exact keeps_throw

end Keeps

end Palworld.Database

import Palworld.Database.Users

/-!
# User accounts

The handlers of the user routes. None of them suspends, so each is one step. The caller has
been authorised before, and may be anyone by the time the handler runs.
-/

open Lib
open Palworld.Auth (UserRecord)
open Palworld.Database

namespace Palworld.Accounts

inductive RoleType
  | admin
  | operator
  | viewer
  deriving DecidableEq

def RoleType.text : RoleType → Text
  | .admin => lit "admin"
  | .operator => lit "operator"
  | .viewer => lit "viewer"

structure UserRegisterRequest where
  username : Text
  password : Text
  email : Text

structure UserCreateRequest where
  username : Text
  password : Text
  email : Text
  role : RoleType
  permissions : Option (List Text)

structure UserUpdateRequest where
  email : Option Text
  role : Option RoleType
  isActive : Option Bool
  password : Option Text
  permissions : Option (List Text)

structure UserRoleUpdateRequest where
  role : RoleType

structure UserResponse where
  id : Int
  username : Text
  email : Text
  role : Text
  isActive : Bool
  createdAt : Text
  lastLogin : Option Text
  permissions : List Text
  deriving DecidableEq

def userResponse (user : UserRecord) (permissions : List Text) : UserResponse where
  id := user.id
  username := user.username
  email := user.email
  role := user.role
  isActive := user.isActive
  createdAt := user.createdAt
  lastLogin := user.lastLogin
  permissions := permissions

/-- What a handler takes from outside the database. -/
structure Ambient where
  hashPassword : Text → Text × Text  -- the digest and the salt drawn for it
  now : Text
  setOrder : ∀ permissions : List Text, SetOrder permissions

def alreadyRegistered (username : Text) : Failure :=
  .http 409 (lit "Username '" ++ username ++ lit "' already registered.")

def notFound (userId : Int) : Failure := .http 404 (lit "User ID " ++ showInt userId ++ lit " not found.")

/-- Refuse a request of this kind while there is only one active administrator. -/
def refuseLast (kind : Bool) (detail : Text) : Call Unit :=
  if kind then do
    let count ← countActiveAdmins
    if count ≤ 1 then throw (.http 400 detail) else return ()
  else return ()

def noDemotion : Text := lit "Cannot demote the last remaining active administrator."

def noDeactivation : Text := lit "Cannot deactivate the last remaining active administrator."

def noDeletion : Text := lit "Cannot delete the last remaining active administrator."

def isActiveAdmin (user : UserRecord) : Bool := user.role = lit "admin" && user.isActive

def setRequested (env : Ambient) (userId : Int) : Option (List Text) → Call Unit
  | some permissions => setUserPermissions userId (env.setOrder permissions)
  | none => return ()

def register (env : Ambient) (req : UserRegisterRequest) : Call UserResponse := do
  match ← getUserByUsername req.username with
  | some _ => throw (alreadyRegistered req.username)
  | none =>
    let (pwHash, salt) := env.hashPassword req.password
    let user ← createUser ⟨req.username, pwHash, salt, req.email, lit "viewer", true, env.now⟩
    let perms ← getUserPermissions user.id
    return userResponse user perms

def createNewUser (env : Ambient) (req : UserCreateRequest) : Call UserResponse := do
  match ← getUserByUsername req.username with
  | some _ => throw (alreadyRegistered req.username)
  | none =>
    let (pwHash, salt) := env.hashPassword req.password
    let user ← createUser ⟨req.username, pwHash, salt, req.email, req.role.text, true, env.now⟩
    setRequested env user.id req.permissions
    let perms ← getUserPermissions user.id
    return userResponse user perms

def UserUpdateRequest.changes (env : Ambient) (req : UserUpdateRequest) : UserChanges :=
  let hashed := (req.password.filter (· ≠ [])).map env.hashPassword
  { email := req.email
    role := req.role.map RoleType.text
    isActive := req.isActive
    passwordHash := hashed.map Prod.fst
    salt := hashed.map Prod.snd }

def demotes (role : Option RoleType) : Bool := role.any (· ≠ .admin)

def updateExistingUser (env : Ambient) (userId : Int) (req : UserUpdateRequest) : Call UserResponse := do
  match ← getUserById userId with
  | none => throw (notFound userId)
  | some existing =>
    refuseLast (isActiveAdmin existing && demotes req.role) noDemotion
    refuseLast (isActiveAdmin existing && req.isActive = some false) noDeactivation
    match ← updateUser userId (req.changes env) with
    | none => throw (notFound userId)
    | some updated =>
      setRequested env userId req.permissions
      let perms ← getUserPermissions userId
      return userResponse updated perms

def updateUserRole (userId : Int) (req : UserRoleUpdateRequest) : Call UserResponse := do
  match ← getUserById userId with
  | none => throw (notFound userId)
  | some existing =>
    refuseLast (isActiveAdmin existing && req.role ≠ .admin) noDemotion
    match ← updateUser userId ⟨none, some req.role.text, none, none, none⟩ with
    | none => throw (notFound userId)
    | some updated =>
      let perms ← getUserPermissions userId
      return userResponse updated perms

def deleteExistingUser (adminUser : UserRecord) (userId : Int) : Call Text :=
  if adminUser.id = userId then throw (.http 400 (lit "Cannot delete your own active administrator account."))
  else do
    match ← getUserById userId with
    | none => throw (notFound userId)
    | some existing =>
      refuseLast (isActiveAdmin existing) noDeletion
      if ← deleteUser userId then return lit "User ID " ++ showInt userId ++ lit " deleted."
      else throw (notFound userId)

end Palworld.Accounts

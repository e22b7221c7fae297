import Palworld.Lib.Text
import Mathlib.Tactic.Common
import Mathlib.Data.List.Nodup
import Mathlib.Order.Basic

/-!
# Users and their permissions

The two tables and the statements that write them. Rows are in the order of their ids,
which `AUTOINCREMENT` never reuses.
-/

open Lib

namespace Palworld.Database

structure UserRow where
  id : Int
  username : Text
  passwordHash : Text
  salt : Text
  email : Option Text
  role : Text
  isActive : Int
  createdAt : Text
  lastLogin : Option Text
  deriving DecidableEq

structure PermissionRow where
  id : Int
  userId : Int
  permission : Text
  deriving DecidableEq

/-- What the unique columns and the foreign key ask of the rows. -/
structure WellFormed (users : List UserRow) (userSeq : Int) (permissions : List PermissionRow)
    (permissionSeq : Int) : Prop where
  userIds : (users.map UserRow.id).Nodup
  userSeq : ∀ row ∈ users, row.id ≤ userSeq
  usernames : (users.map UserRow.username).Nodup
  permissionIds : (permissions.map PermissionRow.id).Nodup
  permissionSeq : ∀ row ∈ permissions, row.id ≤ permissionSeq
  granted : (permissions.map fun row => (row.userId, row.permission)).Nodup
  owned : ∀ row ∈ permissions, row.userId ∈ users.map UserRow.id

/-- The two tables, and the ids given out last. -/
structure Tables where
  users : List UserRow
  userSeq : Int
  permissions : List PermissionRow
  permissionSeq : Int
  wellFormed : WellFormed users userSeq permissions permissionSeq

def Tables.rows (t : Tables) : List UserRow × List PermissionRow := (t.users, t.permissions)

def emptyTables : Tables where
  users := []
  userSeq := 0
  permissions := []
  permissionSeq := 0
  wellFormed := by constructor <;> simp

variable {t : Tables}

@[ext] theorem Tables.ext {t t' : Tables} (husers : t.users = t'.users) (huserSeq : t.userSeq = t'.userSeq)
    (hpermissions : t.permissions = t'.permissions) (hpermissionSeq : t.permissionSeq = t'.permissionSeq) :
    t = t' := by
  cases t
  cases t'
  subst husers huserSeq hpermissions hpermissionSeq
  rfl

/-! ## Statements on `users` -/

structure NewUser where
  username : Text
  passwordHash : Text
  salt : Text
  email : Text
  role : Text
  isActive : Bool
  createdAt : Text

def NewUser.row (user : NewUser) (id : Int) : UserRow where
  id := id
  username := user.username
  passwordHash := user.passwordHash
  salt := user.salt
  email := some user.email
  role := user.role
  isActive := if user.isActive then 1 else 0
  createdAt := user.createdAt
  lastLogin := none

theorem Tables.fresh_id (t : Tables) : t.userSeq + 1 ∉ t.users.map UserRow.id := by
  intro h
  obtain ⟨row, hrow, hid⟩ := List.mem_map.mp h
  have := t.wellFormed.userSeq row hrow
  omega

theorem nodup_snoc {α β : Type} {f : α → β} {as : List α} {a : α} (h : (as.map f).Nodup) (ha : f a ∉ as.map f) :
    ((as ++ [a]).map f).Nodup := by
  rw [List.map_append, List.map_singleton, ← List.concat_eq_append]
  exact h.concat ha

/-- `INSERT INTO users`, with the new id. -/
def Tables.insertUser (user : NewUser) (t : Tables) : Option (Int × Tables) :=
  if hname : user.username ∈ t.users.map UserRow.username then none
  else some (t.userSeq + 1,
    { users := t.users ++ [user.row (t.userSeq + 1)]
      userSeq := t.userSeq + 1
      permissions := t.permissions
      permissionSeq := t.permissionSeq
      wellFormed :=
        { userIds := nodup_snoc t.wellFormed.userIds t.fresh_id
          userSeq := by
            intro row hrow
            rcases List.mem_append.mp hrow with hrow | hrow
            · have := t.wellFormed.userSeq row hrow
              omega
            · obtain rfl := List.mem_singleton.mp hrow
              exact Int.le_refl _
          usernames := nodup_snoc t.wellFormed.usernames hname
          permissionIds := t.wellFormed.permissionIds
          permissionSeq := t.wellFormed.permissionSeq
          granted := t.wellFormed.granted
          owned := by
            intro row hrow
            rw [List.map_append]
            exact List.mem_append_left _ (t.wellFormed.owned row hrow) } })

/-- Write to the rows of `users`, their ids and names apart. -/
def Tables.mapUsers (f : UserRow → UserRow) (hid : ∀ row, (f row).id = row.id)
    (hname : ∀ row, (f row).username = row.username) (t : Tables) : Tables where
  users := t.users.map f
  userSeq := t.userSeq
  permissions := t.permissions
  permissionSeq := t.permissionSeq
  wellFormed :=
    have hids : (t.users.map f).map UserRow.id = t.users.map UserRow.id := by
      rw [List.map_map]
      exact List.map_congr_left fun row _ => hid row
    have hnames : (t.users.map f).map UserRow.username = t.users.map UserRow.username := by
      rw [List.map_map]
      exact List.map_congr_left fun row _ => hname row
    { userIds := hids ▸ t.wellFormed.userIds
      userSeq := by
        intro row hrow
        obtain ⟨old, hold, rfl⟩ := List.mem_map.mp hrow
        rw [hid]
        exact t.wellFormed.userSeq old hold
      usernames := hnames ▸ t.wellFormed.usernames
      permissionIds := t.wellFormed.permissionIds
      permissionSeq := t.wellFormed.permissionSeq
      granted := t.wellFormed.granted
      owned := fun row hrow => hids ▸ t.wellFormed.owned row hrow }

/-- The arguments of `update_user`; `none` leaves a column as it is. -/
structure UserChanges where
  email : Option Text
  role : Option Text
  isActive : Option Bool
  passwordHash : Option Text
  salt : Option Text

/-- `COALESCE(?, email)` and so on. -/
def UserChanges.apply (changes : UserChanges) (row : UserRow) : UserRow :=
  { row with
    email := changes.email.or row.email
    role := changes.role.getD row.role
    isActive := (changes.isActive.map fun active => if active then 1 else 0).getD row.isActive
    passwordHash := changes.passwordHash.getD row.passwordHash
    salt := changes.salt.getD row.salt }

def onUser (userId : Int) (f : UserRow → UserRow) (row : UserRow) : UserRow := if row.id = userId then f row else row

theorem onUser_id {userId : Int} {f : UserRow → UserRow} (hf : ∀ row, (f row).id = row.id) (row : UserRow) :
    (onUser userId f row).id = row.id := by
  unfold onUser
  split
  · exact hf row
  · rfl

theorem onUser_username {userId : Int} {f : UserRow → UserRow} (hf : ∀ row, (f row).username = row.username)
    (row : UserRow) : (onUser userId f row).username = row.username := by
  unfold onUser
  split
  · exact hf row
  · rfl

def Tables.updateUser (userId : Int) (changes : UserChanges) (t : Tables) : Tables :=
  t.mapUsers (onUser userId changes.apply) (onUser_id fun _ => rfl) (onUser_username fun _ => rfl)

def Tables.updateLastLogin (userId : Int) (timestamp : Text) (t : Tables) : Tables :=
  t.mapUsers (onUser userId fun row => { row with lastLogin := some timestamp }) (onUser_id fun _ => rfl)
    (onUser_username fun _ => rfl)

/-- `DELETE FROM users WHERE id = ?`, with the rows of permissions that go with the user. -/
def Tables.deleteUser (userId : Int) (t : Tables) : Tables where
  users := t.users.filter fun row => row.id ≠ userId
  userSeq := t.userSeq
  permissions := t.permissions.filter fun row => row.userId ≠ userId
  permissionSeq := t.permissionSeq
  wellFormed :=
    { userIds := t.wellFormed.userIds.sublist (List.filter_sublist.map _)
      userSeq := fun row hrow => t.wellFormed.userSeq row (List.mem_filter.mp hrow).1
      usernames := t.wellFormed.usernames.sublist (List.filter_sublist.map _)
      permissionIds := t.wellFormed.permissionIds.sublist (List.filter_sublist.map _)
      permissionSeq := fun row hrow => t.wellFormed.permissionSeq row (List.mem_filter.mp hrow).1
      granted := t.wellFormed.granted.sublist (List.filter_sublist.map _)
      owned := by
        intro row hrow
        obtain ⟨hrow, hne⟩ := List.mem_filter.mp hrow
        obtain ⟨user, huser, hid⟩ := List.mem_map.mp (t.wellFormed.owned row hrow)
        refine List.mem_map.mpr ⟨user, List.mem_filter.mpr ⟨huser, ?_⟩, hid⟩
        rw [hid]
        exact hne }

/-! ## Statements on `user_permissions` -/

def Tables.deletePermissions (userId : Int) (t : Tables) : Tables where
  users := t.users
  userSeq := t.userSeq
  permissions := t.permissions.filter fun row => row.userId ≠ userId
  permissionSeq := t.permissionSeq
  wellFormed :=
    { userIds := t.wellFormed.userIds
      userSeq := t.wellFormed.userSeq
      usernames := t.wellFormed.usernames
      permissionIds := t.wellFormed.permissionIds.sublist (List.filter_sublist.map _)
      permissionSeq := fun row hrow => t.wellFormed.permissionSeq row (List.mem_filter.mp hrow).1
      granted := t.wellFormed.granted.sublist (List.filter_sublist.map _)
      owned := fun row hrow => t.wellFormed.owned row (List.mem_filter.mp hrow).1 }

theorem Tables.fresh_permissionId (t : Tables) : t.permissionSeq + 1 ∉ t.permissions.map PermissionRow.id := by
  intro h
  obtain ⟨row, hrow, hid⟩ := List.mem_map.mp h
  have := t.wellFormed.permissionSeq row hrow
  omega

def Tables.insertPermission (userId : Int) (permission : Text) (t : Tables) : Option Tables :=
  if howner : userId ∈ t.users.map UserRow.id then
    if hnew : (userId, permission) ∈ t.permissions.map fun row => (row.userId, row.permission) then none
    else some
      { users := t.users
        userSeq := t.userSeq
        permissions := t.permissions ++ [⟨t.permissionSeq + 1, userId, permission⟩]
        permissionSeq := t.permissionSeq + 1
        wellFormed :=
          { userIds := t.wellFormed.userIds
            userSeq := t.wellFormed.userSeq
            usernames := t.wellFormed.usernames
            permissionIds := nodup_snoc t.wellFormed.permissionIds t.fresh_permissionId
            permissionSeq := by
              intro row hrow
              rcases List.mem_append.mp hrow with hrow | hrow
              · have := t.wellFormed.permissionSeq row hrow
                omega
              · obtain rfl := List.mem_singleton.mp hrow
                exact Int.le_refl _
            granted := nodup_snoc (f := fun row : PermissionRow => (row.userId, row.permission)) t.wellFormed.granted hnew
            owned := by
              intro row hrow
              rcases List.mem_append.mp hrow with hrow | hrow
              · exact t.wellFormed.owned row hrow
              · obtain rfl := List.mem_singleton.mp hrow
                exact howner } }
  else none

/-- `INSERT OR IGNORE INTO user_permissions`: a row that is ignored uses an id up, and a user that is missing
is an error all the same. -/
def Tables.insertOrIgnorePermission (userId : Int) (permission : Text) (t : Tables) : Option Tables :=
  if (userId, permission) ∈ t.permissions.map fun row => (row.userId, row.permission) then
    some
      { t with
        permissionSeq := t.permissionSeq + 1
        wellFormed :=
          { t.wellFormed with
            permissionSeq := by
              intro row hrow
              have := t.wellFormed.permissionSeq row hrow
              omega } }
  else t.insertPermission userId permission

/-! ## What a statement leaves -/

variable {t' : Tables} {userId : Int} {permission : Text}

theorem Tables.users_eq_of_rows (h : t'.rows = t.rows) : t'.users = t.users := congrArg Prod.fst h

theorem Tables.permissions_eq_of_rows (h : t'.rows = t.rows) : t'.permissions = t.permissions := congrArg Prod.snd h

theorem insertUser_spec {user : NewUser} {newId : Int} (h : t.insertUser user = some (newId, t')) :
    newId = t.userSeq + 1 ∧ t'.users = t.users ++ [user.row newId] := by
  unfold Tables.insertUser at h
  split at h
  · cases h
  · cases h
    exact ⟨rfl, rfl⟩

theorem insertUser_eq_none_iff {user : NewUser} :
    t.insertUser user = none ↔ user.username ∈ t.users.map UserRow.username := by
  unfold Tables.insertUser
  split <;> simp [*]

theorem insertPermission_spec (h : t.insertPermission userId permission = some t') :
    t'.users = t.users ∧ t'.permissionSeq = t.permissionSeq + 1 ∧
      t'.permissions = t.permissions ++ [⟨t.permissionSeq + 1, userId, permission⟩] := by
  unfold Tables.insertPermission at h
  split at h
  · split at h
    · cases h
    · cases h
      exact ⟨rfl, rfl, rfl⟩
  · cases h

theorem insertPermission_eq_none_iff :
    t.insertPermission userId permission = none ↔
      (userId, permission) ∈ (t.permissions.map fun row => (row.userId, row.permission)) ∨
        userId ∉ t.users.map UserRow.id := by
  unfold Tables.insertPermission
  split
  · split <;> simp [*]
  · simp [*]

theorem insertOrIgnorePermission_users (h : t.insertOrIgnorePermission userId permission = some t') :
    t'.users = t.users := by
  unfold Tables.insertOrIgnorePermission at h
  split at h
  · cases h
    rfl
  · exact (insertPermission_spec h).1

theorem insertUser_new {user : NewUser} {newId : Int} (h : t.insertUser user = some (newId, t')) :
    user.row newId ∈ t'.users ∧ user.row newId ∉ t.users := by
  obtain ⟨rfl, husers⟩ := insertUser_spec h
  refine ⟨husers ▸ List.mem_append_right _ (List.mem_singleton_self _), fun hin => ?_⟩
  exact t.fresh_id (List.mem_map_of_mem hin)

theorem deletePermissions_of_none (h : ∀ row ∈ t.permissions, row.userId ≠ userId) : t.deletePermissions userId = t := by
  have hall : (t.permissions.filter fun row => row.userId ≠ userId) = t.permissions :=
    List.filter_eq_self.mpr fun row hrow => decide_eq_true (h row hrow)
  exact Tables.ext rfl rfl hall rfl

def Idle (userId : Int) (changes : UserChanges) (t : Tables) : Prop :=
  ∀ row ∈ t.users, row.id = userId → changes.apply row = row

theorem updateUser_users {changes : UserChanges} :
    (t.updateUser userId changes).users = t.users.map (onUser userId changes.apply) := rfl

theorem updateUser_users_iff {changes : UserChanges} :
    (t.updateUser userId changes).users = t.users ↔ Idle userId changes t := by
  have hmap : t.users.map (onUser userId changes.apply) = t.users ↔
      ∀ row ∈ t.users, onUser userId changes.apply row = row := by
    conv_lhs => rhs; rw [← List.map_id t.users]
    exact List.map_inj_left
  rw [updateUser_users, hmap]
  refine forall₂_congr fun row _ => ?_
  unfold onUser
  split
  · simp [*]
  · simp [*]

theorem Idle.updateUser {changes : UserChanges} (h : Idle userId changes t) : t.updateUser userId changes = t :=
  Tables.ext (updateUser_users_iff.mpr h) rfl rfl rfl

end Palworld.Database

import Palworld.Accounts.Handlers
import Palworld.Lib.Run

/-!
# The last administrator

Every handler that demotes, deactivates or deletes a user counts the active administrators
first. With two of them another one is left, as ids are unique.
-/

open Lib Lib.Db
open Palworld.Auth (UserRecord)
open Palworld.Database

namespace Palworld.Accounts

variable {t t' : Tables} {userId : Int} {changes : UserChanges} {row : UserRow} {F I : Tables → Prop}

def Administers (row : UserRow) : Prop := row.role = lit "admin" ∧ row.isActive ≠ 0

instance (row : UserRow) : Decidable (Administers row) := inferInstanceAs (Decidable (_ ∧ _))

def HasAdmin (t : Tables) : Prop := ∃ row ∈ t.users, Administers row

instance (t : Tables) : Decidable (HasAdmin t) := inferInstanceAs (Decidable (∃ row ∈ t.users, Administers row))

/-- Some user other than this one is an active administrator. -/
def Spared (userId : Int) (t : Tables) : Prop := ∃ row ∈ t.users, Administers row ∧ row.id ≠ userId

/-- The changes make no administrator anything else. -/
def Sparing (changes : UserChanges) : Prop :=
  (changes.role = none ∨ changes.role = some (lit "admin")) ∧ changes.isActive ≠ some false

/-! ## Statements -/

theorem HasAdmin.of_users (husers : t'.users = t.users) (h : HasAdmin t) : HasAdmin t' := by
  unfold HasAdmin
  rw [husers]
  exact h

theorem hasAdmin_insertUser {user : NewUser} {newId : Int} (h : HasAdmin t)
    (hins : t.insertUser user = some (newId, t')) : HasAdmin t' := by
  obtain ⟨row, hrow, hadmin⟩ := h
  exact ⟨row, (insertUser_spec hins).2 ▸ List.mem_append_left _ hrow, hadmin⟩

theorem Spared.updateUser (h : Spared userId t) : HasAdmin (t.updateUser userId changes) := by
  obtain ⟨row, hrow, hadmin, hne⟩ := h
  refine ⟨row, ?_, hadmin⟩
  rw [updateUser_users]
  exact List.mem_map.mpr ⟨row, hrow, if_neg hne⟩

theorem Sparing.apply (h : Sparing changes) (hadmin : Administers row) : Administers (changes.apply row) := by
  obtain ⟨hrole, hactive⟩ := h
  unfold UserChanges.apply
  refine ⟨?_, ?_⟩
  · rcases hrole with hrole | hrole <;> simp [hrole, hadmin.1]
  · rcases hnew : changes.isActive with _ | _ | _
    · exact hadmin.2
    · exact absurd hnew hactive
    · exact Int.one_ne_zero

theorem Sparing.updateUser (h : Sparing changes) (hadmin : HasAdmin t) : HasAdmin (t.updateUser userId changes) := by
  obtain ⟨row, hrow, hadmin⟩ := hadmin
  refine ⟨onUser userId changes.apply row, List.mem_map_of_mem hrow, ?_⟩
  unfold onUser
  split
  · exact h.apply hadmin
  · exact hadmin

theorem Spared.deleteUser (h : Spared userId t) : HasAdmin (t.deleteUser userId) := by
  obtain ⟨row, hrow, hadmin, hne⟩ := h
  exact ⟨row, List.mem_filter.mpr ⟨hrow, decide_eq_true hne⟩, hadmin⟩

/-! ## What the checks know -/

theorem spared_of_two (h : 2 ≤ t.activeAdmins) (userId : Int) : Spared userId t := by
  unfold Tables.activeAdmins at h
  rw [List.countP_eq_length_filter] at h
  have hsub : (t.users.filter fun row => row.role = lit "admin" ∧ row.isActive = 1).Sublist t.users := List.filter_sublist
  have hids := t.wellFormed.userIds.sublist (hsub.map UserRow.id)
  rcases hadmins : t.users.filter fun row => row.role = lit "admin" ∧ row.isActive = 1 with _ | ⟨a, _ | ⟨b, rest⟩⟩
  · rw [hadmins] at h
    exact absurd h (by decide)
  · rw [hadmins] at h
    exact absurd h (by simp)
  rw [hadmins] at hids
  have hactive : ∀ row ∈ a :: b :: rest, row ∈ t.users ∧ Administers row := by
    intro row hrow
    rw [← hadmins] at hrow
    obtain ⟨hin, hrole⟩ := List.mem_filter.mp hrow
    obtain ⟨hrole, hone⟩ := of_decide_eq_true hrole
    exact ⟨hin, hrole, by omega⟩
  by_cases ha : a.id = userId
  · obtain ⟨hin, hadmin⟩ := hactive b (by simp)
    refine ⟨b, hin, hadmin, fun hb => ?_⟩
    simp [ha, hb] at hids
  · obtain ⟨hin, hadmin⟩ := hactive a (by simp)
    exact ⟨a, hin, hadmin, ha⟩

theorem HasAdmin.spared (h : HasAdmin t) (hrow : t.userById userId = some row)
    (hnot : isActiveAdmin (rowToUser row) = false) : Spared userId t := by
  obtain ⟨admin, hin, hadmin⟩ := h
  refine ⟨admin, hin, hadmin, fun hid => ?_⟩
  obtain ⟨hin', hid'⟩ := userById_spec hrow
  have hsame : admin = row := List.inj_on_of_nodup_map t.wellFormed.userIds hin hin' (hid.trans hid'.symm)
  subst hsame
  simp [isActiveAdmin, rowToUser, hadmin.1, hadmin.2] at hnot

/-! ## Requests -/

inductive AccountRequest
  | register (req : UserRegisterRequest)
  | createNewUser (req : UserCreateRequest)
  | updateExistingUser (userId : Int) (req : UserUpdateRequest)
  | updateUserRole (userId : Int) (req : UserRoleUpdateRequest)
  | deleteExistingUser (adminUser : UserRecord) (userId : Int)

/-- A request, with what its handler meets. -/
structure Arrival where
  request : AccountRequest
  env : Ambient
  faults : List Bool  -- the outcomes of its statements

def AccountRequest.handle (env : Ambient) : AccountRequest → Call Unit
  | .register req => do
    let _ ← Accounts.register env req
  | .createNewUser req => do
    let _ ← Accounts.createNewUser env req
  | .updateExistingUser userId req => do
    let _ ← Accounts.updateExistingUser env userId req
  | .updateUserRole userId req => do
    let _ ← Accounts.updateUserRole userId req
  | .deleteExistingUser adminUser userId => do
    let _ ← Accounts.deleteExistingUser adminUser userId

def serve (s : Session Tables) (a : Arrival) : Session Tables :=
  ((a.request.handle a.env).on { s with faults := a.faults }).2

/-! ## What a handler has read -/

/-- The user that the handler has read. -/
def Read (userId : Int) (existing : UserRecord) (t : Tables) : Prop :=
  HasAdmin t ∧ (t.userById userId).map rowToUser = some existing

/-- Another administrator is left, unless a check let the last one's request through. -/
theorem Read.allowed {existing : UserRecord} {A : Prop} (h : Read userId existing t)
    (hcheck : isActiveAdmin existing = true → 2 ≤ t.activeAdmins ∨ A) : Spared userId t ∨ A := by
  obtain ⟨hadmin, hfound⟩ := h
  obtain ⟨row, hrow, rfl⟩ := Option.map_eq_some_iff.mp hfound
  cases hactive : isActiveAdmin (rowToUser row) with
  | false => exact .inl (hadmin.spared hrow hactive)
  | true => exact (hcheck hactive).imp_left fun h => spared_of_two h userId

theorem sparing_of_checks {role : Option RoleType} {email passwordHash salt : Option Text} {isActive : Option Bool}
    (hrole : demotes role = false) (hactive : isActive ≠ some false) :
    Sparing ⟨email, role.map RoleType.text, isActive, passwordHash, salt⟩ := by
  refine ⟨?_, hactive⟩
  cases role with
  | none => exact .inl rfl
  | some role =>
    cases role with
    | admin => exact .inr rfl
    | operator => exact absurd hrole (by decide)
    | viewer => exact absurd hrole (by decide)

theorem triple_getUserById :
    Triple (Session.Meets HasAdmin F) (getUserById userId)
      (fun found s => match found with
        | some existing => Session.Meets (Read userId existing) F s
        | none => Session.Meets HasAdmin F s)
      (Session.Meets HasAdmin F) := by
  refine triple_query (fun s hs _ => ?_) fun s hs _ => hs
  cases hfound : (s.current.userById userId).map rowToUser with
  | none => exact hs
  | some existing => exact ⟨⟨hs.1, hfound⟩, hs.2⟩

theorem triple_refuseLast {kind : Bool} {detail : Text} (hI : ∀ t, I t → HasAdmin t) :
    Triple (Session.Meets I F) (refuseLast kind detail)
      (fun _ => Session.Meets (fun t => I t ∧ (kind = true → 2 ≤ t.activeAdmins)) F) (Session.Meets HasAdmin F) := by
  unfold refuseLast
  cases kind with
  | false => exact fun s hs => ⟨⟨hs.1, nofun⟩, hs.2⟩
  | true =>
    rw [if_pos rfl]
    refine Triple.bind (Q := fun count s => Session.Meets I F s ∧ count = s.current.activeAdmins)
      (triple_query (fun s hs _ => ⟨hs, rfl⟩) fun s hs _ => ⟨hI _ hs.1, hs.2⟩) fun count => ?_
    by_cases hcount : count ≤ 1
    · rw [if_pos hcount]
      exact fun s hs => ⟨hI _ hs.1.1, hs.1.2⟩
    · rw [if_neg hcount]
      rintro s ⟨hs, rfl⟩
      exact ⟨⟨hs.1, fun _ => by omega⟩, hs.2⟩

/-! ## Database methods -/

theorem ofUsers_hasAdmin : OfUsers HasAdmin := fun _ _ husers => HasAdmin.of_users husers

section Keeps

variable (hF : ∀ t, HasAdmin t → F t)

include hF

theorem keeps_createUser (user : NewUser) : Keeps (Session.Meets HasAdmin F) (createUser user) := by
  refine Keeps.bind (keeps_execute fun t a t' hins h => hasAdmin_insertUser h hins) fun newId => ?_
  exact keeps_finishUser ofUsers_hasAdmin hF

theorem triple_updateUser :
    Triple (Session.Meets (fun t => HasAdmin t ∧ (Spared userId t ∨ Sparing changes)) F) (updateUser userId changes)
      (fun _ => Session.Meets HasAdmin F) (Session.Meets HasAdmin F) := by
  unfold updateUser
  refine Triple.bind (Q := fun _ => Session.Meets (fun t => HasAdmin t ∧ (Spared userId t ∨ Sparing changes)) F)
    (triple_query (fun s hs _ => hs) fun s hs _ => ⟨hs.1.1, hs.2⟩) fun found => ?_
  cases found with
  | none => exact fun s hs => ⟨hs.1.1, hs.2⟩
  | some existing =>
    refine Triple.bind (Q := fun _ => Session.Meets HasAdmin F)
      (triple_execute (fun s hs _ _ t ht => ?_) fun s hs _ => ⟨hs.1.1, hs.2⟩) fun _ => ?_
    · cases ht
      refine ⟨?_, hs.2⟩
      rcases hs.1.2 with hspared | hsparing
      · exact hspared.updateUser
      · exact hsparing.updateUser hs.1.1
    · refine (keeps_syncPermissions ofUsers_hasAdmin _).bind fun _ => ?_
      exact (keeps_commit hF).bind fun _ => keeps_query _

theorem triple_deleteUser :
    Triple (Session.Meets (fun t => HasAdmin t ∧ Spared userId t) F) (deleteUser userId)
      (fun _ => Session.Meets HasAdmin F) (Session.Meets HasAdmin F) := by
  unfold deleteUser
  refine Triple.bind (Q := fun _ => Session.Meets HasAdmin F)
    (triple_execute (fun s hs _ _ t ht => ?_) fun s hs _ => ⟨hs.1.1, hs.2⟩) fun deleted => ?_
  · cases ht
    exact ⟨hs.1.2.deleteUser, hs.2⟩
  · exact (keeps_commit hF).bind fun _ => keeps_pure

/-! ## Handlers -/

theorem keeps_setRequested (env : Ambient) (permissions : Option (List Text)) :
    Keeps (Session.Meets HasAdmin F) (setRequested env userId permissions) := by
  cases permissions with
  | none => exact keeps_pure
  | some permissions => exact keeps_setUserPermissions ofUsers_hasAdmin hF _

theorem keeps_register (env : Ambient) (req : UserRegisterRequest) :
    Keeps (Session.Meets HasAdmin F) (register env req) := by
  unfold register
  refine (keeps_query _).bind fun found => ?_
  cases found with
  | some existing => exact keeps_throw
  | none => exact (keeps_createUser hF _).bind fun user => (keeps_query _).bind fun perms => keeps_pure

theorem keeps_createNewUser (env : Ambient) (req : UserCreateRequest) :
    Keeps (Session.Meets HasAdmin F) (createNewUser env req) := by
  unfold createNewUser
  refine (keeps_query _).bind fun found => ?_
  cases found with
  | some existing => exact keeps_throw
  | none =>
    refine (keeps_createUser hF _).bind fun user => (keeps_setRequested hF env _).bind fun _ => ?_
    exact (keeps_query _).bind fun perms => keeps_pure

theorem keeps_updateExistingUser (env : Ambient) (req : UserUpdateRequest) :
    Keeps (Session.Meets HasAdmin F) (updateExistingUser env userId req) := by
  unfold updateExistingUser
  refine Triple.bind triple_getUserById fun found => ?_
  cases found with
  | none => exact keeps_throw
  | some existing =>
    refine Triple.bind (triple_refuseLast fun t ht => ht.1) fun _ => ?_
    refine Triple.bind (triple_refuseLast fun t ht => ht.1.1) fun _ => ?_
    refine Triple.bind ((triple_updateUser hF).mono (fun s hs => ⟨⟨hs.1.1.1.1, hs.1.1.1.allowed fun hadmin => ?_⟩, hs.2⟩)
      (fun _ _ h => h) fun _ h => h) fun updated => ?_
    · obtain ⟨⟨⟨-, hdemote⟩, hdeactivate⟩, -⟩ := hs
      rw [hadmin, Bool.true_and] at hdemote hdeactivate
      cases hrole : demotes req.role with
      | true => exact .inl (hdemote hrole)
      | false =>
        by_cases hactive : req.isActive = some false
        · exact .inl (hdeactivate (decide_eq_true hactive))
        · exact .inr (sparing_of_checks hrole hactive)
    · cases updated with
      | none => exact keeps_throw
      | some updated =>
        exact (keeps_setRequested hF env _).bind fun _ => (keeps_query _).bind fun perms => keeps_pure

theorem keeps_updateUserRole (req : UserRoleUpdateRequest) :
    Keeps (Session.Meets HasAdmin F) (updateUserRole userId req) := by
  unfold updateUserRole
  refine Triple.bind triple_getUserById fun found => ?_
  cases found with
  | none => exact keeps_throw
  | some existing =>
    refine Triple.bind (triple_refuseLast fun t ht => ht.1) fun _ => ?_
    refine Triple.bind ((triple_updateUser hF).mono (fun s hs => ⟨⟨hs.1.1.1, hs.1.1.allowed fun hadmin => ?_⟩, hs.2⟩)
      (fun _ _ h => h) fun _ h => h) fun updated => ?_
    · obtain ⟨⟨-, hdemote⟩, -⟩ := hs
      rw [hadmin, Bool.true_and] at hdemote
      by_cases hrole : req.role = .admin
      · exact .inr ⟨.inr (congrArg (some ∘ RoleType.text) hrole), nofun⟩
      · exact .inl (hdemote (decide_eq_true hrole))
    · cases updated with
      | none => exact keeps_throw
      | some updated => exact (keeps_query _).bind fun perms => keeps_pure

theorem keeps_deleteExistingUser (adminUser : UserRecord) :
    Keeps (Session.Meets HasAdmin F) (deleteExistingUser adminUser userId) := by
  unfold deleteExistingUser
  split
  · exact keeps_throw
  refine Triple.bind triple_getUserById fun found => ?_
  cases found with
  | none => exact keeps_throw
  | some existing =>
    refine Triple.bind (triple_refuseLast fun t ht => ht.1) fun _ => ?_
    refine Triple.bind ((triple_deleteUser hF).mono (fun s hs => ⟨⟨hs.1.1.1, ?_⟩, hs.2⟩) (fun _ _ h => h) fun _ h => h)
      fun deleted => ?_
    · exact (hs.1.1.allowed fun hadmin => .inl (hs.1.2 hadmin)).resolve_right not_false
    · cases deleted with
      | true => exact keeps_pure
      | false => exact keeps_throw

theorem keeps_handle (env : Ambient) (request : AccountRequest) :
    Keeps (Session.Meets HasAdmin F) (request.handle env) := by
  cases request with
  | register req => exact (keeps_register hF env req).bind fun _ => keeps_pure
  | createNewUser req => exact (keeps_createNewUser hF env req).bind fun _ => keeps_pure
  | updateExistingUser userId req => exact (keeps_updateExistingUser hF env req).bind fun _ => keeps_pure
  | updateUserRole userId req => exact (keeps_updateUserRole hF req).bind fun _ => keeps_pure
  | deleteExistingUser adminUser userId => exact (keeps_deleteExistingUser hF adminUser).bind fun _ => keeps_pure

theorem serve_keeps {s : Session Tables} (a : Arrival) (h : s.Meets HasAdmin F) : (serve s a).Meets HasAdmin F :=
  (keeps_handle hF a.env a.request).after h

theorem serve_all_keeps {s : Session Tables} (arrivals : List Arrival) (h : s.Meets HasAdmin F) :
    (arrivals.foldl serve s).Meets HasAdmin F := by
  induction arrivals generalizing s with
  | nil => exact h
  | cons a arrivals ih => exact ih (serve_keeps hF a h)

end Keeps

/-- **The portal keeps an administrator.** Requests in any order, by any callers, some of whose statements may
fail, leave an active administrator; and so does a restart that loses the open transaction, when the file had one. -/
theorem administrator_remains {s : Session Tables} (arrivals : List Arrival) (h : HasAdmin s.current) :
    HasAdmin (arrivals.foldl serve s).current ∧ (HasAdmin s.stored → HasAdmin (arrivals.foldl serve s).stored) :=
  ⟨(serve_all_keeps (F := fun _ => True) (fun _ _ => trivial) arrivals ⟨h, trivial⟩).1,
    fun hstored => (serve_all_keeps (fun _ h => h) arrivals ⟨h, hstored⟩).2⟩

/-! ## The only administrator -/

def plainEnv : Ambient where
  hashPassword := fun password => (password.reverse, lit "9ae1")
  now := lit "2025-01-01T00:00:00+00:00"
  setOrder := fun permissions => ⟨permissions.dedup, .refl _⟩

def soleAdmin : Session Tables :=
  ((createUser ⟨lit "admin", lit "5f4dcc3b", lit "9ae1", [], lit "admin", true, plainEnv.now⟩).on
    ⟨emptyTables, emptyTables, []⟩).2

/-- A caller who was an administrator when the request was authorised. -/
def formerAdmin : UserRecord := ⟨2, lit "anna", [], [], [], lit "admin", true, plainEnv.now, none⟩

theorem sole_admin_remains :
    HasAdmin ([⟨.updateUserRole 1 ⟨.viewer⟩, plainEnv, []⟩, ⟨.deleteExistingUser formerAdmin 1, plainEnv, []⟩].foldl
      serve soleAdmin).current :=
  (administrator_remains _ (by decide +kernel)).1

example : ((deleteExistingUser formerAdmin 1).on soleAdmin).1 = .error (.http 400 noDeletion) := by decide +kernel

end Palworld.Accounts

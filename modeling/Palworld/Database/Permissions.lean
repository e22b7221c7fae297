import Palworld.Database.AllOrNothing
import Palworld.Lib.Run
import Mathlib.Data.List.Dedup

/-!
# Assigned permissions

What a user may do is read off the stored rows and the defaults of the role. The rows are
those of the list that was assigned to the user last.
-/

open Lib Lib.Db
open Palworld.Auth (UserRecord)

namespace Palworld.Database

def hasPermission (userRole : Text) (userPermissions : List Text) (requiredPermission : Text) : Bool :=
  if userRole = lit "admin" then true
  else if lit "*" ∈ userPermissions then true
  else if requiredPermission ∈ userPermissions then true
  else requiredPermission ∈ defaultRolePermissions userRole

/-- The rows that `get_user_permissions` reads. -/
def Tables.permissionsOf (userId : Int) (t : Tables) : List Text :=
  ((t.permissions.filter fun row => row.userId = userId).map PermissionRow.permission).mergeSort fun p q => p ≤ q

def Tables.Grants (t : Tables) (userId : Int) (permission : Text) : Prop :=
  (userId, permission) ∈ t.permissions.map fun row => (row.userId, row.permission)

variable {t t' : Tables} {s : Session Tables} {i userId : Int} {q permission : Text} {assigned : Int → List Text}

theorem mem_permissionsOf : q ∈ t.permissionsOf userId ↔ t.Grants userId q := by
  unfold Tables.permissionsOf Tables.Grants
  simp only [List.mem_mergeSort, List.mem_map, List.mem_filter, decide_eq_true_eq, Prod.mk.injEq]
  constructor
  · rintro ⟨row, ⟨hrow, hid⟩, hq⟩
    exact ⟨row, hrow, hid, hq⟩
  · rintro ⟨row, hrow, hid, hq⟩
    exact ⟨row, ⟨hrow, hid⟩, hq⟩

theorem hasPermission_iff {role : Text} {permissions : List Text} (hrole : role ≠ lit "admin") :
    hasPermission role permissions q = true ↔
      (q ∈ permissions ∨ lit "*" ∈ permissions) ∨ q ∈ defaultRolePermissions role := by
  unfold hasPermission
  split_ifs <;> simp_all

/-! ## What a statement grants -/

theorem grants_deletePermissions : (t.deletePermissions userId).Grants i q ↔ t.Grants i q ∧ i ≠ userId := by
  simp only [Tables.Grants, Tables.deletePermissions, List.mem_map, List.mem_filter, decide_eq_true_eq, Prod.mk.injEq]
  constructor
  · rintro ⟨row, ⟨hrow, hne⟩, rfl, rfl⟩
    exact ⟨⟨row, hrow, rfl, rfl⟩, hne⟩
  · rintro ⟨⟨row, hrow, rfl, rfl⟩, hne⟩
    exact ⟨row, ⟨hrow, hne⟩, rfl, rfl⟩

theorem grants_deleteUser : (t.deleteUser userId).Grants i q ↔ t.Grants i q ∧ i ≠ userId := grants_deletePermissions

theorem grants_insertPermission (h : t.insertPermission userId permission = some t') :
    t'.Grants i q ↔ t.Grants i q ∨ i = userId ∧ q = permission := by
  obtain ⟨-, -, hpermissions⟩ := insertPermission_spec h
  simp [Tables.Grants, hpermissions]

theorem grants_insertOrIgnorePermission (h : t.insertOrIgnorePermission userId permission = some t') :
    t'.Grants i q ↔ t.Grants i q ∨ i = userId ∧ q = permission := by
  unfold Tables.insertOrIgnorePermission at h
  split at h
  · rename_i hin
    cases h
    refine ⟨Or.inl, ?_⟩
    rintro (hgrants | ⟨rfl, rfl⟩)
    · exact hgrants
    · exact hin
  · exact grants_insertPermission h

theorem not_grants_fresh : ¬ t.Grants (t.userSeq + 1) q := by
  intro h
  obtain ⟨row, hrow, hpair⟩ := List.mem_map.mp h
  apply t.fresh_id
  rw [← (Prod.mk.inj hpair).1]
  exact t.wellFormed.owned row hrow

/-! ## What a call that returns leaves -/

/-- The connection sees these users, and grants what `granted` says. -/
structure Shows (users : List UserRow) (granted : Int → Text → Prop) (s : Session Tables) : Prop where
  users : s.current.users = users
  granted : ∀ i q, s.current.Grants i q ↔ granted i q

def granting (granted : Int → Text → Prop) (userId : Int) (permissions : List Text) (i : Int) (q : Text) : Prop :=
  granted i q ∨ i = userId ∧ q ∈ permissions

def assigning (granted : Int → Text → Prop) (userId : Int) (permissions : List Text) (i : Int) (q : Text) : Prop :=
  if i = userId then q ∈ permissions else granted i q

variable {users : List UserRow} {granted granted' : Int → Text → Prop} {permissions : List Text}

theorem Shows.mono (h : Shows users granted s) (hgranted : ∀ i q, granted i q ↔ granted' i q) : Shows users granted' s :=
  ⟨h.users, fun i q => (h.granted i q).trans (hgranted i q)⟩

theorem granting_cons (i : Int) (q : Text) :
    granting (granting granted userId [permission]) userId permissions i q ↔
      granting granted userId (permission :: permissions) i q := by
  simp only [granting, List.mem_cons, List.not_mem_nil, or_false]
  tauto

theorem grantAll (insert : Text → Tables → Option Tables)
    (husers : ∀ q t t', insert q t = some t' → t'.users = t.users)
    (hgrants : ∀ q t t' i q', insert q t = some t' → (t'.Grants i q' ↔ t.Grants i q' ∨ i = userId ∧ q' = q))
    (permissions : List Text) (granted : Int → Text → Prop) :
    Triple (Shows users granted)
      (permissions.forM fun q => execute fun t => (insert q t).map (Prod.mk ()) : Call Unit)
      (fun _ => Shows users (granting granted userId permissions)) (fun _ => True) := by
  induction permissions generalizing granted with
  | nil => exact fun s hs => hs.mono (by simp [granting])
  | cons permission permissions ih =>
    refine Triple.bind (Q := fun _ => Shows users (granting granted userId [permission])) (triple_execute ?_ ?_) fun _ =>
      (ih _).mono (fun _ h => h) (fun _ s hs => hs.mono granting_cons) fun _ h => h
    · intro s hs _ a t ht
      obtain ⟨t', ht', hpair⟩ := Option.map_eq_some_iff.mp ht
      cases hpair
      refine ⟨(husers _ _ _ ht').trans hs.users, fun i q => ?_⟩
      rw [hgrants _ _ _ _ _ ht', hs.granted, granting, List.mem_singleton]
    · exact fun _ _ _ => trivial

theorem commit_shows : Triple (Shows users granted) (commit : Call Unit) (fun _ => Shows users granted) (fun _ => True) :=
  triple_commit (fun _ hs _ => ⟨hs.users, hs.granted⟩) fun _ _ _ => trivial

theorem query_shows {α : Type} (f : Tables → α) :
    Triple (Shows users granted) (query f : Call α) (fun _ => Shows users granted) (fun _ => True) :=
  triple_query (fun _ hs _ => ⟨hs.users, hs.granted⟩) fun _ _ _ => trivial

/-- The rows of a user that had none are those of the list. -/
theorem granting_eq_assigning (h : ∀ q, ¬ granted userId q) (i : Int) (q : Text) :
    granting granted userId permissions i q ↔ assigning granted userId permissions i q := by
  unfold granting assigning
  split
  · rename_i hi
    subst hi
    simp [h]
  · simp [*]

theorem createUser_shows {user : NewUser} (s₀ : Session Tables) :
    Triple (fun s => s = s₀) (createUser user)
      (fun _ => Shows (s₀.current.users ++ [user.row (s₀.current.userSeq + 1)])
        (assigning s₀.current.Grants (s₀.current.userSeq + 1) (defaultRolePermissions user.role)))
      (fun _ => True) := by
  unfold createUser getUserById
  refine Triple.bind (Q := fun newId s => newId = s₀.current.userSeq + 1 ∧
    Shows (s₀.current.users ++ [user.row newId]) s₀.current.Grants s) (triple_execute ?_ ?_) fun newId => ?_
  · rintro s rfl - newId t ht
    obtain ⟨hid, husers⟩ := insertUser_spec ht
    refine ⟨hid, husers, fun i q => ?_⟩
    unfold Tables.insertUser at ht
    split at ht
    · cases ht
    · cases ht
      exact Iff.rfl
  · exact fun _ _ _ => trivial
  rintro s ⟨rfl, hs⟩
  revert s
  refine Triple.bind (grantAll (fun q t => t.insertOrIgnorePermission _ q)
    (fun _ _ _ => insertOrIgnorePermission_users) (fun _ _ _ _ _ => grants_insertOrIgnorePermission) _ _) fun _ => ?_
  refine Triple.bind commit_shows fun _ => Triple.bind (query_shows _) fun found => ?_
  cases found with
  | some record => exact fun s hs => hs.mono (granting_eq_assigning fun _ => not_grants_fresh)
  | none => exact fun _ _ => trivial

/-- The deletion of a user's rows, then the rows of the list. -/
theorem replaceAll (insert : Text → Tables → Option Tables)
    (husers : ∀ q t t', insert q t = some t' → t'.users = t.users)
    (hgrants : ∀ q t t' i q', insert q t = some t' → (t'.Grants i q' ↔ t.Grants i q' ∨ i = userId ∧ q' = q)) :
    Triple (Shows users granted)
      (do
        deletePermissions userId
        permissions.forM fun q => execute fun t => (insert q t).map (Prod.mk ()) : Call Unit)
      (fun _ => Shows users (assigning granted userId permissions)) (fun _ => True) := by
  refine Triple.bind (Q := fun _ => Shows users fun i q => granted i q ∧ i ≠ userId) (triple_execute ?_ ?_) fun _ =>
    (grantAll insert husers hgrants permissions _).mono (fun _ h => h) (fun _ s hs => hs.mono fun i q => ?_) fun _ h => h
  · intro s hs _ a t ht
    cases ht
    exact ⟨hs.users, fun i q => grants_deletePermissions.trans (and_congr_left fun _ => hs.granted i q)⟩
  · exact fun _ _ _ => trivial
  · rw [granting_eq_assigning (by simp)]
    unfold assigning
    split <;> simp [*]

theorem setUserPermissions_shows (order : SetOrder permissions) :
    Triple (Shows users granted) (setUserPermissions userId order)
      (fun _ => Shows users (assigning granted userId permissions)) (fun _ => True) := by
  have hperm : ∀ i q, assigning granted userId order.val i q ↔ assigning granted userId permissions i q := by
    intro i q
    unfold assigning
    simp only [order.property.mem_iff, List.mem_dedup]
  have hprogram : setUserPermissions userId order =
      (do
        deletePermissions userId
        order.val.forM (insertPermission userId)) >>= fun _ => commit := (bind_assoc _ _ _).symm
  rw [hprogram]
  refine Triple.bind (replaceAll (fun q t => t.insertPermission userId q)
    (fun _ _ _ h => (insertPermission_spec h).1) fun _ _ _ _ _ => grants_insertPermission) fun _ => ?_
  exact commit_shows.mono (fun _ h => h) (fun _ s hs => hs.mono hperm) fun _ h => h

theorem syncPermissions_shows {role : Text} :
    Triple (Shows users granted) (syncPermissions userId (some role))
      (fun _ => Shows users (assigning granted userId (defaultRolePermissions role))) (fun _ => True) :=
  replaceAll (fun q t => t.insertOrIgnorePermission userId q)
    (fun _ _ _ => insertOrIgnorePermission_users) fun _ _ _ _ _ => grants_insertOrIgnorePermission

/-- The list that a call assigns when it returns, with the user it is for. -/
def Mutation.assigns : Mutation → Tables → Option (Int × List Text)
  | .createUser user, t => some (t.userSeq + 1, defaultRolePermissions user.role)
  | .updateUser userId changes, t =>
    ((t.userById userId).bind fun row => newRole changes (rowToUser row)).map fun role =>
      (userId, defaultRolePermissions role)
  | @Mutation.setUserPermissions userId permissions _, _ => some (userId, permissions)

def assigningLast (granted : Int → Text → Prop) : Option (Int × List Text) → Int → Text → Prop
  | some (userId, permissions) => assigning granted userId permissions
  | none => granted

/-- A mutation that returned: the users are those of before and the one it assigns to, and the rows are assigned. -/
structure Follows (mutation : Mutation) (t t' : Tables) : Prop where
  users : ∀ i ∈ t'.users.map UserRow.id, i ∈ t.users.map UserRow.id ∨ ∃ permissions, mutation.assigns t = some (i, permissions)
  granted : ∀ i q, t'.Grants i q ↔ assigningLast t.Grants (mutation.assigns t) i q

theorem updateUser_ids {changes : UserChanges} :
    (t.updateUser userId changes).users.map UserRow.id = t.users.map UserRow.id := by
  rw [updateUser_users, List.map_map]
  exact List.map_congr_left fun row _ => onUser_id (f := changes.apply) (fun _ => rfl) row

theorem updateUser_follows {changes : UserChanges} (s₀ : Session Tables) :
    Triple (fun s => s = s₀) (updateUser userId changes)
      (fun _ s => Follows (.updateUser userId changes) s₀.current s.current) (fun _ => True) := by
  unfold updateUser getUserById
  refine Triple.bind (Q := fun found s => s.current = s₀.current ∧ found = (s₀.current.userById userId).map rowToUser)
    (triple_query ?_ ?_) fun found => ?_
  · rintro s rfl -
    exact ⟨rfl, rfl⟩
  · exact fun _ _ _ => trivial
  cases hrow : s₀.current.userById userId with
  | none =>
    rintro s ⟨hs, rfl⟩
    have hnone : (Mutation.updateUser userId changes).assigns s₀.current = none := by simp [Mutation.assigns, hrow]
    refine ⟨fun i hi => .inl (by rwa [← hs]), fun i q => ?_⟩
    rw [hnone, assigningLast, ← hs]
  | some row =>
    rintro s ⟨hs, rfl⟩
    revert s
    have hassigns : (Mutation.updateUser userId changes).assigns s₀.current =
        (newRole changes (rowToUser row)).map fun role => (userId, defaultRolePermissions role) := by
      simp [Mutation.assigns, hrow]
    have hshows : ∀ s, Shows (s₀.current.updateUser userId changes).users
        (assigningLast s₀.current.Grants ((Mutation.updateUser userId changes).assigns s₀.current)) s →
          Follows (.updateUser userId changes) s₀.current s.current := by
      refine fun s hs => ⟨fun i hi => .inl ?_, hs.granted⟩
      rwa [hs.users, updateUser_ids] at hi
    refine Triple.bind (Q := fun _ => Shows (s₀.current.updateUser userId changes).users s₀.current.Grants)
      (triple_execute ?_ ?_) fun _ => ?_
    · intro s hs _ a t ht
      cases ht
      rw [hs]
      exact ⟨rfl, fun i q => Iff.rfl⟩
    · exact fun _ _ _ => trivial
    refine Triple.bind (Q := fun _ => Shows (s₀.current.updateUser userId changes).users
      (assigningLast s₀.current.Grants ((Mutation.updateUser userId changes).assigns s₀.current))) ?_ fun _ => ?_
    · rw [hassigns]
      cases newRole changes (rowToUser row) with
      | none => exact fun s hs => hs
      | some role => exact syncPermissions_shows
    · exact Triple.bind commit_shows fun _ => (query_shows _).mono (fun _ h => h) (fun _ => hshows) fun _ h => h

theorem Mutation.follows (mutation : Mutation) (s₀ : Session Tables) :
    Triple (fun s => s = s₀) mutation.program (fun _ s => Follows mutation s₀.current s.current) (fun _ => True) := by
  cases mutation with
  | createUser user =>
    refine Triple.bind (createUser_shows s₀) fun _ => ?_
    intro s hs
    refine ⟨fun i hi => ?_, hs.granted⟩
    rw [hs.users, List.map_append, List.mem_append] at hi
    refine hi.imp_right fun hi => ⟨defaultRolePermissions user.role, ?_⟩
    rw [List.mem_singleton.mp hi]
    rfl
  | updateUser userId changes => exact Triple.bind (updateUser_follows s₀) fun _ s hs => hs
  | setUserPermissions userId order =>
    have hstart : ∀ s, s = s₀ → Shows s₀.current.users s₀.current.Grants s := by
      rintro s rfl
      exact ⟨rfl, fun i q => Iff.rfl⟩
    exact (setUserPermissions_shows order).mono hstart
      (fun _ s hs => ⟨fun i hi => .inl (by rwa [hs.users] at hi), hs.granted⟩) fun _ h => h

/-! ## Runs -/

/-- The connection, with the list that each user was assigned last. -/
structure Accounts where
  session : Session Tables
  assigned : Int → List Text

def emptyAccounts : Accounts := ⟨⟨emptyTables, emptyTables, []⟩, fun _ => []⟩

def assignLast (assigned : Int → List Text) : Option (Int × List Text) → Int → List Text
  | some (userId, permissions) => Function.update assigned userId permissions
  | none => assigned

def Operation.assigns : Operation → Tables → Option (Int × List Text)
  | .mutate mutation, t => mutation.assigns t
  | _, _ => none

/-- The connection when a call begins, with the outcomes of its statements. -/
def Accounts.begin (a : Accounts) (faults : List Bool) : Session Tables := ⟨a.session.stored, a.session.current, faults⟩

def Accounts.call (a : Accounts) (call : Operation × List Bool) : Accounts :=
  match call.1.program.on (a.begin call.2) with
  | (.ok _, s) => ⟨s, assignLast a.assigned (call.1.assigns a.session.current)⟩
  | (.error _, s) => ⟨s, a.assigned⟩

def Called (a : Accounts) (call : Operation × List Bool) (a' : Accounts) : Prop := a' = a.call call

/-- A call that raises has written nothing by then. -/
def NothingHalfWritten (a : Accounts) (call : Operation × List Bool) : Prop :=
  match call.1 with
  | .mutate mutation =>
    (∃ err, (mutation.program.on (a.begin call.2)).1 = .error err) → mutation.Harmless (a.begin call.2)
  | _ => True

/-- The rows of each user are those of the list assigned to it last. -/
def Authoritative (assigned : Int → List Text) (t : Tables) : Prop :=
  ∀ i ∈ t.users.map UserRow.id, ∀ q, t.Grants i q ↔ q ∈ assigned i

theorem Follows.authoritative {mutation : Mutation} (h : Follows mutation t t') (ht : Authoritative assigned t) :
    Authoritative (assignLast assigned (mutation.assigns t)) t' := by
  intro i hi q
  rw [h.granted]
  have husers := h.users i hi
  cases hassigns : mutation.assigns t with
  | none =>
    rw [hassigns] at husers
    simp only [reduceCtorEq, exists_false, or_false] at husers
    exact ht i husers q
  | some last =>
    obtain ⟨userId, permissions⟩ := last
    rw [hassigns] at husers
    simp only [assigningLast, assigning, assignLast, Function.update_apply]
    split
    · rfl
    · rename_i hne
      refine ht i (husers.resolve_right ?_) q
      rintro ⟨_, hlast⟩
      exact hne (Prod.mk.inj (Option.some.inj hlast)).1.symm

theorem keeps_authoritative (h : ∀ t, Authoritative assigned t → F t) {operation : Operation}
    (hoperation : ∀ mutation, operation ≠ .mutate mutation) :
    Keeps (Session.Meets (Authoritative assigned) F) operation.program := by
  cases operation with
  | mutate mutation => exact absurd rfl (hoperation mutation)
  | deleteUser userId =>
    refine Keeps.bind ?_ fun _ => keeps_pure
    refine (keeps_execute fun t a t' hw ht => ?_).bind fun _ => (keeps_commit h).bind fun _ => keeps_pure
    cases hw
    intro i hi q
    obtain ⟨row, hrow, rfl⟩ := List.mem_map.mp hi
    obtain ⟨hrow, hne⟩ := List.mem_filter.mp hrow
    rw [grants_deleteUser, ht row.id (List.mem_map_of_mem hrow)]
    exact and_iff_left (of_decide_eq_true hne)
  | updateUserLastLogin userId timestamp =>
    refine (keeps_execute fun t a t' hw ht => ?_).bind fun _ => keeps_commit h
    cases hw
    intro i hi q
    refine ht i ?_ q
    obtain ⟨row, hrow, rfl⟩ := List.mem_map.mp hi
    obtain ⟨old, hold, rfl⟩ := List.mem_map.mp hrow
    have hid : (onUser userId (fun row => { row with lastLogin := some timestamp }) old).id = old.id := by
      unfold onUser
      split <;> rfl
    exact hid ▸ List.mem_map_of_mem hold
  | reads n => exact keeps_forM (fun _ => keeps_query _) _
  | writeElsewhere statements =>
    refine (keeps_forM (fun _ => keeps_execute fun t a t' hw ht => ?_) _).bind fun _ => keeps_commit h
    cases hw
    exact ht

theorem call_authoritative {a : Accounts} {call : Operation × List Bool} (hcall : NothingHalfWritten a call)
    (ha : Authoritative a.assigned a.session.current) :
    Authoritative (a.call call).assigned (a.call call).session.current := by
  obtain ⟨operation, faults⟩ := call
  have hother : (∀ mutation, operation ≠ .mutate mutation) →
      Authoritative a.assigned (operation.program.on (a.begin faults)).2.current := fun hoperation =>
    ((keeps_authoritative (F := fun _ => True) (fun _ _ => trivial) hoperation).after (s := a.begin faults)
      ⟨ha, trivial⟩).1
  unfold Accounts.call
  dsimp only
  rcases hrun : operation.program.on (a.begin faults) with ⟨result, s'⟩
  rw [hrun] at hother
  cases operation with
  | mutate mutation =>
    change mutation.program.on (a.begin faults) = (result, s') at hrun
    have hfollows := mutation.follows (a.begin faults) _ rfl
    have hjudged := mutation.judged (a.begin faults) _ rfl
    rw [hrun] at hfollows hjudged
    cases result with
    | ok _ => exact hfollows.authoritative ha
    | error err =>
      have hharmless := hcall ⟨err, congrArg Prod.fst hrun⟩
      rcases hjudged with ⟨-, hundone⟩ | ⟨hnot, -⟩
      · exact hundone.current.symm ▸ ha
      · exact absurd hharmless hnot
  | deleteUser | updateUserLastLogin | reads | writeElsewhere =>
    cases result <;> exact hother (by simp)

/-- **Permissions are authoritative up to the role.** After every sequence of calls of which those that raise had
written nothing, a user who is not an admin is authorised for a permission exactly if it or the wildcard is in the list
that was assigned to the user last, or it is a default of the user's role. -/
theorem authorised_iff_assigned {a : Accounts} {row : UserRow}
    (h : Reachable (· = emptyAccounts) (Only Called NothingHalfWritten) a) (hrow : row ∈ a.session.current.users)
    (hrole : row.role ≠ lit "admin") (permission : Text) :
    hasPermission row.role (a.session.current.permissionsOf row.id) permission = true ↔
      (permission ∈ a.assigned row.id ∨ lit "*" ∈ a.assigned row.id) ∨ permission ∈ defaultRolePermissions row.role := by
  have hauthoritative : Authoritative a.assigned a.session.current := by
    refine h.invariant (I := fun a => Authoritative a.assigned a.session.current) ?_ ?_
    · rintro _ rfl i hi
      simp [emptyAccounts, emptyTables] at hi
    · rintro a call _ ha ⟨rfl, hcall⟩
      exact call_authoritative hcall ha
  have hgrants := hauthoritative row.id (List.mem_map_of_mem hrow)
  rw [hasPermission_iff hrole, mem_permissionsOf, mem_permissionsOf, hgrants, hgrants]

/-! ## A default that is revoked -/

def createViewer : Operation × List Bool := (.mutate (.createUser newViewer), [])

def revokeAll : Operation × List Bool := (.mutate (.setUserPermissions 1 (⟨[], .nil⟩ : SetOrder [])), [])

/-- A viewer is created, and all its permissions are taken away. -/
def revokedViewer : Accounts := (emptyAccounts.call createViewer).call revokeAll

theorem nothingHalfWritten_of_returns {a : Accounts} {mutation : Mutation} {faults : List Bool}
    (h : (mutation.program.on (a.begin faults)).1 = .ok ()) : NothingHalfWritten a (.mutate mutation, faults) := by
  rintro ⟨err, herr⟩
  rw [h] at herr
  cases herr

theorem revokedViewer_reachable : Reachable (· = emptyAccounts) (Only Called NothingHalfWritten) revokedViewer :=
  have hcreate : NothingHalfWritten emptyAccounts createViewer := nothingHalfWritten_of_returns (by decide)
  have hrevoke : NothingHalfWritten (emptyAccounts.call createViewer) revokeAll :=
    nothingHalfWritten_of_returns (by decide)
  ⟨emptyAccounts, [createViewer, revokeAll], rfl, .cons ⟨rfl, hcreate⟩ (.cons ⟨rfl, hrevoke⟩ (.nil _))⟩

theorem revoked_default_stays :
    hasPermission (lit "viewer") (revokedViewer.session.current.permissionsOf 1) (lit "logs:view") = true :=
  have hrow : newViewer.row 1 ∈ revokedViewer.session.current.users := by decide
  (authorised_iff_assigned revokedViewer_reachable hrow (by decide) (lit "logs:view")).mpr (.inr (by decide))

/-- The role alone authorises the user, whose last list is empty. -/
theorem revoked_default_authorises :
    ¬ ∀ (a : Accounts) (row : UserRow) (permission : Text), Reachable (· = emptyAccounts) (Only Called NothingHalfWritten) a →
      row ∈ a.session.current.users → row.isActive = 1 → row.role ≠ lit "admin" →
        (hasPermission row.role (a.session.current.permissionsOf row.id) permission = true ↔
          permission ∈ a.assigned row.id ∨ lit "*" ∈ a.assigned row.id) := by
  intro h
  have hrevoked := h revokedViewer (newViewer.row 1) (lit "logs:view") revokedViewer_reachable (by decide) (by decide) (by decide)
  have hassigned := hrevoked.mp ((hasPermission_iff (by decide)).mpr (.inr (by decide)))
  exact absurd hassigned (by decide)

end Palworld.Database

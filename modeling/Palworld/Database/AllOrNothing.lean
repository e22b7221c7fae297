import Palworld.Database.Users

/-!
# Failed user mutations

A mutation that raises leaves its transaction open, and the next commit on the connection
stores what it had written by then.
-/

open Lib Lib.Db
open Palworld.Auth (UserRecord)

namespace Palworld.Database

variable {s m : Session Tables} {userId : Int} {changes : UserChanges} {user : NewUser} {permissions : List Text}
  {F : Tables → Prop}

inductive Mutation
  | createUser (user : NewUser)
  | updateUser (userId : Int) (changes : UserChanges)
  | setUserPermissions (userId : Int) {permissions : List Text} (order : SetOrder permissions)

def Mutation.program : Mutation → Call Unit
  | .createUser user => do
    let _ ← Database.createUser user
  | .updateUser userId changes => do
    let _ ← Database.updateUser userId changes
  | .setUserPermissions userId order => Database.setUserPermissions userId order

/-- The operations of the shared connection. Those that read, read `n` times. -/
inductive Operation
  | mutate (mutation : Mutation)
  | deleteUser (userId : Int)
  | updateUserLastLogin (userId : Int) (timestamp : Text)
  | reads (n : Nat)
  | writeElsewhere (statements : Nat)

def Operation.program : Operation → Call Unit
  | .mutate mutation => mutation.program
  | .deleteUser userId => do
    let _ ← Database.deleteUser userId
  | .updateUserLastLogin userId timestamp => Database.updateUserLastLogin userId timestamp
  | .reads n => (List.range n).forM fun _ => query fun _ => ()
  | .writeElsewhere statements => Database.writeElsewhere statements

def after : List (Operation × List Bool) → Session Tables → Session Tables
  | [], s => s
  | (operation, faults) :: later, s => after later (operation.program.on { s with faults := faults }).2

/-- Whatever comes later, the file has the rows that it would have without the call. -/
def AllOrNothing (mutation : Mutation) (s : Session Tables) : Prop :=
  ∀ later, (after later (mutation.program.on s).2).stored.rows = (after later s).stored.rows

/-- What has to hold when a mutation raises, for it to leave nothing behind. -/
def Mutation.Harmless : Mutation → Session Tables → Prop
  | .createUser user, s => s.Faulty ∨ user.username ∈ s.current.users.map UserRow.username
  | .updateUser userId changes, s =>
    s.Faulty ∨ s.next.Faulty ∨
      Idle userId changes s.current ∧ (s.next.next.Faulty ∨ s.stored.rows = s.current.rows)
  | .setUserPermissions userId order, s =>
    s.Faulty ∨
      (∀ row ∈ s.current.permissions, row.userId ≠ userId) ∧
        (order.val = [] ∨ s.next.Faulty ∨ userId ∉ s.current.users.map UserRow.id)

/-! ## Later operations -/

structure Undone (s t : Session Tables) : Prop where
  current : t.current = s.current
  stored : t.stored.rows = s.stored.rows

/-- The connection shows a part of the failed call. -/
def Visible (s t : Session Tables) : Prop := t.current.rows ≠ s.current.rows ∨ t.stored.rows ≠ s.stored.rows

section Respects

theorem createUser_respects (user : NewUser) : Respects Tables.rows (createUser user) := by
  unfold createUser getUserById
  refine (respects_execute _).bind fun newId => ?_
  refine (respects_forM (fun _ => respects_execute _) _).bind fun _ => ?_
  refine respects_commit.bind fun _ => (respects_query _).bind fun found => ?_
  cases found with
  | some record => exact respects_pure record
  | none => exact respects_throw _

theorem updateUser_respects (userId : Int) (changes : UserChanges) : Respects Tables.rows (updateUser userId changes) := by
  unfold updateUser getUserById
  refine (respects_query _).bind fun found => ?_
  cases found with
  | none => exact respects_pure none
  | some existing =>
    refine (respects_execute _).bind fun _ => Respects.bind ?_ fun _ => respects_commit.bind fun _ => respects_query _
    cases newRole changes existing with
    | none => exact respects_pure ()
    | some role => exact (respects_execute _).bind fun _ => respects_forM (fun _ => respects_execute _) _

theorem Mutation.respects (mutation : Mutation) : Respects Tables.rows mutation.program := by
  cases mutation with
  | createUser user => exact (createUser_respects user).bind fun _ => respects_pure ()
  | updateUser userId changes => exact (updateUser_respects userId changes).bind fun _ => respects_pure ()
  | setUserPermissions userId order =>
    exact (respects_execute _).bind fun _ => (respects_forM (fun _ => respects_execute _) _).bind fun _ => respects_commit

theorem Operation.respects (operation : Operation) : Respects Tables.rows operation.program := by
  cases operation with
  | mutate mutation => exact mutation.respects
  | deleteUser userId =>
    refine Respects.bind ?_ fun _ => respects_pure ()
    exact (respects_execute _).bind fun _ => respects_commit.bind fun _ => respects_pure _
  | updateUserLastLogin userId timestamp => exact (respects_execute _).bind fun _ => respects_commit
  | reads n => exact respects_forM (fun _ => respects_query _) _
  | writeElsewhere statements => exact (respects_forM (fun _ => respects_execute _) _).bind fun _ => respects_commit

end Respects

theorem after_alike {t : Session Tables} (hcurrent : t.current = s.current)
    (hstored : t.stored.rows = s.stored.rows) (later : List (Operation × List Bool)) :
    (after later t).stored.rows = (after later s).stored.rows := by
  induction later generalizing s t with
  | nil => exact hstored
  | cons step later ih =>
    obtain ⟨operation, faults⟩ := step
    obtain ⟨-, hafter⟩ := operation.respects { t with faults := faults } { s with faults := faults } ⟨hcurrent, rfl, hstored⟩
    exact ih hafter.current hafter.stored

/-- Another operation that commits stores what the failed call had written. -/
theorem after_commit (s : Session Tables) : (after [(.writeElsewhere 0, [])] s).stored = s.current := rfl

theorem allOrNothing_of_undone {mutation : Mutation} (h : Undone s (mutation.program.on s).2) :
    AllOrNothing mutation s := fun later => after_alike h.current h.stored later

theorem not_allOrNothing_of_visible {mutation : Mutation} (h : Visible s (mutation.program.on s).2) :
    ¬ AllOrNothing mutation s := by
  intro hnothing
  rcases h with hcurrent | hstored
  · have hlater := hnothing [(.writeElsewhere 0, [])]
    rw [after_commit, after_commit] at hlater
    exact hcurrent hlater
  · exact hstored (hnothing [])

/-! ## What a mutation that raises has written -/

def Judged (mutation : Mutation) (s t : Session Tables) : Prop :=
  mutation.Harmless s ∧ Undone s t ∨ ¬ mutation.Harmless s ∧ Visible s t

theorem undone_next (s : Session Tables) : Undone s s.next := ⟨rfl, rfl⟩

theorem createUser_judged (s₀ : Session Tables) :
    Triple (fun s => s = s₀) (createUser user) (fun _ _ => True) (Judged (.createUser user) s₀) := by
  unfold createUser
  refine Triple.bind (Q := fun newId s => ¬ (Mutation.createUser user).Harmless s₀ ∧
    (user.row newId ∈ s.current.users ∧ user.row newId ∉ s₀.current.users)) (triple_execute ?_ ?_) fun newId => ?_
  · rintro s rfl hfault newId t ht
    have hname : user.username ∉ s.current.users.map UserRow.username := by
      rw [← insertUser_eq_none_iff, ht]
      simp
    exact ⟨not_or.mpr ⟨hfault, hname⟩, insertUser_new ht⟩
  · rintro s rfl hfault
    refine .inl ⟨?_, undone_next s⟩
    exact hfault.imp_right insertUser_eq_none_iff.mp
  -- From here on the new row is there, and no later statement removes it.
  · by_cases hharmless : (Mutation.createUser user).Harmless s₀
    · exact fun s hs => absurd hharmless hs.1
    refine Triple.of_keeps (Session.Meets (fun t => user.row newId ∈ t.users ∧ user.row newId ∉ s₀.current.users)
      fun _ => True) (fun s hs => ⟨hs.2, trivial⟩) (fun _ _ _ => trivial) (fun t ht => ?_) ?_
    · refine .inr ⟨hharmless, .inl fun hrows => ht.1.2 ?_⟩
      rw [← Tables.users_eq_of_rows hrows]
      exact ht.1.1
    · exact keeps_finishUser (fun t t' husers => husers ▸ id) fun _ _ => trivial

theorem newRole_of_idle {t : Tables} {row : UserRow} (h : Idle userId changes t) (hrow : t.userById userId = some row) :
    newRole changes (rowToUser row) = none := by
  obtain ⟨hin, hid⟩ := userById_spec hrow
  have happly := congrArg UserRow.role (h row hin hid)
  unfold UserChanges.apply at happly
  unfold newRole rowToUser
  cases hrole : changes.role with
  | none => rfl
  | some role =>
    rw [hrole] at happly
    simpa using happly

theorem updateUser_visible {s₀ : Session Tables} {role : Option Text} (hidle : ¬ Idle userId changes s₀.current) :
    Triple (fun s => s.current = s₀.current.updateUser userId changes)
      (do
        syncPermissions userId role
        commit
        getUserById userId)
      (fun _ _ => True) (Visible s₀) := by
  refine Triple.of_keeps (Session.Meets (fun t => t.users = (s₀.current.updateUser userId changes).users) fun _ => True)
    (fun s hs => ⟨congrArg Tables.users hs, trivial⟩) (fun _ _ _ => trivial) (fun t ht => ?_) ?_
  · refine .inl fun hrows => hidle (updateUser_users_iff.mp ?_)
    rw [← ht.1]
    exact Tables.users_eq_of_rows hrows
  · refine (keeps_syncPermissions (fun t t' husers => husers ▸ id) role).bind fun _ => ?_
    exact (keeps_commit fun _ _ => trivial).bind fun _ => keeps_query _

theorem updateUser_judged (s₀ : Session Tables) :
    Triple (fun s => s = s₀) (updateUser userId changes) (fun _ _ => True) (Judged (.updateUser userId changes) s₀) := by
  unfold updateUser
  refine Triple.bind (Q := fun found s => s = s₀.next ∧ ¬ s₀.Faulty ∧ found = (s₀.current.userById userId).map rowToUser)
    (triple_query ?_ ?_) fun found => ?_
  · rintro s rfl hfault
    exact ⟨rfl, hfault, rfl⟩
  · rintro s rfl hfault
    exact .inl ⟨.inl hfault, undone_next s⟩
  -- Up to here the call has only read.
  cases found with
  | none => exact fun s _ => trivial
  | some existing =>
    refine Triple.bind (Q := fun _ s => s = { s₀.next.next with current := s₀.current.updateUser userId changes } ∧
      ¬ s₀.Faulty ∧ ¬ s₀.next.Faulty ∧ some existing = (s₀.current.userById userId).map rowToUser)
      (triple_execute ?_ ?_) fun _ => ?_
    · rintro s ⟨rfl, hfault, hfound⟩ hfault' _ t ht
      cases ht
      exact ⟨rfl, hfault, hfault', hfound⟩
    · rintro s ⟨rfl, hfault, -⟩ hfault'
      rcases hfault' with hfault' | hnone
      · exact .inl ⟨.inr (.inl hfault'), rfl, rfl⟩
      · cases hnone
    by_cases hidle : Idle userId changes s₀.current
    · refine Triple.bind (Q := fun _ s => s = s₀.next.next ∧ ¬ s₀.Faulty ∧ ¬ s₀.next.Faulty) ?_ fun _ => ?_
      · rintro s ⟨rfl, hfault, hfault', hfound⟩
        obtain ⟨row, hrow, rfl⟩ := Option.map_eq_some_iff.mp hfound.symm
        rw [newRole_of_idle hidle hrow, hidle.updateUser]
        exact ⟨rfl, hfault, hfault'⟩
      refine Triple.bind (Q := fun _ s => s = { s₀.next.next.next with stored := s₀.current } ∧ ¬ s₀.Faulty ∧
        ¬ s₀.next.Faulty ∧ ¬ s₀.next.next.Faulty) (triple_commit ?_ ?_) fun _ => triple_query ?_ ?_
      · rintro s ⟨rfl, hfault, hfault'⟩ hfault''
        exact ⟨rfl, hfault, hfault', hfault''⟩
      · rintro s ⟨rfl, -, -⟩ hfault
        exact .inl ⟨.inr (.inr ⟨hidle, .inl hfault⟩), rfl, rfl⟩
      · exact fun _ _ _ => trivial
      -- The commit has stored what the connection saw: news to the file only if statements were open before.
      · rintro s ⟨rfl, hfault, hfault', hfault''⟩ -
        by_cases hrows : s₀.stored.rows = s₀.current.rows
        · exact .inl ⟨.inr (.inr ⟨hidle, .inr hrows⟩), rfl, hrows.symm⟩
        · refine .inr ⟨?_, .inr fun h => hrows h.symm⟩
          rintro (h | h | ⟨-, h | h⟩)
          · exact hfault h
          · exact hfault' h
          · exact hfault'' h
          · exact hrows h
    · by_cases hharmless : (Mutation.updateUser userId changes).Harmless s₀
      · rcases hharmless with h | h | ⟨h, -⟩
        · exact fun s hs => absurd h hs.2.1
        · exact fun s hs => absurd h hs.2.2.1
        · exact absurd h hidle
      refine (updateUser_visible hidle).mono (fun s hs => ?_) (fun _ _ _ => trivial) fun t ht => .inr ⟨hharmless, ht⟩
      rw [hs.1]

theorem insertPermission_gone {row : PermissionRow} (permission : Text) :
    Keeps (Session.Meets (fun t => row ∉ t.permissions ∧ row.id ≤ t.permissionSeq) F) (insertPermission userId permission) := by
  refine keeps_write fun t t' ht ⟨hgone, hid⟩ => ?_
  obtain ⟨-, hseq, hpermissions⟩ := insertPermission_spec ht
  rw [hpermissions, hseq]
  refine ⟨fun hin => ?_, by omega⟩
  rcases List.mem_append.mp hin with hin | hin
  · exact hgone hin
  · obtain rfl := List.mem_singleton.mp hin
    dsimp only at hid
    omega

theorem insertPermission_stays (permission : Text) :
    Keeps (Session.Meets (fun t => ∃ row ∈ t.permissions, row.userId = userId) F) (insertPermission userId permission) := by
  refine keeps_write fun t t' ht ⟨row, hrow, hid⟩ => ?_
  obtain ⟨-, -, hpermissions⟩ := insertPermission_spec ht
  exact ⟨row, hpermissions ▸ List.mem_append_left _ hrow, hid⟩

theorem insertPermissions_judged (s₀ : Session Tables) {permission : Text} {rest : List Text}
    (hrows : ∀ row ∈ s₀.current.permissions, row.userId ≠ userId) :
    Triple (fun s => s = s₀)
      (do
        (permission :: rest).forM (insertPermission userId)
        commit)
      (fun _ _ => True)
      (fun t => (s₀.Faulty ∨ userId ∉ s₀.current.users.map UserRow.id) ∧ Undone s₀ t ∨
        ¬ (s₀.Faulty ∨ userId ∉ s₀.current.users.map UserRow.id) ∧ Visible s₀ t) := by
  have hnew : (userId, permission) ∉ s₀.current.permissions.map fun row => (row.userId, row.permission) := by
    intro hin
    obtain ⟨row, hrow, hpair⟩ := List.mem_map.mp hin
    exact hrows row hrow (Prod.mk.inj hpair).1
  by_cases hfirst : s₀.Faulty ∨ userId ∉ s₀.current.users.map UserRow.id
  -- The first insertion is the one that raises, so it returns in no case.
  · refine Triple.bind (Q := fun _ _ => False) (Triple.bind (Q := fun _ _ => False) (triple_execute ?_ ?_) ?_) ?_
    · rintro s rfl hfault _ t ht
      obtain ⟨t', ht', -⟩ := Option.map_eq_some_iff.mp ht
      have hnone : s.current.insertPermission userId permission = none :=
        insertPermission_eq_none_iff.mpr (.inr (hfirst.resolve_left hfault))
      rw [hnone] at ht'
      cases ht'
    · rintro s rfl -
      exact .inl ⟨hfirst, undone_next s⟩
    · exact fun _ _ h => h.elim
    · exact fun _ _ h => h.elim
  · obtain ⟨hfault, howner⟩ := not_or.mp hfirst
    have hshown : ∀ t : Session Tables, (∃ row ∈ t.current.permissions, row.userId = userId) → Visible s₀ t := by
      rintro t ⟨row, hrow, hid⟩
      exact .inl fun heq => hrows row (Tables.permissions_eq_of_rows heq ▸ hrow) hid
    have hgranted : Triple (fun s => s = s₀) (insertPermission userId permission)
        (fun _ s => ∃ row ∈ s.current.permissions, row.userId = userId) (fun _ => False) := by
      refine triple_execute ?_ ?_
      · rintro s rfl - _ t ht
        obtain ⟨t', ht', hpair⟩ := Option.map_eq_some_iff.mp ht
        cases hpair
        obtain ⟨-, -, hpermissions⟩ := insertPermission_spec ht'
        exact ⟨_, hpermissions ▸ List.mem_append_right _ (List.mem_singleton_self _), rfl⟩
      · rintro s rfl (h | h)
        · exact hfault h
        · rcases insertPermission_eq_none_iff.mp (Option.map_eq_none_iff.mp h) with h | h
          · exact hnew h
          · exact howner h
    have hrest : Keeps (Session.Meets (fun t => ∃ row ∈ t.permissions, row.userId = userId) fun _ => True)
        (rest.forM (insertPermission userId)) := keeps_forM insertPermission_stays rest
    refine Triple.bind (Triple.bind (hgranted.mono (fun _ h => h) (fun _ _ h => ⟨h, trivial⟩) fun _ h => h.elim)
      fun _ => hrest.mono (fun _ h => h) (fun _ _ h => h) fun t ht => .inr ⟨hfirst, hshown t ht.1⟩)
      fun _ => triple_commit (fun _ _ _ => trivial) fun s hs _ => .inr ⟨hfirst, hshown s.next hs.1⟩

theorem setUserPermissions_judged (order : SetOrder permissions) (s₀ : Session Tables) :
    Triple (fun s => s = s₀) (setUserPermissions userId order) (fun _ _ => True)
      (Judged (.setUserPermissions userId order) s₀) := by
  unfold setUserPermissions
  refine Triple.bind (Q := fun _ s => s = { s₀.next with current := s₀.current.deletePermissions userId } ∧ ¬ s₀.Faulty)
    (triple_execute ?_ ?_) fun _ => ?_
  · rintro s rfl hfault _ t ht
    cases ht
    exact ⟨rfl, hfault⟩
  · rintro s rfl hfault
    rcases hfault with hfault | hnone
    · exact .inl ⟨.inl hfault, undone_next s⟩
    · cases hnone
  by_cases hfault : s₀.Faulty
  · exact fun s hs => absurd hfault hs.2
  by_cases hrows : ∀ row ∈ s₀.current.permissions, row.userId ≠ userId
  · rw [deletePermissions_of_none hrows]
    cases horder : order.val with
    | nil =>
      refine Triple.bind (Q := fun _ s => s = s₀.next) (fun s hs => hs.1) fun _ => triple_commit (fun _ _ _ => trivial) ?_
      rintro s rfl -
      exact .inl ⟨.inr ⟨hrows, .inl horder⟩, rfl, rfl⟩
    | cons permission rest =>
      refine (insertPermissions_judged s₀.next hrows).mono (fun s hs => hs.1) (fun _ _ _ => trivial) ?_
      rintro t (⟨hfirst, hundone⟩ | ⟨hfirst, hvisible⟩)
      · exact .inl ⟨.inr ⟨hrows, .inr hfirst⟩, hundone.current, hundone.stored⟩
      · refine .inr ⟨?_, hvisible⟩
        rintro (h | ⟨-, h | h⟩)
        · exact hfault h
        · exact List.cons_ne_nil _ _ (horder.symm.trans h)
        · exact hfirst h
  -- The deletion took a row away, and ids are never given out again.
  · have hharmless : ¬ Mutation.Harmless (.setUserPermissions userId order) s₀ := by
      rintro (h | ⟨h, -⟩)
      · exact hfault h
      · exact hrows h
    push Not at hrows
    obtain ⟨row, hrow, hid⟩ := hrows
    refine Triple.of_keeps (Session.Meets (fun t => row ∉ t.permissions ∧ row.id ≤ t.permissionSeq) fun _ => True)
      ?_ (fun _ _ _ => trivial) (fun t ht => .inr ⟨hharmless, .inl fun heq => ht.1.1 ?_⟩) ?_
    · rintro s ⟨rfl, -⟩
      refine ⟨⟨fun hin => ?_, s₀.current.wellFormed.permissionSeq row hrow⟩, trivial⟩
      exact of_decide_eq_true (List.mem_filter.mp hin).2 hid
    · exact Tables.permissions_eq_of_rows heq ▸ hrow
    · exact (keeps_forM insertPermission_gone _).bind fun _ => keeps_commit fun _ _ => trivial

theorem Mutation.judged (mutation : Mutation) (s₀ : Session Tables) :
    Triple (fun s => s = s₀) mutation.program (fun _ _ => True) (Judged mutation s₀) := by
  cases mutation with
  | createUser user => exact (createUser_judged s₀).bind fun _ => fun _ _ => trivial
  | updateUser userId changes => exact (updateUser_judged s₀).bind fun _ => fun _ _ => trivial
  | setUserPermissions userId order => exact setUserPermissions_judged order s₀

/-- **When a failed mutation leaves nothing behind.** A call of `create_user`, `update_user` or
`set_user_permissions` that raises is as if never made, whatever the connection does later, exactly when it is
harmless: no statement before the one that raised had written a row. -/
theorem all_or_nothing_iff {mutation : Mutation} {err : SqlError}
    (h : (mutation.program.on s).1 = .error (.sqlite err)) : AllOrNothing mutation s ↔ mutation.Harmless s := by
  have hjudged := mutation.judged s s rfl
  rcases hrun : mutation.program.on s with ⟨result, t⟩
  rw [hrun] at h hjudged
  dsimp only at h
  subst h
  have ht : (mutation.program.on s).2 = t := congrArg Prod.snd hrun
  rcases hjudged with ⟨hharmless, hundone⟩ | ⟨hharmless, hvisible⟩
  · exact ⟨fun _ => hharmless, fun _ => allOrNothing_of_undone (ht ▸ hundone)⟩
  · exact ⟨fun hnothing => absurd hnothing (not_allOrNothing_of_visible (ht ▸ hvisible)), fun h => absurd h hharmless⟩

/-! ## Two failed calls -/

def newViewer : NewUser :=
  ⟨lit "anna", lit "5f4dcc3b", lit "9ae1", lit "anna@example.org", lit "viewer", true, lit "2025-01-01T00:00:00+00:00"⟩

def opened (faults : List Bool) : Session Tables := ⟨emptyTables, emptyTables, faults⟩

theorem taken_name_leaves_nothing :
    AllOrNothing (.createUser newViewer) ((Mutation.createUser newViewer).program.on (opened [])).2 :=
  have h : ((Mutation.createUser newViewer).program.on ((Mutation.createUser newViewer).program.on (opened [])).2).1 =
      .error (.sqlite .integrity) := by decide
  (all_or_nothing_iff h).mpr (.inr (by decide))

/-- The second statement raises, and the next audit record stores the user without permissions. -/
theorem half_created_user :
    ¬ ∀ (mutation : Mutation) (s : Session Tables) (err : SqlError),
      (mutation.program.on s).1 = .error (.sqlite err) → AllOrNothing mutation s := by
  intro h
  have hstored := h (.createUser newViewer) (opened [false, true]) .operational (by decide) [(.writeElsewhere 1, [])]
  exact absurd hstored (by decide)

end Palworld.Database
